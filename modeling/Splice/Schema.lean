import Splice.Fault

namespace Splice

inductive Schema
  | mk (types : List String) (properties : List (String × Schema)) (isOpen : Bool)
    (above : Option Value)
  deriving Inhabited

namespace Schema

structure Violation where
  path : List String
  message : String
  /-- The value has none of the types allowed. -/
  wrongType : Bool
  deriving DecidableEq, Repr

/-- The types by their names; truth values are no numbers. -/
def hasType : String → Value → Bool
  | "null", .null => true
  | "boolean", .bool _ => true
  | "number", .int _ => true
  | "number", .float _ => true
  | "string", .text _ => true
  | "array", .list _ => true
  | "object", .map _ => true
  | _, _ => false

def typeViolations (types : List String) (path : List String) (v : Value) : List Violation :=
  if types = [] ∨ types.any (hasType · v) then []
  else
    let names := ", ".intercalate (types.map Text.quoted)
    [⟨path, v.shown ++ " is not of type " ++ names, true⟩]

def isAtMost : Value → Value → Bool
  | .int i, .int b => i ≤ b
  | .float d, .int 0 => d.isAtMostZero
  | _, _ => false

def boundViolations (above : Option Value) (path : List String) (v : Value) : List Violation :=
  match above with
  | none => []
  | some b =>
    if isAtMost v b then
      [⟨path, v.shown ++ " is less than or equal to the minimum of " ++ b.shown, false⟩]
    else []

def strangers (names : List String) (m : Mapping) : List Key :=
  ((m.map (·.1)).filter fun k => names.all fun n => k ≠ .text n).mergeSort
    fun a b => a.plain ≤ b.plain

def strangerViolations (names : List String) (path : List String) (v : Value) : List Violation :=
  match v with
  | .map m => match strangers names m with
    | [] => []
    | ks =>
      let verb := match ks with
        | [_] => " was"
        | _ => " were"
      let shown := ", ".intercalate (ks.map Key.shown)
      [⟨path, "Additional properties are not allowed (" ++ shown ++ verb ++ " unexpected)", false⟩]
  | _ => []

mutual
/-- All violations, those of a mapping's type before those of its entries. -/
def violations (path : List String) (v : Value) : Schema → List Violation
  | .mk types properties isOpen above =>
    typeViolations types path v ++ propertyViolations path v properties ++
      (if isOpen then [] else strangerViolations (properties.map (·.1)) path v) ++
      boundViolations above path v

def propertyViolations (path : List String) (v : Value) : List (String × Schema) → List Violation
  | [] => []
  | (name, s) :: rest =>
    let here := match v with
      | .map m => match Entries.get? m (.text name) with
        | some v' => violations (path ++ [name]) v' s
        | none => []
      | _ => []
    here ++ propertyViolations path v rest
end

/-- The second violation is to be reported rather than the first. -/
def outweighs (a b : Violation) : Bool :=
  b.path.length < a.path.length ||
    (b.path.length = a.path.length && (a.path < b.path ||
      (a.path = b.path && !a.wrongType && b.wrongType)))

/-- The violation to be reported, the first of those that none outweighs. -/
def worst : List Violation → Option Violation
  | [] => none
  | v :: vs => some (vs.foldl (fun a b => if outweighs a b then b else a) v)

def location (v : Violation) : String :=
  if v.path = [] then "<root>" else "/".intercalate v.path

def check (name : String) (s : Schema) (v : Value) : Except Fault Unit :=
  match worst (s.violations [] v) with
  | none => .ok ()
  | some w => .error (.violation name (location w) w.message)

/-! ### Schemas as values -/

def typeNames : Value → List String
  | .text s => [s]
  | .list vs => vs.filterMap fun
    | .text s => some s
    | _ => none
  | _ => []

mutual
def ofValue : Value → Schema
  | .map es =>
    .mk (typeNames (Mapping.field es "type")) (propertiesOf es)
      (Mapping.field es "additionalProperties" ≠ .bool false)
      (Entries.get? es (.text "exclusiveMinimum"))
  | _ => .mk [] [] true none

def propertiesOf : List (Key × Value) → List (String × Schema)
  | [] => []
  | (.text "properties", .map ps) :: _ => schemasOf ps
  | _ :: es => propertiesOf es

def schemasOf : List (Key × Value) → List (String × Schema)
  | [] => []
  | (.text name, v) :: es => (name, ofValue v) :: schemasOf es
  | _ :: es => schemasOf es
end

end Schema

end Splice
