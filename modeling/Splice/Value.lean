import Splice.Double
import Splice.Moment
import Splice.Text.Quoted

namespace Splice

inductive Key
  | null
  | bool (b : Bool)
  | int (i : Int)
  | float (d : Double)
  | moment (m : Moment)
  | text (s : String)
  deriving DecidableEq, Repr

/-- What a key stands for: the truth values are the numbers zero and one, and a floating-point
number that is whole is that number. Of moments only those of one kind are compared. -/
inductive Key.Meaning
  | null
  | whole (i : Int)
  | float (d : Double)
  | moment (zoned : Option Bool) (instant : Int)
  | text (s : String)
  deriving DecidableEq, Repr

def Key.meaning : Key → Key.Meaning
  | .null => .null
  | .bool b => .whole (if b then 1 else 0)
  | .int i => .whole i
  | .float d => match d.whole? with
    | some i => .whole i
    | none => .float d
  | .moment m => .moment (m.clock.map (·.offset.isSome)) m.instant
  | .text s => .text s

def Key.same (a b : Key) : Bool := a.meaning = b.meaning

inductive Value
  | null
  | bool (b : Bool)
  | int (i : Int)
  | float (d : Double)
  | moment (m : Moment)
  | text (s : String)
  | list (vs : List Value)
  | map (entries : List (Key × Value))
  deriving Repr, Inhabited

/-- Entries in the order in which their keys came first. -/
abbrev Entries (α : Type) := List (Key × α)

namespace Entries

variable {α : Type}

def get? (m : Entries α) (k : Key) : Option α := (m.find? fun e => e.1.same k).map (·.2)

/-- Give `k` the value `v`: in place of its old value, or else at the end. -/
def insert (m : Entries α) (k : Key) (v : α) : Entries α :=
  match m with
  | [] => [(k, v)]
  | e :: es => if e.1.same k then (e.1, v) :: es else e :: insert es k v

def ofList (es : List (Key × α)) : Entries α := es.foldl (fun m e => insert m e.1 e.2) []

end Entries

abbrev Mapping := Entries Value

def Key.shown : Key → String
  | .null => "None"
  | .bool b => if b then "True" else "False"
  | .int i => toString i
  | .float d => d.text
  | .moment m => m.shown
  | .text s => Text.quoted s

def Key.plain : Key → String
  | .text s => s
  | .moment m => m.text
  | k => k.shown

namespace Value

mutual
def decEq : (a b : Value) → Decidable (a = b)
  | .null, .null => isTrue rfl
  | .bool a, .bool b => if h : a = b then isTrue (by rw [h]) else isFalse (by simp [h])
  | .int a, .int b => if h : a = b then isTrue (by rw [h]) else isFalse (by simp [h])
  | .float a, .float b => if h : a = b then isTrue (by rw [h]) else isFalse (by simp [h])
  | .moment a, .moment b => if h : a = b then isTrue (by rw [h]) else isFalse (by simp [h])
  | .text a, .text b => if h : a = b then isTrue (by rw [h]) else isFalse (by simp [h])
  | .list as, .list bs => match decEqList as bs with
    | isTrue h => isTrue (by rw [h])
    | isFalse h => isFalse (by simp [h])
  | .map as, .map bs => match decEqMap as bs with
    | isTrue h => isTrue (by rw [h])
    | isFalse h => isFalse (by simp [h])
  | .null, .bool _ | .null, .int _ | .null, .float _ | .null, .moment _ | .null, .text _
  | .null, .list _ | .null, .map _ | .bool _, .null | .bool _, .int _ | .bool _, .float _
  | .bool _, .moment _ | .bool _, .text _ | .bool _, .list _ | .bool _, .map _ | .int _, .null
  | .int _, .bool _ | .int _, .float _ | .int _, .moment _ | .int _, .text _ | .int _, .list _
  | .int _, .map _ | .float _, .null | .float _, .bool _ | .float _, .int _ | .float _, .moment _
  | .float _, .text _ | .float _, .list _ | .float _, .map _ | .moment _, .null
  | .moment _, .bool _ | .moment _, .int _ | .moment _, .float _ | .moment _, .text _
  | .moment _, .list _ | .moment _, .map _ | .text _, .null | .text _, .bool _ | .text _, .int _
  | .text _, .float _ | .text _, .moment _ | .text _, .list _ | .text _, .map _ | .list _, .null
  | .list _, .bool _ | .list _, .int _ | .list _, .float _ | .list _, .moment _ | .list _, .text _
  | .list _, .map _ | .map _, .null | .map _, .bool _ | .map _, .int _ | .map _, .float _
  | .map _, .moment _ | .map _, .text _ | .map _, .list _ => isFalse (by simp)

def decEqList : (as bs : List Value) → Decidable (as = bs)
  | [], [] => isTrue rfl
  | [], _ :: _ => isFalse (by simp)
  | _ :: _, [] => isFalse (by simp)
  | a :: as, b :: bs => match decEq a b, decEqList as bs with
    | isTrue h, isTrue hs => isTrue (by rw [h, hs])
    | isFalse h, _ => isFalse (by simp [h])
    | _, isFalse hs => isFalse (by simp [hs])

def decEqMap : (as bs : List (Key × Value)) → Decidable (as = bs)
  | [], [] => isTrue rfl
  | [], _ :: _ => isFalse (by simp)
  | _ :: _, [] => isFalse (by simp)
  | (k, a) :: as, (l, b) :: bs =>
    if hk : k = l then match decEq a b, decEqMap as bs with
      | isTrue h, isTrue hs => isTrue (by rw [hk, h, hs])
      | isFalse h, _ => isFalse (by simp [h])
      | _, isFalse hs => isFalse (by simp [hs])
    else isFalse (by simp [hk])
end

instance : DecidableEq Value := decEq

def kind : Value → String
  | .null => "NoneType"
  | .bool _ => "bool"
  | .int _ => "int"
  | .float _ => "float"
  | .moment m => m.kind
  | .text _ => "str"
  | .list _ => "list"
  | .map _ => "dict"

/-- The kind as the failures of operations name it. -/
def fullKind : Value → String
  | .moment m => "datetime." ++ m.kind
  | v => v.kind

mutual
def shown : Value → String
  | .null => "None"
  | .bool b => if b then "True" else "False"
  | .int i => toString i
  | .float d => d.text
  | .moment m => m.shown
  | .text s => Text.quoted s
  | .list vs => "[" ++ ", ".intercalate (shownList vs) ++ "]"
  | .map es => "\x7b" ++ ", ".intercalate (shownMap es) ++ "\x7d"

def shownList : List Value → List String
  | [] => []
  | v :: vs => v.shown :: shownList vs

def shownMap : List (Key × Value) → List String
  | [] => []
  | (k, v) :: es => (k.shown ++ ": " ++ v.shown) :: shownMap es
end

def plain : Value → String
  | .text s => s
  | .moment m => m.text
  | v => v.shown

/-- A value that counts as absent: null, false, zero, and all that is empty. -/
def isEmpty : Value → Bool
  | .null => true
  | .bool b => !b
  | .int i => i = 0
  | .float (.finite _ m _) => m = 0
  | .float _ => false
  | .moment _ => false
  | .text s => s.isEmpty
  | .list vs => vs.isEmpty
  | .map es => es.isEmpty

end Value

namespace Mapping

def field (m : Mapping) (name : String) : Value := (m.get? (.text name)).getD .null

def ofTexts (es : List (String × String)) : Mapping :=
  Entries.ofList (es.map fun e => (.text e.1, .text e.2))

end Mapping

end Splice
