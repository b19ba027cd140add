import Splice.Value.Object
import Splice.Yaml.Alias
import Splice.Yaml.Moment
import Splice.Yaml.Scanner

namespace Splice.Yaml

inductive Shape
  | null
  | bool
  | int
  | float
  | moment
  | text
  | list
  | map
  /-- The key whose value is merged into the mapping around it. -/
  | merge
  /-- A key that is a text among keys and nothing elsewhere. -/
  | standing
  | unknown
  deriving DecidableEq, Repr

namespace Shape

def bools : List (String × Bool) :=
  [("yes", true), ("no", false), ("true", true), ("false", false), ("on", true), ("off", false)]

def nulls : List String := ["~", "null", "Null", "NULL", ""]

def spellings (word : String) : List String :=
  match word.toList with
  | [] => [word]
  | c :: s => [word, String.ofList (c.toUpper :: s), String.ofList ((c :: s).map Char.toUpper)]

def ofText (s : String) : Shape :=
  let cs := chomped s.toList
  let s := String.ofList cs
  if bools.any fun b => (spellings b.1).contains s then .bool
  else if looksFloating cs then .float
  else if looksWhole cs then .int
  else if s = "<<" then .merge
  else if nulls.contains s then .null
  else if looksMomentary cs then .moment
  else if s = "=" then .standing
  else if ["!", "&", "*"].contains s then .unknown
  else .text

def ofTag : String → Shape
  | "tag:yaml.org,2002:null" => .null
  | "tag:yaml.org,2002:bool" => .bool
  | "tag:yaml.org,2002:int" => .int
  | "tag:yaml.org,2002:float" => .float
  | "tag:yaml.org,2002:timestamp" => .moment
  | "tag:yaml.org,2002:str" => .text
  | "tag:yaml.org,2002:seq" => .list
  | "tag:yaml.org,2002:map" => .map
  | "tag:yaml.org,2002:merge" => .merge
  | "tag:yaml.org,2002:value" => .standing
  | _ => .unknown

end Shape

def Tag.shape (default : Shape) : Tag → Shape
  | .named name => .ofTag name
  | _ => default

namespace Node

def shape : Node → Shape
  | .alias _ => .unknown
  | .scalar p plain text =>
    p.tag.shape (if plain || p.tag = .open then .ofText text else .text)
  | .list p _ => p.tag.shape .list
  | .map p _ => p.tag.shape .map

/-! ### Merged mappings -/

def sources : Node → Option (List (Node × Node))
  | .map _ es => some es
  | .list _ items => items.foldlM (fun es n => match n with
    | .map _ es' => some (es' ++ es)
    | _ => none) []
  | _ => none

def gather : List (Node × Node) → Option (List (Node × Node) × List (Node × Node))
  | [] => some ([], [])
  | (k, v) :: es => do
    let (merged, own) ← gather es
    if k.shape = .merge then return ((← sources v) ++ merged, own)
    else return (merged, (k, v) :: own)

mutual
/-- The node with the entries that are merged into a mapping in front of its own. A mapping into
which something else is merged becomes an alias, which has no value. -/
def merged : Node → Node
  | .map p es => match gather (mergedEntries es) with
    | some (es, own) => .map p (es ++ own)
    | none => .alias ""
  | .list p items => .list p (mergedItems items)
  | n => n

def mergedItems : List Node → List Node
  | [] => []
  | n :: ns => n.merged :: mergedItems ns

def mergedEntries : List (Node × Node) → List (Node × Node)
  | [] => []
  | (k, v) :: es => (k.merged, v.merged) :: mergedEntries es
end

end Node

/-! ### Values -/

inductive Stage
  | scan
  | parse
  | compose
  | construct
  deriving DecidableEq, Repr

def Stage.text : Stage → String
  | scan => "the text has no tokens"
  | parse => "the tokens are no document"
  | compose => "an anchor or an alias is out of place"
  | construct => "a node has no value"

/-- What is wrong with a text: it is no document, or one of its scalars does not write the value
that it is taken for. -/
inductive Flaw
  | malformed (stage : Stage)
  | fault (e : Fault)
  deriving DecidableEq, Repr

structure Found where
  depth : Nat
  flaw : Flaw
  deriving DecidableEq, Repr

/-- The result with the flaw that counts. -/
def both {α β γ : Type} (f : α → β → γ) : Except Found α → Except Found β → Except Found γ
  | .ok a, .ok b => .ok (f a b)
  | .error e, .ok _ => .error e
  | .ok _, .error e => .error e
  | .error e, .error e' => .error (if e'.depth < e.depth then e' else e)

def bool (s : String) : Except Fault Bool :=
  let s := Text.lowered s
  match Shape.bools.lookup s with
  | some b => .ok b
  | none => .error (.noSuchKey s)

def scalar (shape : Shape) (s : String) : Except Flaw Key :=
  match shape with
  | .null => .ok .null
  | .text => .ok (.text s)
  | .bool => (Key.bool <$> bool s).mapError .fault
  | .int => (Key.int <$> whole s.toList).mapError .fault
  | .float => (Key.float <$> floating s.toList).mapError .fault
  | .moment => (Key.moment <$> moment s.toList).mapError .fault
  | _ => .error (.malformed .construct)

def keyAt (depth : Nat) (k : Node) : Except Found Key :=
  match k with
  | .scalar _ _ text =>
    if k.shape = .standing then .ok (.text text)
    else (scalar k.shape text).mapError (⟨depth, ·⟩)
  | _ => .error ⟨depth, .malformed .construct⟩

section

variable (file : String)

mutual
def objectAt (depth : Nat) : Node → Except Found Object
  | .alias _ => .error ⟨depth + 1, .malformed .construct⟩
  | .scalar p plain text =>
    ((scalar (Node.scalar p plain text).shape text).mapError (⟨depth, ·⟩)).map .scalar
  | .list p items => match p.tag.shape .list with
    | .list => (itemsAt (depth + 1) items).map .list
    | .map => .error ⟨depth + 1, .malformed .construct⟩
    | _ => .error ⟨depth, .malformed .construct⟩
  | .map p entries => match p.tag.shape .map with
    | .map => (entriesAt (depth + 1) entries).map fun es =>
      .map (some ⟨file, p.place⟩) (Entries.ofList es)
    | .list => .error ⟨depth + 1, .malformed .construct⟩
    | _ => .error ⟨depth, .malformed .construct⟩

def itemsAt (depth : Nat) : List Node → Except Found (List Object)
  | [] => .ok []
  | v :: vs => both List.cons (objectAt depth v) (itemsAt depth vs)

def entriesAt (depth : Nat) : List (Node × Node) → Except Found (List (Key × Object))
  | [] => .ok []
  | (k, v) :: es =>
    both List.cons (both Prod.mk (keyAt depth k) (objectAt depth v)) (entriesAt depth es)
end

/-- What the document holds that a text of the file is; without a document it is null. -/
def document (s : List Char) : Except Flaw Object :=
  match Token.scan s with
  | none => .error (.malformed .scan)
  | some ts => match Node.ofTokens? ts with
    | none => .error (.malformed .parse)
    | some none => .ok (.scalar .null)
    | some (some n) => match n.resolved with
      | none => .error (.malformed .compose)
      | some n => (objectAt file 0 n.merged).mapError Found.flaw

end

def read (s : List Char) : Except Flaw Value := (document "" s).map Object.value

end Splice.Yaml
