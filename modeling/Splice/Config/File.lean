import Splice.Value.Merge
import Splice.World
import Splice.Yaml.Value

namespace Splice.Config

/-- A text is read piece by piece, so that a character cut off at the end is reported from its own
beginning. -/
def streamed (e : Text.Utf8.Invalid) : Text.Utf8.Invalid :=
  if e.reason = .endOfData then { e with position := 0 } else e

def object (t : FileTree) (p : Path) : Except Fault Object := do
  if ← t.contains p then
    let cs ← (Text.Utf8.decode (← t.contents p)).mapError fun e => .undecodable (streamed e)
    match Yaml.document p.text (Text.unifyLineEnds cs) with
    | .ok o => return o
    | .error (.malformed stage) => throw (.invalidYaml p.text stage.text)
    | .error (.fault e) => throw e
  else throw (.absentFile p.text)

def read (t : FileTree) (p : Path) : Except Fault Value := (object t p).map Object.value

def isPassedOver : Fault → Bool
  | .absentFile _ | .refused _ _ | .invalidYaml _ _ => true
  | _ => false

/-- The value that a file holds, or `default` if it holds none. A lenient reader takes the default
also where the file cannot be read. -/
def readOr (t : FileTree) (default : Value) (lenient : Bool) (p : Path) : Except Fault Value :=
  match t.contains p with
  | .error e => .error e
  | .ok _ => match read t p with
    | .ok .null => .ok default
    | .ok v => .ok v
    | .error e => if lenient ∧ isPassedOver e then .ok default else .error e

def layer (t : FileTree) (p : Path) : Except Fault Objects :=
  match object t p with
  | .ok (.scalar .null) => .ok []
  | .ok (.map _ m) => .ok m
  | .ok _ => .error (.notMapping p.text)
  | .error e => .error e

def mapping (t : FileTree) (p : Path) : Except Fault Mapping := (layer t p).map Entries.values

/-! ### Directories -/

def stem (name : String) : String :=
  match name.toList.reverse.span (· ≠ '.') with
  | ([], _) => name
  | (_, []) => name
  | (_, [_]) => name
  | (_, _ :: before) => String.ofList before.reverse

def hasEnding (ending name : String) : Bool := ending.toList.isSuffixOf name.toList

def withStem? (names : List String) (ending s : String) : Option String :=
  (names.filter (hasEnding ending)).find? (stem · = s)

def stems (names : List String) : List String :=
  (((names.filter fun n => hasEnding ".yaml" n || hasEnding ".yml" n).map stem).eraseDups).mergeSort
    fun a b => a ≤ b

/-- The names of YAML files in the order of their stems, one for each stem. -/
def choose (names : List String) : List String :=
  (stems names).filterMap fun s =>
    (withStem? names ".yaml" s).or (withStem? names ".yml" s)

/-- The YAML files of a directory. What is no directory, or may not be listed, has none. -/
def files (t : FileTree) (dir : Path) : Except Fault (List Path) :=
  match t.contains dir with
  | .error e => .error e
  | .ok _ => .ok ((choose ((t.list dir).toOption.getD [])).map dir.child)

end Splice.Config
