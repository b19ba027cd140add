import Splice.Fault
import Splice.Path
import Splice.Text.Lines

namespace Splice

inductive Node
  | file (bytes : List UInt8)
  | link (target : String)
  | directory (entries : List (String × Node))
  deriving Repr, Inhabited

/-- Names from the root down, none of them a link or a dot. -/
abbrev Location := List String

namespace Node

def at? (n : Node) : Location → Option Node
  | [] => some n
  | name :: rest => match n with
    | .directory entries => (entries.lookup name).bind fun m => m.at? rest
    | _ => none

end Node

/-- Files with links between them. A directory may be closed to listing, but a name that is known can
be looked up in every directory. -/
structure FileTree where
  root : Node
  /-- The directory that relative paths start from. -/
  current : Location
  /-- Directories that may not be listed. -/
  unlistable : List Location
  /-- Files that may not be read. -/
  unreadable : List Location
  deriving Repr, Inhabited

namespace FileTree

def mostLinks : Nat := 40

def longestName : Nat := 255

def longestPath : Nat := 4095

/-- The names that a link's target puts in place of the link. A slash at the end demands a
directory, as a final dot does. -/
def targetNames (target : String) : List String :=
  let names := ((Text.cut '/' target.toList).filter (· ≠ [])).map String.ofList
  if target.toList.getLast? = some '/' then names ++ ["."] else names

def fromRoot (target : String) : Bool := target.toList.head? = some '/'

/-- Walk the names from a location on, following at most `links` links. -/
def walk (root : Node) (links : Nat) (here : Location) : List String → Except Refusal Location
  | [] => .ok here
  | name :: rest =>
    match root.at? here with
    | some (.directory entries) =>
      if name = "." then walk root links here rest
      else if name = ".." then walk root links here.dropLast rest
      else if longestName < name.utf8ByteSize then .error .nameTooLong
      else match entries.lookup name with
        | none => .error .absent
        | some (.link target) => match links with
          | 0 => .error .tooManyLinks
          | links + 1 =>
            walk root links (if fromRoot target then [] else here) (targetNames target ++ rest)
        | some _ => walk root links (here ++ [name]) rest
    | _ => .error .notDirectory
termination_by names => (links, names.length)

def start (t : FileTree) (p : Path) : Location := if p.isAbsolute then [] else t.current

def hasNul (p : Path) : Bool := p.parts.any fun s => s.toList.contains '\x00'

def tooLong (p : Path) : Bool := longestPath < p.text.utf8ByteSize

def find (t : FileTree) (p : Path) : Except Fault Location :=
  if hasNul p then .error .embeddedNul
  else if tooLong p then .error (.refused .nameTooLong p.text)
  else (walk t.root mostLinks (t.start p) p.parts).mapError (.refused · p.text)

def node? (t : FileTree) (l : Location) : Option Node := t.root.at? l

def isAbsence : Fault → Bool
  | .refused .absent _ | .refused .notDirectory _ | .refused .tooManyLinks _ | .embeddedNul => true
  | _ => false

def leadsTo (t : FileTree) (test : Node → Bool) (p : Path) : Except Fault Bool :=
  match t.find p with
  | .ok l => .ok ((t.node? l).any test)
  | .error e => if isAbsence e then .ok false else .error e

def contains (t : FileTree) (p : Path) : Except Fault Bool := t.leadsTo (fun _ => true) p

def isDirectory (t : FileTree) (p : Path) : Except Fault Bool :=
  t.leadsTo (fun | .directory _ => true | _ => false) p

def entries (t : FileTree) (p : Path) : Except Fault (List (String × Node)) := do
  match t.node? (← t.find p) with
  | some (.directory es) => return es
  | _ => throw (.refused .notDirectory p.text)

def list (t : FileTree) (p : Path) : Except Fault (List String) := do
  if t.unlistable.contains (← t.find p) then throw (.refused .denied p.text)
  return (← t.entries p).map (·.1)

def bytes (t : FileTree) (p : Path) : Except Fault (List UInt8) := do
  match t.node? (← t.find p) with
  | some (.file bs) => return bs
  | _ => throw (.refused .isDirectory p.text)

def contents (t : FileTree) (p : Path) : Except Fault (List UInt8) := do
  if t.unreadable.contains (← t.find p) then throw (.refused .denied p.text)
  t.bytes p

def read (t : FileTree) (p : Path) : Except Fault String := do
  let cs ← (Text.Utf8.decode (← t.contents p)).mapError .undecodable
  return String.ofList (Text.unifyLineEnds cs)

end FileTree

end Splice
