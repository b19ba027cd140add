import Splice.FileTree.Canonical
import Splice.Remote
import Splice.Text.Lower

namespace Splice.Include

def isRemote (source : String) : Bool := "https://".toList.isPrefixOf source.toList

/-- The path of a local target: always below the directory of the including file. -/
def target (parent : Path) (source : String) : Path := parent.parent.nest (.ofText source)

def readLines (t : FileTree) (p : Path) : Except Fault (List String) :=
  match t.read p with
  | .ok text => .ok (Text.linesOfFile text)
  | .error .embeddedNul => .error .embeddedNul
  | .error e => .error (.failed p.text e)

def inOrder (names : List String) : List String := names.mergeSort fun a b => a ≤ b

variable {m : Type → Type} [Monad m]

def forEach (names : List String) (step : String → m Unit) : m Unit :=
  match names with
  | [] => pure ()
  | name :: rest => do
    step name
    forEach rest step

variable [MonadLiftT (Except Fault) m] [MonadLiftT Outcome m]

/-- Find the files at and below a path, with directories nested in one another at most `depth`
times. A directory that may not be listed has none, with a warning. -/
def searchWithin (look : m FileTree) (found : Path → List String → m Unit) : Nat → Path → m Unit
  | 0, _ => liftM (Outcome.fail .tooDeep : Outcome Unit)
  | depth + 1, p => do
    -- What was found before may have left records, which may be in the files by now.
    let t ← look
    if ← t.isDirectory p then
      match t.list p with
      | .ok names =>
        forEach (inOrder names) fun name => searchWithin look found depth (p.child name)
      | .error e =>
        Outcome.log .warning .includes ("Skipping include directory " ++ p.text ++ ": " ++ e.message)
    else found p (← readLines t p)

def collectWithin (t : FileTree) : Nat → Path → Outcome Unit :=
  searchWithin (pure t) fun p lines => .emit (.unit ⟨some p, lines⟩)

end Splice.Include

namespace Splice.Node

mutual
def depth : Node → Nat
  | .file _ => 0
  | .link _ => 0
  | .directory es => depthOf es + 1

def depthOf : List (String × Node) → Nat
  | [] => 0
  | (_, n) :: es => max n.depth (depthOf es)
end

end Splice.Node

namespace Splice.Include

/-- Every directory on the way down either lies deeper in the tree than the one before, or is
entered by one of the links that a path may follow. -/
def depthBound (t : FileTree) : Nat := (FileTree.mostLinks + 2) * (t.root.depth + 1)

def collect (t : FileTree) (p : Path) : Outcome Unit := collectWithin t (depthBound t) p

def register (p : Path) (lines : List String) : Outcome Unit := do
  .log .debug .includes ("Registering " ++ toString lines.length ++ " lines from " ++ p.text)
  .emit (.unit ⟨some p, lines⟩)

variable {m : Type → Type} [Monad m] [MonadLiftT (Except Fault) m] [MonadLiftT Outcome m]

/-- Resolve a target in the files that `look` shows, and register every unit it leads to. Without an
including file only addresses lead anywhere. -/
def resolveIn (look : m FileTree) (fetch : Remote.Fetcher) (parent : Option Path)
    (source : String) : m Unit :=
  if isRemote source then do
    let lines := Text.linesOfBody (← (fetch source).mapFault (Remote.explain source))
    Outcome.log .debug .includes ("Registering " ++ toString lines.length ++ " remote lines from " ++
      source ++ " as " ++ (parent.map Path.text).getD "None")
    Outcome.emit (.unit ⟨parent, lines⟩)
  else match parent with
  | none => Outcome.log .debug .includes ("Ignoring local include " ++ Text.quoted source ++
      ": no file is being parsed")
  | some parent => do
    let path := target parent source
    let t ← look
    if ← t.contains path then
      searchWithin look (fun p lines => register p lines) (depthBound t) path
    else
      Outcome.fail (.notFound source (FileTree.pathTo (← t.canonical path)).text)

def parseIn (look : m FileTree) (fetch : Remote.Fetcher) (parent : Option Path) (words : Words) :
    m Unit :=
  match words.toList with
  | _ :: _ :: _ :: _ => Outcome.fail .tooManyWords
  | [_, source] => resolveIn look fetch parent source
  | _ => Outcome.fail .missingTarget

def resolve (t : FileTree) (fetch : Remote.Fetcher) (parent : Option Path) (source : String) :
    Outcome Unit := resolveIn (pure t) fetch parent source

def parse (t : FileTree) (fetch : Remote.Fetcher) (parent : Option Path) (words : Words) :
    Outcome Unit := parseIn (pure t) fetch parent words

end Splice.Include
