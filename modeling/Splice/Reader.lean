import Splice.Directive
import Splice.Include

namespace Splice

structure Line where
  origin : Option Path
  number : Nat
  text : String
  deriving DecidableEq, Repr

namespace Reader

section

variable {m : Type → Type} [Monad m]

def expandUnits (expand : SourceUnit → m (List Line)) : List SourceUnit → m (List Line)
  | [] => pure []
  | u :: us => do return (← expand u) ++ (← expandUnits expand us)

variable [MonadLiftT (Except Fault) m] (find : Option Path → Words → m (List SourceUnit))

def spliceLine (expand : SourceUnit → m (List Line)) (origin : Option Path) (number : Nat)
    (text : String) : m (List Line) := do
  match ← Directive.ofLine? text with
  | none => return [⟨origin, number, text⟩]
  | some words => expandUnits expand (← find origin words)

def spliceLines (expand : SourceUnit → m (List Line)) (origin : Option Path) (number : Nat) :
    List String → m (List Line)
  | [] => pure []
  | text :: rest => do
    return (← spliceLine find expand origin number text) ++
      (← spliceLines expand origin (number + 1) rest)

/-- Expand a unit with inclusions nested in one another at most `budget` times. -/
def spliceWithin [MonadLiftT Outcome m] : Nat → SourceUnit → m (List Line)
  | 0, _ => liftM (Outcome.fail .tooDeep : Outcome (List Line))
  | budget + 1, u => spliceLines find (spliceWithin budget) u.file 1 u.lines

end

def deepest : Nat := 900

def spliceFile {m : Type → Type} [Monad m] [MonadLiftT (Except Fault) m] [MonadLiftT Outcome m]
    (look : m FileTree) (find : Option Path → Words → m (List SourceUnit)) (p : Path) :
    m (List Line) := do
  spliceWithin find deepest ⟨some p, ← Include.readLines (← look) p⟩

/-! ### Where nothing changes meanwhile -/

abbrev Resolver := Option Path → Words → Outcome Unit

variable (resolve : Resolver)

def Resolver.find (origin : Option Path) (words : Words) : Outcome (List SourceUnit) :=
  (resolve origin words).registered

def expandLine (expand : SourceUnit → Outcome (List Line)) (origin : Option Path) (number : Nat)
    (text : String) : Outcome (List Line) :=
  spliceLine resolve.find expand origin number text

def expandLines (expand : SourceUnit → Outcome (List Line)) (origin : Option Path) (number : Nat)
    (lines : List String) : Outcome (List Line) :=
  spliceLines resolve.find expand origin number lines

def expandWithin (budget : Nat) (u : SourceUnit) : Outcome (List Line) :=
  spliceWithin resolve.find budget u

def expand (t : FileTree) (fetch : Remote.Fetcher) (origin : Option Path)
    (lines : List String) : Outcome (List Line) :=
  expandWithin (Include.parse t fetch) deepest ⟨origin, lines⟩

def expandFile (t : FileTree) (fetch : Remote.Fetcher) (p : Path) : Outcome (List Line) :=
  spliceFile (pure t) (Resolver.find (Include.parse t fetch)) p

end Reader

end Splice
