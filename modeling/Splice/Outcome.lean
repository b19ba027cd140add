import Splice.Fault
import Splice.Log.Record
import Splice.Path

namespace Splice

inductive Number
  | int (i : Int)
  | float (d : Double)
  deriving DecidableEq, Repr

structure Request where
  url : String
  agent : Option String
  timeout : Option Number
  deriving DecidableEq, Repr

/-- Lines that belong together, with the file that they count as: fetched lines count as those of
the including file. -/
structure SourceUnit where
  file : Option Path
  lines : List String
  deriving DecidableEq, Repr

inductive Event
  | request (r : Request)
  | record (r : Log.Record)
  | unit (u : SourceUnit)
  deriving DecidableEq, Repr

structure Outcome (α : Type) where
  trace : List Event
  result : Except Fault α

namespace Outcome

variable {α β γ : Type}

protected def pure (a : α) : Outcome α := ⟨[], .ok a⟩

protected def bind (x : Outcome α) (f : α → Outcome β) : Outcome β :=
  match x.result with
  | .ok a => ⟨x.trace ++ (f a).trace, (f a).result⟩
  | .error e => ⟨x.trace, .error e⟩

instance : Monad Outcome where
  pure := Outcome.pure
  bind := Outcome.bind

def fail (e : Fault) : Outcome α := ⟨[], .error e⟩

def lift (r : Except Fault α) : Outcome α := ⟨[], r⟩

def emit (e : Event) : Outcome Unit := ⟨[e], .ok ()⟩

def log (level : Log.Level) (origin : Log.Origin) (message : String) : Outcome Unit :=
  emit (.record ⟨level, origin.logger, message⟩)

instance : MonadLift (Except Fault) Outcome := ⟨lift⟩

def mapFault (f : Fault → Fault) (x : Outcome α) : Outcome α :=
  ⟨x.trace, x.result.mapError f⟩

def requests (x : Outcome α) : List Request :=
  x.trace.filterMap fun | .request r => some r | _ => none

def records (x : Outcome α) : List Log.Record :=
  x.trace.filterMap fun | .record r => some r | _ => none

def units (x : Outcome α) : List SourceUnit :=
  x.trace.filterMap fun | .unit u => some u | _ => none

def registered (x : Outcome Unit) : Outcome (List SourceUnit) := do
  x
  return x.units

@[simp] theorem pure_eq (a : α) : (pure a : Outcome α) = ⟨[], .ok a⟩ := rfl

theorem bind_ok {x : Outcome α} {a : α} (h : x.result = .ok a) (f : α → Outcome β) :
    x >>= f = ⟨x.trace ++ (f a).trace, (f a).result⟩ := by
  show Outcome.bind x f = _
  simp [Outcome.bind, h]

theorem bind_error {x : Outcome α} {e : Fault} (h : x.result = .error e) (f : α → Outcome β) :
    x >>= f = ⟨x.trace, .error e⟩ := by
  show Outcome.bind x f = _
  simp [Outcome.bind, h]

instance : LawfulMonad Outcome := LawfulMonad.mk' Outcome
  (by
    intro α x
    show Outcome.bind x _ = x
    obtain ⟨t, r⟩ := x
    cases r <;> simp [Outcome.bind, Outcome.pure])
  (by intro α β a f; show Outcome.bind _ f = f a; simp [Outcome.bind])
  (by
    intro α β γ x f g
    show Outcome.bind (Outcome.bind x f) g = Outcome.bind x fun a => Outcome.bind (f a) g
    obtain ⟨t, r⟩ := x
    cases r with
    | error e => simp [Outcome.bind]
    | ok a => cases h : (f a).result <;> simp [Outcome.bind, h, List.append_assoc])

end Outcome

end Splice
