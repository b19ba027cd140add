import Splice.Config.Load

namespace Splice.Config

/-- What a configuration depends on, its files apart. -/
structure Fingerprint where
  root : Path
  settings : List (String × String)
  deriving DecidableEq, Repr

structure Entry where
  key : Fingerprint
  /-- Loads are numbered from the beginning of the session. -/
  serial : Nat
  config : Mapping
  deriving DecidableEq, Repr

structure Session where
  world : World
  entries : List Entry
  next : Nat

namespace Session

def ofWorld (w : World) : Session := ⟨w, [], 0⟩

def canonicalRoot (w : World) : Option Path → Except Fault Path
  | none => w.files.resolve w.current
  | some p => do w.files.resolve (← w.expandHome p)

def fingerprint (w : World) (root : Option Path) : Except Fault Fingerprint := do
  return ⟨← canonicalRoot w root, Override.settings w.bindings⟩

def find? (s : Session) (key : Fingerprint) : Option Entry := s.entries.find? (·.key = key)

def isCached (s : Session) (root : Option Path) : Except Fault Bool := do
  return (s.find? (← fingerprint s.world root)).isSome

/-- The entry for a root, loaded if there is none. A load that fails leaves nothing behind. -/
def get (s : Session) (root : Option Path) (validate : Bool) : Session × Outcome Entry :=
  match fingerprint s.world root with
  | .error e => (s, .fail e)
  | .ok key => match s.find? key with
    | some entry => (s, pure entry)
    | none =>
      let loaded := load s.world key.root validate
      match loaded.result with
      | .error e => (s, ⟨loaded.trace, .error e⟩)
      | .ok m =>
        let entry : Entry := ⟨key, s.next, m⟩
        ({ s with entries := s.entries ++ [entry], next := s.next + 1 }, ⟨loaded.trace, .ok entry⟩)

def clear (s : Session) : Session := { s with entries := [] }

end Session

end Splice.Config
