namespace Splice.Text

/-- The code points `first`, `first + step`, up to `last`, which move by `distance`. -/
structure Shift where
  first : Nat
  last : Nat
  step : Nat
  distance : Int
  deriving DecidableEq, Repr

def Shift.holds (s : Shift) (c : Char) : Bool :=
  s.first ≤ c.toNat && c.toNat ≤ s.last && (c.toNat - s.first) % s.step == 0

def Shift.move (s : Shift) (c : Char) : Char := Char.ofNat (c.toNat + s.distance).toNat

def shiftBy (table : List Shift) (c : Char) : Char :=
  match table.find? (·.holds c) with
  | some s => s.move c
  | none => c

end Splice.Text
