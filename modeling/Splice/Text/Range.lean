namespace Splice.Text

/-- A class of characters: the code points of its members, as closed ranges. -/
abbrev Ranges := List (Nat × Nat)

def Ranges.holds (table : Ranges) (c : Char) : Bool :=
  table.any fun r => r.1 ≤ c.toNat && c.toNat ≤ r.2

theorem Ranges.holds_iff {table : Ranges} {c : Char} :
    table.holds c = true ↔ ∃ r ∈ table, r.1 ≤ c.toNat ∧ c.toNat ≤ r.2 := by
  simp [Ranges.holds]

end Splice.Text
