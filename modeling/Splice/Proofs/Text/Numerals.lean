import Mathlib.Data.Nat.Digits.Defs
import Splice.Proofs.Text.Lowered
import Splice.Text.Digit

namespace Splice.Text

variable {c : Char} {ds : List Char} {ns : List Nat}

/-! ### Digits -/

/-- The characters are digits, of any script, with these values. -/
abbrev Digits (ds : List Char) (ns : List Nat) : Prop :=
  List.Forall₂ (fun c n => digitValue? c = some n) ds ns

theorem exists_digits (h : ds.all isDigit = true) : ∃ ns, Digits ds ns := by
  induction ds with
  | nil => exact ⟨[], .nil⟩
  | cons c ds ih =>
      rw [List.all_cons, Bool.and_eq_true] at h
      obtain ⟨n, hn⟩ := Option.isSome_iff_exists.mp h.1
      obtain ⟨ns, hns⟩ := ih h.2
      exact ⟨n :: ns, .cons hn hns⟩

theorem isDigit_of_digits (h : Digits ds ns) : ∀ c ∈ ds, isDigit c = true := by
  induction h with
  | nil => exact fun c hc => absurd hc List.not_mem_nil
  | cons hn _ ih => exact List.forall_mem_cons.mpr ⟨Option.isSome_iff_exists.mpr ⟨_, hn⟩, ih⟩

theorem foldl_digits (h : Digits ds ns) (m : Nat) :
    ds.foldl (fun n c => 10 * n + (digitValue? c).getD 0) m =
      ns.foldl (fun x y => y + 10 * x) m := by
  induction h generalizing m with
  | nil => rfl
  | cons hn _ ih => rw [List.foldl_cons, List.foldl_cons, ih, hn, Option.getD_some, Nat.add_comm]

theorem digitsValue_eq (h : Digits ds ns) : digitsValue ds = Nat.ofDigits 10 ns.reverse := by
  rw [Nat.ofDigits_eq_foldr, List.foldr_reverse]
  exact foldl_digits h 0

theorem lowerShifts_apart :
    lowerShifts.all (fun r => zeros.all fun z => r.last < z || z + 10 ≤ r.first) = true := by
  decide +kernel

theorem isLower_of_isDigit (h : isDigit c = true) : IsLower c := by
  obtain ⟨z, hz, hle, hlt⟩ := isDigit_iff.mp h
  constructor
  · rintro rfl
    exact absurd h (by decide)
  · intro r hr
    have hapart := List.all_eq_true.mp (List.all_eq_true.mp lowerShifts_apart r hr) z hz
    rw [← Bool.not_eq_true]
    intro hholds
    obtain ⟨hfirst, hlast, -⟩ := Shift.spans_of_holds hholds
    simp only [Bool.or_eq_true, decide_eq_true_eq] at hapart
    omega

/-! ### Whole numbers -/

/-- A whole number as it is written: digits behind an optional sign, zeros in front included. The digit at
the end counts once, and each other ten times as much as the one behind it. -/
inductive Numeral : List Char → Int → Prop
  | plain {ds : List Char} {ns : List Nat} (hne : ds ≠ []) (h : Digits ds ns) :
      Numeral ds (Nat.ofDigits 10 ns.reverse : Nat)
  | plus {ds : List Char} {ns : List Nat} (hne : ds ≠ []) (h : Digits ds ns) :
      Numeral ('+' :: ds) (Nat.ofDigits 10 ns.reverse : Nat)
  | minus {ds : List Char} {ns : List Nat} (hne : ds ≠ []) (h : Digits ds ns) :
      Numeral ('-' :: ds) (-(Nat.ofDigits 10 ns.reverse : Nat))

theorem unsigned_cases (s : List Char) :
    (∃ t, s = '-' :: t ∧ unsigned s = (true, t)) ∨ (∃ t, s = '+' :: t ∧ unsigned s = (false, t)) ∨
      unsigned s = (false, s) := by
  unfold unsigned
  split
  · exact .inl ⟨_, rfl, rfl⟩
  · exact .inr (.inl ⟨_, rfl, rfl⟩)
  · exact .inr (.inr rfl)

theorem unsigned_of_isDigit (h : isDigit c = true) (s : List Char) :
    unsigned (c :: s) = (false, c :: s) := by
  unfold unsigned
  split
  · rename_i heq
    cases heq
    cases h
  · rename_i heq
    cases heq
    cases h
  · rfl

end Splice.Text
