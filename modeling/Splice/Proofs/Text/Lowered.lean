import Splice.Text.Lower

namespace Splice.Text

namespace Shift

variable {s r : Shift} {c : Char} {n : Nat}

def spans (s : Shift) (n : Nat) : Prop :=
  s.first ≤ n ∧ n ≤ s.last ∧ (s.step = 2 → (n - s.first) % 2 = 0)

/-- Where the code points of a row move to. -/
def target (s : Shift) : Shift :=
  ⟨(s.first + s.distance).toNat, (s.last + s.distance).toNat,
    if s.first = s.last then 2 else s.step, 0⟩

/-- All of the row moves to code points. -/
def fits (s : Shift) : Bool :=
  0 ≤ s.first + s.distance && (s.last + s.distance < 0xD800 ||
    0xDFFF < s.first + s.distance && s.last + s.distance < 0x110000)

/-- No code point is in both rows: they lie apart, or one has the even and the other the odd ones. -/
def disjoint (s r : Shift) : Bool :=
  Nat.blt s.last r.first || Nat.blt r.last s.first ||
    (Nat.beq r.step 2 && Nat.beq s.step 2 && Nat.beq ((s.first + r.first) % 2) 1)

theorem spans_of_holds (h : s.holds c = true) : s.spans c.toNat := by
  simp only [holds, Bool.and_eq_true, decide_eq_true_eq, beq_iff_eq] at h
  refine ⟨h.1.1, h.1.2, fun hstep => ?_⟩
  rw [← hstep]
  exact h.2

theorem not_spans_of_disjoint (h : s.disjoint r = true) (hs : s.spans n) : ¬ r.spans n := by
  rintro ⟨hfirst, hlast, heven⟩
  obtain ⟨hfirst', hlast', heven'⟩ := hs
  simp only [disjoint, Bool.or_eq_true, Bool.and_eq_true, Nat.blt_eq, Nat.beq_eq] at h
  rcases h with (h | h) | ⟨⟨hr, hs⟩, h⟩
  · omega
  · omega
  · have := heven hr
    have := heven' hs
    omega

theorem toNat_move (hfits : s.fits = true) (h : s.spans c.toNat) :
    ((s.move c).toNat : Int) = c.toNat + s.distance := by
  obtain ⟨hfirst, hlast, -⟩ := h
  simp only [fits, Bool.and_eq_true, Bool.or_eq_true, decide_eq_true_eq] at hfits
  have hvalid : (c.toNat + s.distance).toNat.isValidChar := by
    unfold Nat.isValidChar
    omega
  have hmove : (s.move c).toNat = (c.toNat + s.distance).toNat := by
    rw [move, Char.ofNat, dif_pos hvalid]
    rfl
  omega

theorem spans_target (hfits : s.fits = true) (h : s.spans c.toNat) :
    s.target.spans (s.move c).toNat := by
  have hmove := toNat_move hfits h
  obtain ⟨hfirst, hlast, heven⟩ := h
  simp only [fits, Bool.and_eq_true, Bool.or_eq_true, decide_eq_true_eq] at hfits
  refine ⟨?_, ?_, ?_⟩
  · simp only [target]; omega
  · simp only [target]; omega
  · intro hstep
    simp only [target] at hstep ⊢
    split at hstep
    · omega
    · have := heven hstep
      omega

end Shift

/-! ### Lower case twice -/

/-- The capital I with a dot, which has no row. -/
def dotted : Shift := ⟨0x130, 0x130, 1, 0⟩

theorem fits_lowerShifts : lowerShifts.all Shift.fits = true := by
  decide +kernel

/-- No row moves to where another one, or itself, would move on. -/
theorem disjoint_lowerShifts :
    (lowerShifts.map Shift.target).all (fun s => (dotted :: lowerShifts).all s.disjoint) = true := by
  decide +kernel

/-- The character is its own lower case. -/
def IsLower (c : Char) : Prop := c ≠ 'İ' ∧ ∀ s ∈ lowerShifts, s.holds c = false

theorem isLower_shiftBy {c : Char} (h : c ≠ 'İ') : IsLower (shiftBy lowerShifts c) := by
  unfold shiftBy
  cases hrow : lowerShifts.find? (·.holds c) with
  | none => exact ⟨h, fun s hs => by simpa using List.find?_eq_none.mp hrow s hs⟩
  | some s =>
      have hmem := List.mem_of_find?_eq_some hrow
      have hholds : s.holds c = true := List.find?_some (p := fun s => Shift.holds s c) hrow
      have hspans := s.spans_target (List.all_eq_true.mp fits_lowerShifts s hmem)
        (Shift.spans_of_holds hholds)
      have hclear := List.all_eq_true.mp (List.all_eq_true.mp disjoint_lowerShifts s.target
        (List.mem_map_of_mem hmem))
      constructor
      · intro hdotted
        dsimp only at hdotted
        rw [hdotted] at hspans
        exact Shift.not_spans_of_disjoint (hclear dotted List.mem_cons_self) hspans
          ⟨by decide, by decide, fun hstep => absurd hstep (by decide)⟩
      · intro r hr
        rw [← Bool.not_eq_true]
        intro hholds
        exact Shift.not_spans_of_disjoint (hclear r (List.mem_cons_of_mem _ hr)) hspans
          (Shift.spans_of_holds hholds)

theorem isLower_lowerAt {before after : List Char} {c d : Char} (h : d ∈ lowerAt before c after) :
    IsLower d := by
  unfold lowerAt at h
  split at h
  · obtain rfl := List.mem_singleton.mp h
    split <;> exact ⟨by decide, by decide +kernel⟩
  · split at h
    · simp only [List.mem_cons, List.not_mem_nil, or_false] at h
      rcases h with rfl | rfl <;> exact ⟨by decide, by decide +kernel⟩
    · obtain rfl := List.mem_singleton.mp h
      exact isLower_shiftBy ‹_›

theorem isLower_of_mem_lowerFrom {before s : List Char} {c : Char} (h : c ∈ lowerFrom before s) :
    IsLower c := by
  induction s generalizing before with
  | nil => cases h
  | cons d s ih =>
      rcases List.mem_append.mp h with h | h
      · exact isLower_lowerAt h
      · exact ih h

theorem lowerAt_of_isLower {c : Char} (h : IsLower c) (before after : List Char) :
    lowerAt before c after = [c] := by
  have hrow : lowerShifts.find? (·.holds c) = none := by
    rw [List.find?_eq_none]
    exact fun s hs => by simp [h.2 s hs]
  have hsigma : c ≠ 'Σ' := by
    rintro rfl
    exact absurd hrow (by decide +kernel)
  rw [lowerAt, if_neg hsigma, if_neg h.1, shiftBy, hrow]

theorem lowerFrom_of_isLower {s : List Char} (h : ∀ c ∈ s, IsLower c) (before : List Char) :
    lowerFrom before s = s := by
  induction s generalizing before with
  | nil => rfl
  | cons c s ih =>
      obtain ⟨hc, hs⟩ := List.forall_mem_cons.mp h
      rw [lowerFrom, lowerAt_of_isLower hc, ih hs]
      rfl

theorem lower_lower (s : List Char) : lower (lower s) = lower s :=
  lowerFrom_of_isLower (fun _ hc => isLower_of_mem_lowerFrom hc) []

end Splice.Text
