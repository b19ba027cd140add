import Splice.Text.Lower
import Splice.Words

namespace Splice.Text

theorem lowerAt_of_isSeparator {c : Char} (h : Words.isSeparator c = true)
    (before after : List Char) : lowerAt before c after = [c] := by
  simp only [Words.isSeparator, Bool.or_eq_true, decide_eq_true_eq] at h
  rcases h with ((rfl | rfl) | rfl) | rfl <;> rfl

def isPlainAscii (c : Char) : Bool := c.toNat < 128 && !Words.isSeparator c

/-- Whether a text begins, in any case, with ASCII characters that separate no words is decided by
its first run of characters that separate none. -/
theorem prefix_lowerFrom_append_iff {k run rest : List Char}
    (hk : k.all isPlainAscii = true)
    (hrest : ∀ c ∈ rest.head?, Words.isSeparator c = true) (before before' : List Char) :
    k <+: lowerFrom before (run ++ rest) ↔ k <+: lowerFrom before' run := by
  induction run generalizing k before before' with
  | nil =>
      cases k with
      | nil => simp
      | cons a k =>
          cases rest with
          | nil => simp [lowerFrom]
          | cons c s =>
              have hc : Words.isSeparator c = true := hrest c rfl
              have hne : a ≠ c := by
                rintro rfl
                simp [isPlainAscii, hc] at hk
              simp [lowerFrom, lowerAt_of_isSeparator hc, hne]
  | cons c run ih =>
      cases k with
      | nil => simp
      | cons a k =>
          obtain ⟨ha, hk⟩ : isPlainAscii a = true ∧ k.all isPlainAscii = true := by simpa using hk
          by_cases hsigma : c = 'Σ'
          · -- The two small sigmas are no ASCII characters, so neither side holds.
            have hne (b : Bool) : a ≠ if b then 'ς' else 'σ' := by
              rintro rfl
              cases b <;> exact absurd ha (by decide)
            simp [lowerFrom, lowerAt, hsigma, hne]
          by_cases hdotted : c = 'İ'
          · cases k with
            | nil => simp [lowerFrom, lowerAt, hdotted]
            | cons d k =>
                have hne : d ≠ '\u0307' := by
                  rintro rfl
                  exact absurd hk (by simp [isPlainAscii])
                simp [lowerFrom, lowerAt, hdotted, hne]
          · simp [lowerFrom, lowerAt, hsigma, hdotted, ih hk (c :: before) (c :: before')]

theorem of_ascii {P : Char → Prop} (h : ∀ n < 128, P (Char.ofNat n)) {c : Char}
    (hc : c.toNat < 128) : P c := by
  have hP := h c.toNat hc
  rwa [Char.ofNat_toNat] at hP

theorem lowerAt_of_ascii {c : Char} (h : c.toNat < 128) (before after : List Char) :
    lowerAt before c after = [c.toLower] := by
  have hshift : shiftBy lowerShifts c = c.toLower :=
    of_ascii (P := fun c => shiftBy lowerShifts c = c.toLower) (by decide +kernel) h
  have hsigma : c ≠ 'Σ' := by
    rintro rfl
    exact absurd h (by decide)
  have hdotted : c ≠ 'İ' := by
    rintro rfl
    exact absurd h (by decide)
  rw [lowerAt, if_neg hsigma, if_neg hdotted, hshift]

theorem lowerFrom_of_ascii {s : List Char} (h : ∀ c ∈ s, c.toNat < 128) (before : List Char) :
    lowerFrom before s = s.map Char.toLower := by
  induction s generalizing before with
  | nil => rfl
  | cons c s ih =>
      obtain ⟨hc, hs⟩ := List.forall_mem_cons.mp h
      rw [lowerFrom, lowerAt_of_ascii hc, ih hs]
      rfl

theorem toNat_lt_of_toLower {c : Char} (h : c.toLower.toNat < 128) : c.toNat < 128 := by
  by_cases hupper : c.val ≥ 'A'.val ∧ c.val ≤ 'Z'.val
  · have hle : c.toNat ≤ 'Z'.toNat := UInt32.le_iff_toNat_le.mp hupper.2
    exact Nat.lt_of_le_of_lt hle (by decide)
  · have hsame : c.toLower = c := dif_neg hupper
    rwa [hsame] at h

theorem lower_of_toLower {s : List Char} (h : ∀ c ∈ s.map Char.toLower, c.toNat < 128) :
    lower s = s.map Char.toLower :=
  lowerFrom_of_ascii (fun _ hc => toNat_lt_of_toLower (h _ (List.mem_map_of_mem hc))) []

theorem prefix_lower_append_iff {k run rest : List Char}
    (hk : k.all isPlainAscii = true)
    (hrest : ∀ c ∈ rest.head?, Words.isSeparator c = true) :
    k <+: lower (run ++ rest) ↔ k <+: lower run :=
  prefix_lowerFrom_append_iff hk hrest [] []

end Splice.Text
