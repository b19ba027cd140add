import Mathlib.Algebra.Group.Nat.Defs
import Splice.Double

namespace Splice.Double

variable {n num den k : Nat} {i : Int}

/-! ### Rounded quotients -/

theorem div_le_roundDiv (num den : Nat) : num / den ≤ roundDiv num den := by
  simp only [roundDiv]
  split
  · exact Nat.le_refl _
  · split
    · exact Nat.le_succ _
    · split
      · exact Nat.le_refl _
      · exact Nat.le_succ _

theorem roundDiv_le (num den : Nat) : roundDiv num den ≤ num / den + 1 := by
  simp only [roundDiv]
  split
  · exact Nat.le_succ _
  · split
    · exact Nat.le_refl _
    · split
      · exact Nat.le_succ _
      · exact Nat.le_refl _

theorem roundDiv_odd (hodd : num / den % 2 = 1) :
    roundDiv num den = num / den + 1 ↔ den ≤ 2 * (num % den) := by
  simp only [roundDiv]
  split
  · omega
  · split
    · omega
    · rw [if_neg (by omega)]
      omega

/-! ### Whole numbers -/

theorem scaledFloor_le (num den : Nat) (q : Int) :
    fittingExponent.scaledFloor num den q ≤ scaledRound num den q := by
  rw [fittingExponent.scaledFloor, scaledRound]
  split
  · exact div_le_roundDiv _ _
  · exact div_le_roundDiv _ _

theorem le_scaledFloor_one (h : n ≠ 0) :
    2 ^ 52 ≤ fittingExponent.scaledFloor n 1 ((Nat.log2 n : Int) - 52) := by
  have hle : 2 ^ Nat.log2 n ≤ n := Nat.log2_self_le h
  rw [fittingExponent.scaledFloor]
  split
  · obtain ⟨k, hk⟩ : ∃ k, Nat.log2 n = k + 52 := ⟨Nat.log2 n - 52, by omega⟩
    have hexponent : ((Nat.log2 n : Int) - 52).toNat = k := by omega
    rw [hexponent, Nat.one_mul, Nat.pow_eq, Nat.le_div_iff_mul_le (Nat.two_pow_pos k),
      ← Nat.pow_add, Nat.add_comm, ← hk]
    exact hle
  · obtain ⟨k, hk⟩ : ∃ k, Nat.log2 n + k = 52 := ⟨52 - Nat.log2 n, by omega⟩
    have hexponent : (-((Nat.log2 n : Int) - 52)).toNat = k := by omega
    rw [hexponent, Nat.div_one, Nat.pow_eq, ← hk, Nat.pow_add]
    exact Nat.mul_le_mul_right _ hle

theorem fittingExponent_one (h : n ≠ 0) : fittingExponent n 1 = (Nat.log2 n : Int) - 52 := by
  have hlog : Nat.log2 1 = 0 := by decide
  have hfloor := Nat.not_lt.mpr (le_scaledFloor_one h)
  simp only [fittingExponent, hlog, Int.natCast_zero, Int.sub_zero, Nat.pow_eq, if_neg hfloor]
  simp only [leastExponent]
  omega

theorem scaledRound_eq_carry_iff (h : Nat.log2 n = k + 53) :
    scaledRound n 1 (k + 1 : Nat) = 2 ^ 53 ↔ (2 ^ 54 - 1) * 2 ^ k ≤ n := by
  obtain ⟨unit, hunit⟩ : ∃ unit, 2 ^ k = unit := ⟨_, rfl⟩
  have hpos : 0 < unit := hunit ▸ Nat.two_pow_pos k
  have hdouble : 2 ^ (k + 1) = 2 * unit := hunit ▸ Nat.pow_succ'
  have hlt : n < 2 ^ 54 * unit := by
    rw [← hunit, ← Nat.pow_add, Nat.add_comm 54 k]
    have hself : n < 2 ^ (Nat.log2 n + 1) := Nat.lt_log2_self
    rwa [h] at hself
  have hround : scaledRound n 1 (k + 1 : Nat) = roundDiv n (2 * unit) := by
    rw [scaledRound, if_pos (Int.natCast_nonneg _), Nat.one_mul, Int.toNat_natCast, Nat.pow_eq,
      hdouble]
  rw [hround, hunit]
  have hmod := Nat.mod_lt n (show 0 < 2 * unit by omega)
  have hdiv := Nat.div_add_mod n (2 * unit)
  have hupper := roundDiv_le n (2 * unit)
  have hquotient : n / (2 * unit) < 2 ^ 53 := (Nat.div_lt_iff_lt_mul (by omega)).mpr (by omega)
  -- A smaller mantissa has room for the unit that rounding may add.
  rcases Nat.lt_or_ge (n / (2 * unit)) (2 ^ 53 - 1) with hsmall | hlarge
  · have hbelow : n < (2 ^ 53 - 1) * (2 * unit) := (Nat.div_lt_iff_lt_mul (by omega)).mp hsmall
    omega
  · have heq : n / (2 * unit) = 2 ^ 53 - 1 := by omega
    -- The largest mantissa is odd, so it is rounded up from its half on.
    have hones : (2 ^ 53 - 1) % 2 = 1 := by decide
    have hodd : roundDiv n (2 * unit) = n / (2 * unit) + 1 ↔ 2 * unit ≤ 2 * (n % (2 * unit)) :=
      roundDiv_odd (by rw [heq, hones])
    rw [heq] at hodd hdiv
    omega

/-- A number of the greatest length is too large if it is rounded up, a longer one in any case. -/
theorem carry_le_iff (hn : n ≠ 0) : (2 ^ 54 - 1) * 2 ^ k ≤ n ↔
    k + 53 < Nat.log2 n ∨ (Nat.log2 n = k + 53 ∧ scaledRound n 1 (k + 1 : Nat) = 2 ^ 53) := by
  rcases Nat.lt_trichotomy (Nat.log2 n) (k + 53) with h | h | h
  · have hlt : n < 2 ^ 53 * 2 ^ k := by
      rw [← Nat.pow_add, Nat.add_comm]
      exact (Nat.log2_lt hn).mp h
    omega
  · rw [scaledRound_eq_carry_iff h]
    omega
  · have hle : 2 ^ 54 * 2 ^ k ≤ n := by
      rw [← Nat.pow_add, Nat.add_comm]
      exact Nat.le_trans (Nat.pow_le_pow_right (by decide) h) (Nat.log2_self_le hn)
    omega

/-- Half a unit above the greatest finite number. -/
def leastOverflow : Nat := (2 ^ 54 - 1) * 2 ^ (greatestExponent - 1).toNat

theorem le_leastOverflow : 2 ^ 54 - 1 ≤ leastOverflow :=
  Nat.le_mul_of_pos_right _ (Nat.two_pow_pos _)

theorem leastOverflow_le : leastOverflow ≤ Nat.pow 10 309 := by
  -- 2 ^ 93 is just below 10 ^ 28, and eleven of them come near enough.
  obtain ⟨k, hk⟩ : ∃ k, k = 11 := ⟨_, rfl⟩
  have hexponent : 54 + (greatestExponent - 1).toNat = 93 * k + 1 := by rw [hk]; rfl
  have hdecimal : 309 = 28 * k + 1 := by rw [hk]
  rw [hdecimal]
  calc leastOverflow ≤ 2 ^ 54 * 2 ^ (greatestExponent - 1).toNat :=
        Nat.mul_le_mul_right _ (by decide)
    _ = 2 * (2 ^ 93) ^ k := by rw [← Nat.pow_add, hexponent, Nat.pow_succ', Nat.pow_mul]
    _ ≤ 10 * (10 ^ 28) ^ k := Nat.mul_le_mul (by decide) (Nat.pow_le_pow_left (by decide) k)
    _ = Nat.pow 10 (28 * k + 1) := by rw [← Nat.pow_mul, ← Nat.pow_succ', Nat.pow_eq]

/-- A whole number has a mantissa, and its exponent is too great from the least overflow on. -/
theorem round_whole (negative : Bool) (hn : n ≠ 0) : ∃ m q, 0 < m ∧
    round negative n 1 =
      (if greatestExponent < q then .infinite negative else .finite negative m q) ∧
    (greatestExponent < q ↔ leastOverflow ≤ n) := by
  have hmantissa : 2 ^ 52 ≤ scaledRound n 1 ((Nat.log2 n : Int) - 52) :=
    Nat.le_trans (le_scaledFloor_one hn) (scaledFloor_le _ _ _)
  obtain ⟨k, hk⟩ : ∃ k, k = (greatestExponent - 1).toNat := ⟨_, rfl⟩
  have hgreatestExponent : greatestExponent = k + 1 := by rw [hk]; rfl
  have hgreatest (hlog : Nat.log2 n = k + 53) :
      scaledRound n 1 (k + 1 : Nat) = scaledRound n 1 ((Nat.log2 n : Int) - 52) := by
    congr
    omega
  rw [round, if_neg hn, fittingExponent_one hn, leastOverflow, ← hk, carry_le_iff hn]
  by_cases h : scaledRound n 1 ((Nat.log2 n : Int) - 52) = 2 ^ 53
  · refine ⟨2 ^ 52, (Nat.log2 n : Int) - 52 + 1, by decide, ?_, ?_⟩
    · simp only [Nat.pow_eq, if_pos h]
    · rw [h] at hgreatest
      omega
  · refine ⟨scaledRound n 1 ((Nat.log2 n : Int) - 52), (Nat.log2 n : Int) - 52, by omega, ?_, ?_⟩
    · simp only [Nat.pow_eq, if_neg h]
    · have hno (hlog : Nat.log2 n = k + 53) : scaledRound n 1 (k + 1 : Nat) ≠ 2 ^ 53 := by
        rw [hgreatest hlog]
        exact h
      omega

theorem ofInt?_of_pos (h : 0 < i) : if (leastOverflow : Int) ≤ i then ofInt? i = none
    else ∃ d, ofInt? i = some d ∧ d.isPositive = true := by
  obtain ⟨m, q, hm, hround, hq⟩ := round_whole (decide (i < 0)) (n := i.natAbs) (by omega)
  have hlarge : (leastOverflow : Int) ≤ i ↔ greatestExponent < q := by
    rw [hq]
    omega
  rw [ofInt?, hround]
  split
  · rename_i hle
    rw [if_pos (hlarge.mp hle)]
  · rename_i hle
    rw [if_neg (mt hlarge.mpr hle)]
    refine ⟨_, rfl, ?_⟩
    have hsign : decide (i < 0) = false := decide_eq_false (by omega)
    simp [isPositive, hm, hsign]

end Splice.Double
