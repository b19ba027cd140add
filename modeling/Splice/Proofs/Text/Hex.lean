import Splice.Text.Hex

namespace Splice.Text

theorem hexValue?_hexDigit : ∀ n < 16, hexValue? (hexDigit n) = some n := by decide

theorem ofHex?_hex (width n : Nat) : ofHex? (hex width n) = some (n % Nat.pow 16 width) := by
  induction width generalizing n with
  | zero => simp [hex, ofHex?, Nat.pow, Nat.mod_one]
  | succ width ih =>
      have hlast : hexValue? (hexDigit (n % 16)) = some (n % 16) :=
        hexValue?_hexDigit _ (Nat.mod_lt _ (by decide))
      have hfirst : (hex width (n / 16)).foldlM (fun n c => (hexValue? c).map (16 * n + ·)) 0 =
          some (n / 16 % Nat.pow 16 width) := ih (n / 16)
      have hpow : Nat.pow 16 (width + 1) = 16 * Nat.pow 16 width := Nat.mul_comm _ _
      have hsum : 16 * (n / 16 % Nat.pow 16 width) + n % 16 = n % Nat.pow 16 (width + 1) := by
        rw [hpow, Nat.mod_mul, Nat.add_comm]
      rw [hex, ofHex?, List.foldlM_append, hfirst, ← hsum]
      simp [hlast]

theorem length_hex (width n : Nat) : (hex width n).length = width := by
  induction width generalizing n with
  | zero => rfl
  | succ width ih => rw [hex, List.length_append, ih, List.length_singleton]

theorem hex_inj {width n m : Nat} (hn : n < Nat.pow 16 width) (hm : m < Nat.pow 16 width)
    (h : hex width n = hex width m) : n = m := by
  have hread := congrArg ofHex? h
  rw [ofHex?_hex, ofHex?_hex, Nat.mod_eq_of_lt hn, Nat.mod_eq_of_lt hm] at hread
  exact Option.some.inj hread

end Splice.Text
