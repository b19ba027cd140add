import Splice.Text.Utf8

namespace Splice.Text.Utf8

variable {position n : Nat} {b c d e : UInt8} {s : List UInt8}

theorem toNat_byte (h : n < 256) : (UInt8.ofNat n).toNat = n := by
  rw [UInt8.toNat_ofNat', Nat.mod_eq_of_lt h]

theorem isTail_iff : isTail b = true ↔ 0x80 ≤ b.toNat ∧ b.toNat ≤ 0xBF := by
  simp [isTail, UInt8.le_iff_toNat_le]

theorem isSecond_of_isTail (h : isTail c = true) (hE0 : b.toNat = 0xE0 → 0xA0 ≤ c.toNat)
    (hED : b.toNat = 0xED → c.toNat ≤ 0x9F) (hF0 : b.toNat = 0xF0 → 0x90 ≤ c.toNat)
    (hF4 : b.toNat = 0xF4 → c.toNat ≤ 0x8F) : isSecond b c = true := by
  obtain ⟨hlow, hhigh⟩ := isTail_iff.mp h
  unfold isSecond
  split
  · rename_i hb
    have := hE0 (congrArg UInt8.toNat hb)
    simp [UInt8.le_iff_toNat_le, this, hhigh]
  · split
    · rename_i hb
      have := hED (congrArg UInt8.toNat hb)
      simp [UInt8.le_iff_toNat_le, this, hlow]
    · split
      · rename_i hb
        have := hF0 (congrArg UInt8.toNat hb)
        simp [UInt8.le_iff_toNat_le, this, hhigh]
      · split
        · rename_i hb
          have := hF4 (congrArg UInt8.toNat hb)
          simp [UInt8.le_iff_toNat_le, this, hlow]
        · exact h

theorem decodeFrom_one (h : b.toNat < 0x80) :
    decodeFrom position (b :: s) = (Char.ofNat b.toNat :: ·) <$> decodeFrom (position + 1) s := by
  rw [decodeFrom.eq_def]
  simp only [UInt8.lt_iff_toNat_lt, UInt8.reduceToNat, h, if_true]

theorem decodeFrom_two (hb : 0xC2 ≤ b.toNat ∧ b.toNat < 0xE0) (hc : isSecond b c = true) :
    decodeFrom position (b :: c :: s) =
      (codePoint (b.toNat % 32) [c] :: ·) <$> decodeFrom (position + 2) s := by
  rw [decodeFrom.eq_def]
  simp only [UInt8.lt_iff_toNat_lt, UInt8.reduceToNat, hc]
  rw [if_neg (by omega), if_neg (by simp; omega), if_neg (by decide), if_pos hb.2]

theorem decodeFrom_three (hb : 0xE0 ≤ b.toNat ∧ b.toNat < 0xF0) (hc : isSecond b c = true)
    (hd : isTail d = true) : decodeFrom position (b :: c :: d :: s) =
      (codePoint (b.toNat % 16) [c, d] :: ·) <$> decodeFrom (position + 3) s := by
  rw [decodeFrom.eq_def]
  simp only [UInt8.lt_iff_toNat_lt, UInt8.reduceToNat, hc, hd]
  rw [if_neg (by omega), if_neg (by simp; omega), if_neg (by decide), if_neg (by omega),
    if_neg (by decide), if_pos hb.2]

theorem decodeFrom_four (hb : 0xF0 ≤ b.toNat ∧ b.toNat ≤ 0xF4) (hc : isSecond b c = true)
    (hd : isTail d = true) (he : isTail e = true) :
    decodeFrom position (b :: c :: d :: e :: s) =
      (codePoint (b.toNat % 8) [c, d, e] :: ·) <$> decodeFrom (position + 4) s := by
  rw [decodeFrom.eq_def]
  simp only [UInt8.lt_iff_toNat_lt, UInt8.reduceToNat, hc, hd, he]
  rw [if_neg (by omega), if_neg (by simp; omega), if_neg (by decide), if_neg (by omega),
    if_neg (by decide), if_neg (by omega), if_neg (by decide)]

/-- The byte with the last six bits of a number in it. -/
def tailByte (n : Nat) : UInt8 := UInt8.ofNat (n % 64 + 128)

theorem toNat_tailByte : (tailByte n).toNat = n % 64 + 128 := toNat_byte (by omega)

theorem isTail_tailByte : isTail (tailByte n) = true := by
  rw [isTail_iff, toNat_tailByte]
  omega

theorem codePoint_tailByte (first : Nat) (ns : List Nat) : codePoint first (ns.map tailByte) =
    Char.ofNat (ns.foldl (fun n b => 64 * n + b % 64) first) := by
  rw [codePoint, List.foldl_map]
  congr
  funext n b
  rw [toNat_tailByte]
  omega

theorem decodeFrom_char (position : Nat) (c : Char) (s : List UInt8) :
    ∃ next, decodeFrom position (String.utf8EncodeChar c ++ s) =
      (c :: ·) <$> decodeFrom next s := by
  have hvalid : c.toNat < 0xD800 ∨ 0xDFFF < c.toNat ∧ c.toNat < 0x110000 := c.valid
  have hchar {n : Nat} (hn : n = c.toNat) : Char.ofNat n = c := by rw [hn, Char.ofNat_toNat]
  have hval : c.val.toNat = c.toNat := rfl
  -- One case for each number of bytes, the bounds on `c` being those of the decoder.
  simp only [String.utf8EncodeChar, hval]
  split
  · refine ⟨position + 1, ?_⟩
    have hb : (UInt8.ofNat c.toNat).toNat = c.toNat := toNat_byte (by omega)
    rw [List.singleton_append, decodeFrom_one (by omega), hb, hchar rfl]
  · split
    · refine ⟨position + 2, (decodeFrom_two ?_ ?_).trans ?_⟩
      · rw [toNat_byte (by omega)]
        omega
      · refine isSecond_of_isTail isTail_tailByte ?_ ?_ ?_ ?_
        all_goals
          rw [toNat_byte (by omega)]
          omega
      · rw [toNat_byte (by omega)]
        refine congrArg (fun x => (x :: ·) <$> _)
          ((codePoint_tailByte _ [c.toNat]).trans (hchar ?_))
        simp only [List.foldl_cons, List.foldl_nil]
        omega
    · split
      · refine ⟨position + 3, (decodeFrom_three ?_ ?_ isTail_tailByte).trans ?_⟩
        · rw [toNat_byte (by omega)]
          omega
        · refine isSecond_of_isTail isTail_tailByte ?_ ?_ ?_ ?_
          all_goals
            rw [toNat_byte (by omega), toNat_byte (by omega)]
            omega
        · rw [toNat_byte (by omega)]
          refine congrArg (fun x => (x :: ·) <$> _)
            ((codePoint_tailByte _ [c.toNat / 64, c.toNat]).trans (hchar ?_))
          simp only [List.foldl_cons, List.foldl_nil]
          omega
      · refine ⟨position + 4, (decodeFrom_four ?_ ?_ isTail_tailByte isTail_tailByte).trans ?_⟩
        · rw [toNat_byte (by omega)]
          omega
        · refine isSecond_of_isTail isTail_tailByte ?_ ?_ ?_ ?_
          all_goals
            rw [toNat_byte (by omega), toNat_byte (by omega)]
            omega
        · rw [toNat_byte (by omega)]
          refine congrArg (fun x => (x :: ·) <$> _)
            ((codePoint_tailByte _ [c.toNat / 4096, c.toNat / 64, c.toNat]).trans (hchar ?_))
          simp only [List.foldl_cons, List.foldl_nil]
          omega

theorem decodeFrom_flatMap (position : Nat) (cs : List Char) :
    decodeFrom position (cs.flatMap String.utf8EncodeChar) = .ok cs := by
  induction cs generalizing position with
  | nil => rfl
  | cons c cs ih =>
      obtain ⟨next, hnext⟩ := decodeFrom_char position c (cs.flatMap String.utf8EncodeChar)
      rw [List.flatMap_cons, hnext, ih]
      rfl

theorem decode_encode (s : String) : decode (encode s) = .ok s.toList := by
  have hbytes : encode s = s.toList.flatMap String.utf8EncodeChar := by
    conv => lhs; rw [← String.ofList_toList (s := s)]
    rw [encode, String.toUTF8, String.toByteArray_ofList, List.utf8Encode, List.data_toByteArray]
  rw [hbytes, decode, decodeFrom_flatMap]

end Splice.Text.Utf8
