import Mathlib.Data.List.TakeDrop
import Splice.Json.Reader
import Splice.Json.Writer
import Splice.Proofs.Text.Hex

namespace Splice.Json

variable {α β : Type} {limit : Option Nat} {c : Char} {s rest : List Char} {ps : List Piece}

theorem Reading.as_ok (f : α → β) (a : α) (s : List Char) :
    Reading.as f (.ok (a, s)) = .ok (f a, s) := rfl

theorem Reading.as_as {γ : Type} (f : α → β) (g : β → γ) (r : Reading α) :
    (r.as f).as g = r.as fun a => g (f a) := by
  cases r <;> rfl

/-! ### Texts -/

/-- How a character is written, and the pieces that are read from it. -/
inductive Written (c : Char) : List Char → List Piece → Prop
  | plain (printable : ' ' ≤ c) (quote : c ≠ '"') (slash : c ≠ '\\') : Written c [c] [.char c]
  | named (e : Char) (name : simpleEscape? e = some c) : Written c ['\\', e] [.char c]
  | unit (size : c.toNat < 0x10000) : Written c (writeUnit c.toNat) [.unit c.toNat]
  | pair (size : 0x10000 ≤ c.toNat) :
      Written c (writeUnit (0xD800 + (c.toNat - 0x10000) / 0x400) ++
          writeUnit (0xDC00 + (c.toNat - 0x10000) % 0x400))
        [.unit (0xD800 + (c.toNat - 0x10000) / 0x400), .unit (0xDC00 + (c.toNat - 0x10000) % 0x400)]

theorem written_writeChar (c : Char) : ∃ ps, Written c (writeChar c) ps := by
  unfold writeChar
  split
  · exact ⟨_, .named '"' (by subst c; rfl)⟩
  split
  · exact ⟨_, .named '\\' (by subst c; rfl)⟩
  split
  · exact ⟨_, .named 'n' (by subst c; rfl)⟩
  split
  · exact ⟨_, .named 'r' (by subst c; rfl)⟩
  split
  · exact ⟨_, .named 't' (by subst c; rfl)⟩
  split
  · exact ⟨_, .named 'f' (by subst c; rfl)⟩
  split
  · exact ⟨_, .named 'b' (by subst c; rfl)⟩
  split
  · rename_i hquote hslash _ _ _ _ _ hprintable
    exact ⟨_, .plain hprintable.1 hquote hslash⟩
  split
  · exact ⟨_, .unit ‹_›⟩
  · exact ⟨_, .pair (by omega)⟩

theorem readPieces_writeUnit {n : Nat} (h : n < 0x10000) (s : List Char) :
    readPieces (writeUnit n ++ s) = (readPieces s).as (.unit n :: ·) := by
  have hread : Text.ofHex? (Text.hex 4 n) = some n := by
    have hbound : n < Nat.pow 16 4 := h
    rw [Text.ofHex?_hex, Nat.mod_eq_of_lt hbound]
  obtain ⟨x, y, z, w, hhex⟩ : ∃ x y z w, Text.hex 4 n = [x, y, z, w] := ⟨_, _, _, _, rfl⟩
  rw [hhex] at hread
  rw [writeUnit, hhex, List.cons_append, List.cons_append]
  show readPieces ('\\' :: 'u' :: x :: y :: z :: w :: s) = _
  rw [readPieces, hread]

/-- Characters stay below the last code point, and out of the range of halves. -/
theorem size_of_char (c : Char) : c.toNat < 0xD800 ∨ 0xDFFF < c.toNat ∧ c.toNat < 0x110000 :=
  c.valid

theorem named_ne (e : Char) (h : simpleEscape? e = some c) : e ≠ 'u' := by
  rintro rfl
  cases h

theorem Written.readPieces_eq {t : List Char} (h : Written c t ps) (s : List Char) :
    readPieces (t ++ s) = (readPieces s).as (ps ++ ·) := by
  cases h with
  | plain printable quote slash =>
      have hc : ¬c < ' ' := Char.not_lt.mpr printable
      rw [List.singleton_append, readPieces, if_neg hc]
      · rfl
      · exact quote
      · exact fun _ _ _ _ _ hc => absurd hc slash
      · exact fun _ _ hc => absurd hc slash
  | named e name =>
      rw [List.cons_append, List.singleton_append, readPieces, name]
      · rfl
      · exact fun _ _ _ _ _ he => absurd he (named_ne e name)
  | unit size => exact readPieces_writeUnit size s
  | pair size =>
      have hlast := size_of_char c
      rw [List.append_assoc, readPieces_writeUnit (by omega), readPieces_writeUnit (by omega),
        Reading.as_as]
      rfl

theorem isHighHalf_toNat (c : Char) : isHighHalf c.toNat = false := by
  have hsize := size_of_char c
  simp only [isHighHalf, Bool.and_eq_false_iff, decide_eq_false_iff_not]
  omega

theorem ofUnit_toNat (c : Char) : ofUnit c.toNat = c := by
  have hsize := size_of_char c
  have hlow : isLowHalf c.toNat = false := by
    simp only [isLowHalf, Bool.and_eq_false_iff, decide_eq_false_iff_not]
    omega
  rw [ofUnit, isHighHalf_toNat, hlow]
  exact Char.ofNat_toNat c

theorem ofPair_halves (h : 0x10000 ≤ c.toNat) :
    ofPair (0xD800 + (c.toNat - 0x10000) / 0x400) (0xDC00 + (c.toNat - 0x10000) % 0x400) = c := by
  have hsum : 0x10000 + (0xD800 + (c.toNat - 0x10000) / 0x400 - 0xD800) * 0x400 +
      (0xDC00 + (c.toNat - 0x10000) % 0x400 - 0xDC00) = c.toNat := by omega
  rw [ofPair, hsum]
  exact Char.ofNat_toNat c

theorem joinPieces_unit {n : Nat} (hhigh : isHighHalf n = false) (qs : List Piece) :
    joinPieces (.unit n :: qs) = ofUnit n :: joinPieces qs := by
  cases qs with
  | nil => rfl
  | cons q qs =>
      cases q with
      | char d => rfl
      | unit m =>
          rw [joinPieces, hhigh]
          rfl

theorem joinPieces_pair {n m : Nat} (hhigh : isHighHalf n = true) (hlow : isLowHalf m = true)
    (qs : List Piece) : joinPieces (.unit n :: .unit m :: qs) = ofPair n m :: joinPieces qs := by
  rw [joinPieces, hhigh, hlow]
  rfl

theorem Written.joinPieces_eq {t : List Char} (h : Written c t ps) (qs : List Piece) :
    joinPieces (ps ++ qs) = c :: joinPieces qs := by
  cases h with
  | plain => rfl
  | named => rfl
  | unit size =>
      rw [List.singleton_append, joinPieces_unit (isHighHalf_toNat c), ofUnit_toNat]
  | pair size =>
      have hlast := size_of_char c
      have hhigh : isHighHalf (0xD800 + (c.toNat - 0x10000) / 0x400) = true := by
        simp only [isHighHalf, Bool.and_eq_true, decide_eq_true_eq]
        omega
      have hlow : isLowHalf (0xDC00 + (c.toNat - 0x10000) % 0x400) = true := by
        simp only [isLowHalf, Bool.and_eq_true, decide_eq_true_eq]
        omega
      rw [List.cons_append, List.singleton_append, joinPieces_pair hhigh hlow, ofPair_halves size]

/-- A text is read as it was written, whatever follows its closing quote. -/
theorem readText_writeText (s : String) (rest : List Char) :
    readText (s.toList.flatMap writeChar ++ '"' :: rest) = .ok (s, rest) := by
  have hpieces : ∀ cs : List Char, ∃ ps,
      readPieces (cs.flatMap writeChar ++ '"' :: rest) = .ok (ps, rest) ∧ joinPieces ps = cs := by
    intro cs
    induction cs with
    | nil => exact ⟨[], rfl, rfl⟩
    | cons c cs ih =>
        obtain ⟨qs, hread, hjoin⟩ := ih
        obtain ⟨ps, hwritten⟩ := written_writeChar c
        refine ⟨ps ++ qs, ?_, ?_⟩
        · rw [List.flatMap_cons, List.append_assoc, hwritten.readPieces_eq, hread, Reading.as_ok]
        · rw [hwritten.joinPieces_eq, hjoin]
  obtain ⟨ps, hread, hjoin⟩ := hpieces s.toList
  rw [readText, hread, Reading.as_ok, hjoin, String.ofList_toList]

/-! ### Numbers -/

theorem span_append {p : Char → Bool} (hs : ∀ c ∈ s, p c = true)
    (hrest : ∀ c ∈ rest.head?, p c = false) : (s ++ rest).span p = (s, rest) := by
  rw [List.span_eq_takeWhile_dropWhile, List.takeWhile_append_of_pos hs,
    List.dropWhile_append_of_pos hs]
  cases rest with
  | nil => simp
  | cons c rest => simp [hrest c rfl]

theorem isAsciiDigit_of_mem {n : Nat} (h : c ∈ Nat.toDigits 10 n) : isAsciiDigit c = true :=
  Nat.isDigit_of_mem_toDigits (by decide) (by decide) h

theorem head_toDigits {n : Nat} (h : n ≠ 0) : (Nat.toDigits 10 n).head? ≠ some '0' := by
  induction n using Nat.strongRecOn with
  | ind n ih =>
      by_cases hsmall : n < 10
      · have hdigit : ∀ m < 10, m ≠ 0 → Nat.digitChar m ≠ '0' := by decide
        rw [Nat.toDigits_of_lt_base hsmall]
        exact fun hhead => hdigit n hsmall h (Option.some.inj hhead)
      · have hhead := ih (n / 10) (by omega) (by omega)
        rw [Nat.toDigits_of_base_le (by decide) (by omega), List.head?_append]
        cases hdigits : Nat.toDigits 10 (n / 10) with
        | nil => exact absurd hdigits Nat.toDigits_ne_nil
        | cons c s =>
            rw [hdigits] at hhead
            exact hhead

theorem wholeDigits_toDigits (n : Nat) (hrest : ∀ c ∈ rest.head?, isAsciiDigit c = false) :
    wholeDigits (Nat.toDigits 10 n ++ rest) = (Nat.toDigits 10 n, rest) := by
  by_cases hzero : n = 0
  · rw [hzero]
    rfl
  · have hspan := span_append (fun c hc => isAsciiDigit_of_mem (n := n) hc) hrest
    cases hdigits : Nat.toDigits 10 n with
    | nil => exact absurd hdigits Nat.toDigits_ne_nil
    | cons c s =>
        have hc : c ≠ '0' := by
          have hhead := head_toDigits hzero
          rw [hdigits] at hhead
          exact fun h => hhead (congrArg some h)
        rw [hdigits] at hspan
        rw [List.cons_append, wholeDigits]
        · exact hspan
        · exact fun _ h => hc (List.cons.inj h).1

theorem decimal_toDigits (n : Nat) : decimal (Nat.toDigits 10 n) = n :=
  Nat.ofDigitChars_toDigits (by decide) (by decide)

/-- What may follow a number. -/
def Ends (rest : List Char) : Prop :=
  ∀ c ∈ rest.head?, isAsciiDigit c = false ∧ c ≠ '.' ∧ c ≠ 'e' ∧ c ≠ 'E'

theorem fraction_of_ends (h : Ends rest) : fraction rest = ([], rest) := by
  cases rest with
  | nil => rfl
  | cons c rest =>
      obtain ⟨-, hpoint, -⟩ := h c rfl
      rw [fraction]
      exact fun _ hc => absurd (List.cons.inj hc).1 hpoint

theorem exponent_of_ends (h : Ends rest) : exponent rest = (none, rest) := by
  cases rest with
  | nil => rfl
  | cons c rest =>
      obtain ⟨-, -, hsmall, hcapital⟩ := h c rfl
      rw [exponent, if_neg (not_or.mpr ⟨hsmall, hcapital⟩)]

/-- The number has no more digits than the limit. -/
def FitsIn (limit : Option Nat) (n : Nat) : Prop := ∀ k ∈ limit, (Nat.toDigits 10 n).length ≤ k

theorem readNumber_toDigits (negative : Bool) {n : Nat} (hfits : FitsIn limit n) (h : Ends rest) :
    readNumber limit negative (Nat.toDigits 10 n ++ rest) =
      .ok (.int (if negative then -(n : Int) else n), rest) := by
  have hany : ¬limit.any (· < (Nat.toDigits 10 n).length) = true := by
    intro hany
    obtain ⟨k, hk, hlong⟩ := (Option.any_eq_true _ _).mp hany
    exact absurd (hfits k hk) (Nat.not_le.mpr (of_decide_eq_true hlong))
  rw [readNumber, wholeDigits_toDigits n fun c hc => (h c hc).1]
  cases hdigits : Nat.toDigits 10 n with
  | nil => exact absurd hdigits Nat.toDigits_ne_nil
  | cons c s =>
      simp only [fraction_of_ends h, exponent_of_ends h]
      rw [← hdigits, decimal_toDigits, if_neg hany]
      rfl

theorem ne_of_digit {d : Char} (hc : isAsciiDigit c = true) (hd : isAsciiDigit d = false)
    {t : List Char} : c :: s ≠ d :: t := by
  intro h
  rw [(List.cons.inj h).1, hd] at hc
  cases hc

theorem readScalar_digit (hc : isAsciiDigit c = true) (s : List Char) :
    readScalar limit (c :: s) = readNumber limit false (c :: s) := by
  rw [readScalar]
  all_goals exact fun _ => ne_of_digit hc (by decide)

theorem toList_toString (i : Int) :
    (∃ n : Nat, i = n ∧ (toString i).toList = Nat.toDigits 10 n) ∨
      ∃ n : Nat, i = -(n : Int) ∧ (toString i).toList = '-' :: Nat.toDigits 10 n := by
  cases i with
  | ofNat n => exact .inl ⟨n, rfl, Nat.toList_repr⟩
  | negSucc n =>
      refine .inr ⟨n + 1, rfl, ?_⟩
      show ("-" ++ (n + 1).repr).toList = _
      rw [String.toList_append, Nat.toList_repr]
      rfl

theorem exists_toDigits (n : Nat) : ∃ c t, Nat.toDigits 10 n = c :: t ∧ isAsciiDigit c = true := by
  cases hdigits : Nat.toDigits 10 n with
  | nil => exact absurd hdigits Nat.toDigits_ne_nil
  | cons c t => exact ⟨c, t, rfl, isAsciiDigit_of_mem (hdigits ▸ List.mem_cons_self)⟩

theorem head_toString (i : Int) :
    ∃ c t, (toString i).toList = c :: t ∧ (isAsciiDigit c = true ∨ c = '-') := by
  rcases toList_toString i with ⟨n, -, htext⟩ | ⟨n, -, htext⟩
  · obtain ⟨c, t, hdigits, hc⟩ := exists_toDigits n
    exact ⟨c, t, htext.trans hdigits, .inl hc⟩
  · exact ⟨'-', _, htext, .inr rfl⟩

theorem readScalar_int {i : Int} (hfits : FitsIn limit i.natAbs) (h : Ends rest) :
    readScalar limit ((toString i).toList ++ rest) = .ok (.int i, rest) := by
  rcases toList_toString i with ⟨n, rfl, htext⟩ | ⟨n, rfl, htext⟩
  · have hread := readNumber_toDigits (n := n) false hfits h
    obtain ⟨c, t, hdigits, hc⟩ := exists_toDigits n
    rw [htext]
    rw [hdigits] at hread ⊢
    rw [List.cons_append, readScalar_digit hc]
    exact hread
  · rw [Int.natAbs_neg] at hfits
    have hread := readNumber_toDigits (n := n) true hfits h
    obtain ⟨c, t, hdigits, hc⟩ := exists_toDigits n
    rw [htext]
    rw [hdigits] at hread ⊢
    rw [List.cons_append, List.cons_append, readScalar]
    · exact hread
    · exact fun _ => ne_of_digit hc (by decide)

end Splice.Json
