namespace Splice.Text.Utf8

inductive Reason
  | badStart
  | badContinuation
  | endOfData
  deriving DecidableEq, Repr

def Reason.text : Reason → String
  | .badStart => "invalid start byte"
  | .badContinuation => "invalid continuation byte"
  | .endOfData => "unexpected end of data"

/-- Bytes that begin no character, at `position`. -/
structure Invalid where
  position : Nat
  bytes : List UInt8
  reason : Reason
  deriving DecidableEq, Repr

def isTail (b : UInt8) : Bool := 0x80 ≤ b && b ≤ 0xBF

/-- The second byte that may follow the first byte `b`: overlong forms, surrogates and code points
beyond the last are shut out here. -/
def isSecond (b c : UInt8) : Bool :=
  if b = 0xE0 then 0xA0 ≤ c && c ≤ 0xBF
  else if b = 0xED then 0x80 ≤ c && c ≤ 0x9F
  else if b = 0xF0 then 0x90 ≤ c && c ≤ 0xBF
  else if b = 0xF4 then 0x80 ≤ c && c ≤ 0x8F
  else isTail c

def codePoint (first : Nat) (tails : List UInt8) : Char :=
  Char.ofNat (tails.foldl (fun n b => 64 * n + b.toNat % 64) first)

def decodeFrom (position : Nat) : List UInt8 → Except Invalid (List Char)
  | [] => .ok []
  | b :: s =>
    if b < 0x80 then (Char.ofNat b.toNat :: ·) <$> decodeFrom (position + 1) s
    else if b < 0xC2 || 0xF4 < b then .error ⟨position, [b], .badStart⟩
    else match s with
    | [] => .error ⟨position, [b], .endOfData⟩
    | c :: s =>
      if !isSecond b c then .error ⟨position, [b], .badContinuation⟩
      else if b < 0xE0 then
        (codePoint (b.toNat % 32) [c] :: ·) <$> decodeFrom (position + 2) s
      else match s with
      | [] => .error ⟨position, [b, c], .endOfData⟩
      | d :: s =>
        if !isTail d then .error ⟨position, [b, c], .badContinuation⟩
        else if b < 0xF0 then
          (codePoint (b.toNat % 16) [c, d] :: ·) <$> decodeFrom (position + 3) s
        else match s with
        | [] => .error ⟨position, [b, c, d], .endOfData⟩
        | e :: s =>
          if !isTail e then .error ⟨position, [b, c, d], .badContinuation⟩
          else (codePoint (b.toNat % 8) [c, d, e] :: ·) <$> decodeFrom (position + 4) s

def decode (bytes : List UInt8) : Except Invalid (List Char) := decodeFrom 0 bytes

def encode (s : String) : List UInt8 := s.toUTF8.data.toList

end Splice.Text.Utf8
