namespace Splice

/-- A finite number is the mantissa times two to the exponent. `round` gives the mantissa 53 bits
where the exponent allows it, so that equal numbers other than the zeros are written alike. -/
inductive Double
  | nan
  | infinite (negative : Bool)
  | finite (negative : Bool) (mantissa : Nat) (exponent : Int)
  deriving DecidableEq, Repr

namespace Double

def leastExponent : Int := -1074

def greatestExponent : Int := 971

def zero (negative : Bool) : Double := .finite negative 0 leastExponent

/-- The whole number nearest to `num / den`; a half goes to the even neighbour. -/
def roundDiv (num den : Nat) : Nat :=
  let q := num / den
  let r := num % den
  if 2 * r < den then q
  else if den < 2 * r then q + 1
  else if q % 2 = 0 then q else q + 1

def scaledRound (num den : Nat) (q : Int) : Nat :=
  if 0 ≤ q then roundDiv num (den * Nat.pow 2 q.toNat)
  else roundDiv (num * Nat.pow 2 (-q).toNat) den

def fittingExponent (num den : Nat) : Int :=
  let q : Int := (Nat.log2 num : Int) - Nat.log2 den - 52
  let q := if scaledFloor num den q < Nat.pow 2 52 then q - 1 else q
  max q leastExponent
where
  scaledFloor (num den : Nat) (q : Int) : Nat :=
    if 0 ≤ q then num / (den * Nat.pow 2 q.toNat) else num * Nat.pow 2 (-q).toNat / den

/-- The number nearest to `num / den`; beyond the greatest finite number it is infinite. -/
def round (negative : Bool) (num den : Nat) : Double :=
  if num = 0 then zero negative
  else
    let q := fittingExponent num den
    let m := scaledRound num den q
    let (m, q) := if m = Nat.pow 2 53 then (Nat.pow 2 52, q + 1) else (m, q)
    if greatestExponent < q then .infinite negative else .finite negative m q

/-- The number nearest to `digits` times ten to the `exponent`. Exponents that decide alone are told
apart first, which keeps the powers of ten small. -/
def ofDecimal (negative : Bool) (digits : Nat) (exponent : Int) : Double :=
  if digits = 0 then zero negative
  else if 400 < exponent then .infinite negative
  else if exponent < -400 - (Nat.log2 digits : Int) then zero negative
  else if 0 ≤ exponent then round negative (digits * Nat.pow 10 exponent.toNat) 1
  else round negative digits (Nat.pow 10 (-exponent).toNat)

def ofInt? (i : Int) : Option Double :=
  match round (i < 0) i.natAbs 1 with
  | .finite n m q => some (.finite n m q)
  | _ => none

def whole? : Double → Option Int
  | .finite negative m q =>
    let n := if 0 ≤ q then some (m * Nat.pow 2 q.toNat)
      else if m % Nat.pow 2 (-q).toNat = 0 then some (m / Nat.pow 2 (-q).toNat) else none
    n.map fun (n : Nat) => if negative then -(n : Int) else n
  | _ => none

def isPositive : Double → Bool
  | .nan => false
  | .infinite negative => !negative
  | .finite negative m _ => !negative && 0 < m

def isAtMostZero : Double → Bool
  | .nan => false
  | d => !d.isPositive

/-! ### The fewest digits that read back -/

def magnitude (num den : Nat) : Int :=
  ((Nat.toDigits 10 (num * Nat.pow 10 400 / den)).length : Int) - 401

def liesWithin (closed : Bool) (low high den digits : Nat) (exponent : Int) : Bool :=
  let scale := Nat.pow 10 exponent.natAbs
  let value := if 0 ≤ exponent then digits * scale * den else digits * den
  let low := if 0 ≤ exponent then low else low * scale
  let high := if 0 ≤ exponent then high else high * scale
  if closed then low ≤ value && value ≤ high else low < value && value < high

/-- Of two neighbours on a decimal grid, the one to write for a value whose distance to the lower
is `below` and to the upper `above`; a tie goes to the even one. -/
def nearer (lower below above : Nat) : Nat :=
  if below < above then lower
  else if above < below then lower + 1
  else if lower % 2 = 0 then lower else lower + 1

def onGrid? (within : Nat → Bool) (num den : Nat) (exponent : Int) : Option Nat :=
  let scale := Nat.pow 10 exponent.natAbs
  let num := if 0 ≤ exponent then num else num * scale
  let den := if 0 ≤ exponent then den * scale else den
  let lower := num / den
  match within lower, within (lower + 1) with
  | true, true => some (nearer lower (num % den) (den - num % den))
  | true, false => some lower
  | false, true => some (lower + 1)
  | false, false => none

/-- The digits and the exponent of the shortest decimal that reads back as the positive number
`mantissa` times two to the `exponent`, and of those the nearest. -/
def shortest (mantissa : Nat) (exponent : Int) : Nat × Int :=
  let ulp := Nat.pow 2 exponent.toNat
  let den := Nat.pow 2 (-exponent).toNat
  let num := mantissa * ulp
  let below := if mantissa = Nat.pow 2 52 ∧ leastExponent < exponent then ulp else 2 * ulp
  let first := magnitude num den
  let grids : List Int := (List.range 17).map fun (n : Nat) => first - n
  let within := liesWithin (mantissa % 2 = 0) (4 * num - below) (4 * num + 2 * ulp) (4 * den)
  (grids.findSome? fun e =>
    (onGrid? (fun d => within d e) num den e).map (·, e)).getD (num / den, 0)

/-! ### The text of a number -/

structure Layout where
  least : Int
  greatest : Int
  /-- The least number of digits of a written exponent. -/
  exponentDigits : Nat
  deriving DecidableEq, Repr

/-- Numbers from 0.0001 to below 10^16 are written without exponent, others with at least two
exponent digits. -/
def layout : Layout := ⟨-4, 15, 2⟩

def zeros (n : Nat) : List Char := List.replicate n '0'

def positional (digits : List Char) (places : Int) : List Char :=
  if places ≤ 0 then '0' :: '.' :: (zeros (-places).toNat ++ digits)
  else
    let whole := digits.take places.toNat ++ zeros (places.toNat - digits.length)
    let part := digits.drop places.toNat
    whole ++ '.' :: (if part = [] then ['0'] else part)

def scientific (l : Layout) (digits : List Char) (exponent : Int) : List Char :=
  let e := (Nat.toDigits 10 exponent.natAbs)
  let point := match digits.drop 1 with
    | [] => []
    | ds => '.' :: ds
  digits.take 1 ++ point ++ 'e' :: (if exponent < 0 then '-' else '+') ::
    (zeros (l.exponentDigits - e.length) ++ e)

def digitsText (l : Layout) (digits : Nat) (exponent : Int) : List Char :=
  let ds := Nat.toDigits 10 digits
  let first := exponent + ds.length - 1
  if l.least ≤ first ∧ first ≤ l.greatest then positional ds (first + 1)
  else scientific l ds first

def dropZeros : Nat → Nat → Int → Nat × Int
  | 0, d, e => (d, e)
  | n + 1, d, e => if d ≠ 0 ∧ d % 10 = 0 then dropZeros n (d / 10) (e + 1) else (d, e)

def text : Double → String
  | .nan => "nan"
  | .infinite negative => if negative then "-inf" else "inf"
  | .finite negative m q =>
    let ds := if m = 0 then ['0', '.', '0']
      else
        let (d, e) := shortest m q
        let (d, e) := dropZeros 20 d e
        digitsText layout d e
    String.ofList (if negative then '-' :: ds else ds)

end Double

end Splice
