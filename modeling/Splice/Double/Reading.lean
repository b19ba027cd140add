import Splice.Double.Arithmetic
import Splice.Text.Blank
import Splice.Text.Lower

namespace Splice.Double

/-- Take out the underscores that part two digits. One that stands elsewhere spoils the text. -/
def joined (afterDigit : Bool) : List Char → Option (List Char)
  | [] => some []
  | ['_'] => none
  | '_' :: c :: s => if afterDigit && Text.isDigit c then (c :: ·) <$> joined true s else none
  | c :: s => (c :: ·) <$> joined (Text.isDigit c) s

def exponent? (s : List Char) : Option Int :=
  match Text.unsigned s with
  | (negative, ds) =>
    if ds ≠ [] && ds.all Text.isDigit then some (Text.signed negative (Text.digitsValue ds))
    else none

def magnitude? (s : List Char) : Option Double :=
  let (digits, exponent) := match s.span (· ≠ 'e') with
    | (ds, []) => (ds, some 0)
    | (ds, _ :: e) => (ds, exponent? e)
  let (whole, part) := match digits.span (· ≠ '.') with
    | (whole, []) => (whole, [])
    | (whole, _ :: part) => (whole, part)
  let ds := whole ++ part
  if ds ≠ [] && ds.all Text.isDigit then
    exponent.map fun e => .ofDecimal false (Text.digitsValue ds) (e - part.length)
  else if s = "inf".toList ∨ s = "infinity".toList then some (.infinite false)
  else if s = "nan".toList then some .nan
  else none

def ofText? (s : List Char) : Option Double :=
  match joined false (Text.trimSpaces s) with
  | none => none
  | some s => match Text.unsigned (Text.lower s) with
    | (negative, s) => (magnitude? s).map fun d => if negative then d.neg else d

end Splice.Double
