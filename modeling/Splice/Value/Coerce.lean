import Splice.Json.Reader
import Splice.Text.Blank
import Splice.Text.Digit
import Splice.Text.Lower

namespace Splice.Coerce

def isNull (s : List Char) : Bool :=
  ["null".toList, "none".toList, "~".toList].contains (Text.lower s)

def bool? (s : List Char) : Option Bool :=
  if Text.lower s = "true".toList then some true
  else if Text.lower s = "false".toList then some false
  else none

def isDigits (s : List Char) : Bool := s ≠ [] && s.all Text.isDigit

def int? (s : List Char) : Option Int :=
  match Text.unsigned s with
  | (negative, ds) =>
    if isDigits ds then some (Text.signed negative (Text.digitsValue ds)) else none

/-- Why a text that reads as a whole number is refused, judged from left to right: separators may
not stand around it, and it may not be too long. -/
def refusal? (text : List Char) : Option Fault :=
  let digits := (text.filter Text.isDigit).length
  let invalid := Fault.notInteger 10 (String.ofList text)
  if (text.takeWhile Text.isBlank).any Text.isSeparator then some invalid
  else if Fault.mostDigits < digits then some (.tooManyDigits digits)
  else if text.any Text.isSeparator then some invalid
  else none

def float? (s : List Char) : Option Double :=
  match Text.unsigned s with
  | (negative, ds) => match Text.cut '.' ds with
    | [whole, part] =>
      if isDigits (whole ++ part) then
        some (.ofDecimal negative (Text.digitsValue (whole ++ part)) (-part.length))
      else none
    | _ => none

def isBracketed (s : List Char) : Bool :=
  (s.head? = some '\x7b' && s.getLast? = some '\x7d') ||
    (s.head? = some '[' && s.getLast? = some ']')

/-- Lists and mappings. What is malformed is none; too long a number in it is a fault. -/
def json? (s : List Char) : Except Fault (Option Value) :=
  if isBracketed s then match Json.read s with
    | .ok v => .ok (some v)
    | .error .malformed => .ok none
    | .error (.tooManyDigits n) => .error (.tooManyDigits n)
  else .ok none

def value (text : String) : Except Fault Value :=
  let s := Text.trim text.toList
  if isNull s then .ok .null
  else if let some b := bool? s then .ok (.bool b)
  else if let some i := int? s then match refusal? text.toList with
    | some e => .error e
    | none => .ok (.int i)
  else if let some d := float? s then .ok (.float d)
  else match json? s with
    | .error e => .error e
    | .ok (some v) => .ok v
    | .ok none => .ok (.text (String.ofList s))

end Splice.Coerce
