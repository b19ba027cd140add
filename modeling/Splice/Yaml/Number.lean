import Splice.Double.Reading
import Splice.Fault
import Splice.Text.Split

namespace Splice.Yaml

def isDecimal (c : Char) : Bool := '0' ≤ c && c ≤ '9'

def isDecimalOrLine (c : Char) : Bool := isDecimal c || c = '_'

def someAll (p : Char → Bool) (s : List Char) : Bool := s ≠ [] && s.all p

def isSixtieth : List Char → Bool
  | [c] => isDecimal c
  | [c, d] => '0' ≤ c && c ≤ '5' && isDecimal d
  | _ => false

def startsPositive : List Char → Bool
  | c :: s => isDecimal c && c ≠ '0' && s.all isDecimalOrLine
  | [] => false

def startsDecimal : List Char → Bool
  | c :: s => isDecimal c && s.all isDecimalOrLine
  | [] => false

def looksWhole (s : List Char) : Bool :=
  match (Text.unsigned s).2 with
  | '0' :: 'b' :: s => someAll (fun c => c = '0' || c = '1' || c = '_') s
  | '0' :: 'x' :: s => someAll (fun c => (Text.hexValue? c).isSome || c = '_') s
  | ['0'] => true
  | '0' :: s => s.all fun c => ('0' ≤ c && c ≤ '7') || c = '_'
  | s => match Text.cut ':' s with
    | first :: places => startsPositive first && places.all isSixtieth
    | [] => false

def isExponent : List Char → Bool
  | [] => true
  | e :: sign :: s => (e = 'e' || e = 'E') && (sign = '-' || sign = '+') && someAll isDecimal s
  | _ => false

def looksFloating (s : List Char) : Bool :=
  if [".nan", ".NaN", ".NAN"].contains (String.ofList s) then true
  else
    let t := (Text.unsigned s).2
    if [".inf", ".Inf", ".INF"].contains (String.ofList t) then true
    else match t.span (· ≠ '.') with
      | ([], _ :: c :: part) =>
        t = s && isDecimal c && isExponent (part.dropWhile isDecimalOrLine)
      | (whole, _ :: part) => match Text.cut ':' whole with
        | [first] => startsDecimal first && isExponent (part.dropWhile isDecimalOrLine)
        | first :: places =>
          startsDecimal first && places.all isSixtieth && part.all isDecimalOrLine
        | [] => false
      | _ => false

def unmarked (base : Nat) : List Char → List Char
  | '0' :: c :: s =>
    if (base = 2 && (c = 'b' || c = 'B')) || (base = 8 && (c = 'o' || c = 'O')) ||
        (base = 16 && (c = 'x' || c = 'X')) then s
    else '0' :: c :: s
  | s => s

def digit? (base : Nat) (c : Char) : Option Nat := (Text.hexValue? c).filter (· < base)

/-- The whole number that a text writes in a base. Only a decimal one has a greatest length. -/
def inBase (base : Nat) (text : List Char) : Except Fault Int :=
  match Text.unsigned ((Text.trimSpaces text).map Text.asciiDigit) with
  | (negative, s) =>
    let s := unmarked base s
    let count := (s.takeWhile fun c => (digit? base c).isSome).length
    if base = 10 && Fault.mostDigits < count then .error (.tooManyDigits count)
    else match s.mapM (digit? base) with
      | some (d :: ds) => .ok (Text.signed negative (ds.foldl (fun n d => base * n + d) d))
      | _ => .error (.notInteger base (String.ofList text))

def inSixties (places : List Int) : Int := places.foldl (fun n d => 60 * n + d) 0

def withoutLines (s : List Char) : List Char := s.filter (· ≠ '_')

def whole (text : List Char) : Except Fault Int :=
  match Text.unsigned (withoutLines text) with
  | (negative, s) =>
    let n : Except Fault Int := match s with
      | [] => .error .emptyNumber
      | ['0'] => .ok 0
      | '0' :: 'b' :: s => inBase 2 s
      | '0' :: 'x' :: s => inBase 16 s
      | '0' :: _ => inBase 8 s
      | s => if s.contains ':' then inSixties <$> (Text.cut ':' s).mapM (inBase 10) else inBase 10 s
    n.map fun n => if negative then -n else n

def decimal (s : List Char) : Except Fault Double :=
  match Double.ofText? s with
  | some d => .ok d
  | none => .error (.notNumber (String.ofList s))

/-- Add up places of sixty, the last one first, each rounded in turn. -/
def sumSixties (unit : Nat) (sum : Double) : List Double → Except Fault Double
  | [] => .ok sum
  | d :: ds => match Double.ofInt? unit with
    | none => .error .notFinite
    | some u => sumSixties (60 * unit) (sum.add (d.mul u)) ds

def floating (text : List Char) : Except Fault Double :=
  match Text.unsigned (Text.lower (withoutLines text)) with
  | (negative, s) =>
    let d : Except Fault Double :=
      if withoutLines text = [] then .error .emptyNumber
      else if s = ".inf".toList then .ok (.infinite false)
      else if s = ".nan".toList then .ok .nan
      else if s.contains ':' then do
        sumSixties 1 (.zero false) (← (Text.cut ':' s).mapM decimal).reverse
      else decimal s
    d.map fun d => if negative then d.neg else d

end Splice.Yaml
