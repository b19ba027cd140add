import Splice.Text.Hex
import Splice.Fault

namespace Splice.Json

inductive Invalid
  | malformed
  | tooManyDigits (count : Nat)
  deriving DecidableEq, Repr

abbrev Reading (α : Type) := Except Invalid (α × List Char)

def Reading.as {α β : Type} (f : α → β) : Reading α → Reading β
  | .ok (a, s) => .ok (f a, s)
  | .error e => .error e

def isSpace (c : Char) : Bool := c = ' ' || c = '\t' || c = '\n' || c = '\r'

def skipSpace (s : List Char) : List Char := s.dropWhile isSpace

def isAsciiDigit (c : Char) : Bool := '0' ≤ c && c ≤ '9'

def decimal (s : List Char) : Nat := s.foldl (fun n c => 10 * n + (c.toNat - 48)) 0

/-! ### Texts -/

/-- A piece of a text: a character, or an escaped unit of sixteen bits. -/
inductive Piece
  | char (c : Char)
  | unit (n : Nat)
  deriving DecidableEq, Repr

def isHighHalf (n : Nat) : Bool := 0xD800 ≤ n && n < 0xDC00

def isLowHalf (n : Nat) : Bool := 0xDC00 ≤ n && n < 0xE000

/-- The character of a unit; half a pair alone is none and is replaced. -/
def ofUnit (n : Nat) : Char := if isHighHalf n || isLowHalf n then '\ufffd' else Char.ofNat n

def ofPair (high low : Nat) : Char :=
  Char.ofNat (0x10000 + (high - 0xD800) * 0x400 + (low - 0xDC00))

def joinPieces : List Piece → List Char
  | [] => []
  | .char c :: ps => c :: joinPieces ps
  | [.unit n] => [ofUnit n]
  | .unit n :: .char c :: ps => ofUnit n :: c :: joinPieces ps
  | .unit n :: .unit m :: ps =>
    if isHighHalf n && isLowHalf m then ofPair n m :: joinPieces ps
    else ofUnit n :: joinPieces (.unit m :: ps)

def simpleEscape? : Char → Option Char
  | '"' => some '"'
  | '\\' => some '\\'
  | '/' => some '/'
  | 'b' => some '\x08'
  | 'f' => some '\x0c'
  | 'n' => some '\n'
  | 'r' => some '\r'
  | 't' => some '\t'
  | _ => none

def readPieces : List Char → Reading (List Piece)
  | [] => .error .malformed
  | '"' :: s => .ok ([], s)
  | '\\' :: 'u' :: a :: b :: c :: d :: s =>
    match Text.ofHex? [a, b, c, d] with
    | none => .error .malformed
    | some n => (readPieces s).as (.unit n :: ·)
  | '\\' :: c :: s =>
    match simpleEscape? c with
    | none => .error .malformed
    | some e => (readPieces s).as (.char e :: ·)
  | c :: s => if c < ' ' then .error .malformed else (readPieces s).as (.char c :: ·)

def readText (s : List Char) : Reading String :=
  (readPieces s).as fun ps => String.ofList (joinPieces ps)

/-! ### Numbers -/

def wholeDigits : List Char → List Char × List Char
  | '0' :: s => (['0'], s)
  | s => s.span isAsciiDigit

def fraction : List Char → List Char × List Char
  | '.' :: s => match s.span isAsciiDigit with
    | ([], _) => ([], '.' :: s)
    | (ds, rest) => (ds, rest)
  | s => ([], s)

def sign : List Char → Bool × List Char
  | '-' :: s => (true, s)
  | '+' :: s => (false, s)
  | s => (false, s)

def exponent : List Char → Option Int × List Char
  | [] => (none, [])
  | e :: s =>
    if e = 'e' ∨ e = 'E' then
      match (sign s).2.span isAsciiDigit with
      | ([], _) => (none, e :: s)
      | (ds, rest) => (some (if (sign s).1 then -(decimal ds : Int) else decimal ds), rest)
    else (none, e :: s)

/-- A number whose whole part has at most `limit` digits, if there is a limit and no fraction. -/
def readNumber (limit : Option Nat) (negative : Bool) (s : List Char) : Reading Value :=
  match wholeDigits s with
  | ([], _) => .error .malformed
  | (ds, s) =>
    match fraction s with
    | (fs, s) => match exponent s with
      | (none, s) =>
        if fs ≠ [] then .ok (.float (.ofDecimal negative (decimal (ds ++ fs)) (-fs.length)), s)
        else if limit.any (· < ds.length) then .error (.tooManyDigits ds.length)
        else .ok (.int (if negative then -(decimal ds : Int) else decimal ds), s)
      | (some e, s) =>
        .ok (.float (.ofDecimal negative (decimal (ds ++ fs)) (e - fs.length)), s)

/-! ### Values -/

def behind (word : String) (v : Value) (s : List Char) : Reading Value :=
  if word.toList.isPrefixOf s then .ok (v, s.drop word.length) else .error .malformed

def readScalar (limit : Option Nat) : List Char → Reading Value
  | '"' :: s => (readText s).as .text
  | 'n' :: s => behind "ull" .null s
  | 't' :: s => behind "rue" (.bool true) s
  | 'f' :: s => behind "alse" (.bool false) s
  | 'N' :: s => behind "aN" (.float .nan) s
  | 'I' :: s => behind "nfinity" (.float (.infinite false)) s
  | '-' :: 'I' :: s => behind "nfinity" (.float (.infinite true)) s
  | '-' :: s => readNumber limit true s
  | s => readNumber limit false s

mutual
/-- Read a value, with as many values within and behind it as `fuel` allows. -/
def readValue (limit : Option Nat) : Nat → List Char → Reading Value
  | 0, _ => .error .malformed
  | fuel + 1, '[' :: s => match skipSpace s with
    | ']' :: s => .ok (.list [], s)
    | s => (readItems limit fuel s).as .list
  | fuel + 1, '\x7b' :: s => match skipSpace s with
    | '\x7d' :: s => .ok (.map [], s)
    | s => (readEntries limit fuel s).as fun es => .map (Entries.ofList es)
  | _ + 1, s => readScalar limit s

def readItems (limit : Option Nat) : Nat → List Char → Reading (List Value)
  | 0, _ => .error .malformed
  | fuel + 1, s => match readValue limit fuel s with
    | .error e => .error e
    | .ok (v, s) => match skipSpace s with
      | ']' :: s => .ok ([v], s)
      | ',' :: s => (readItems limit fuel (skipSpace s)).as (v :: ·)
      | _ => .error .malformed

def readEntries (limit : Option Nat) : Nat → List Char → Reading (List (Key × Value))
  | fuel + 1, '"' :: s => match readText s with
    | .error e => .error e
    | .ok (k, s) => match skipSpace s with
      | ':' :: s => match readValue limit fuel (skipSpace s) with
        | .error e => .error e
        | .ok (v, s) => match skipSpace s with
          | '\x7d' :: s => .ok ([(.text k, v)], s)
          | ',' :: s => (readEntries limit fuel (skipSpace s)).as ((.text k, v) :: ·)
          | _ => .error .malformed
      | _ => .error .malformed
  | _, _ => .error .malformed
end

def readWithin (limit : Option Nat) (s : List Char) : Except Invalid Value :=
  match readValue limit (s.length + 1) (skipSpace s) with
  | .error e => .error e
  | .ok (v, rest) => if skipSpace rest = [] then .ok v else .error .malformed

def read (s : List Char) : Except Invalid Value := readWithin (some Fault.mostDigits) s

end Splice.Json
