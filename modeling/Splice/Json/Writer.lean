import Splice.Text.Hex
import Splice.Value

namespace Splice.Json

def writeUnit (n : Nat) : List Char := '\\' :: 'u' :: Text.hex 4 n

def writeChar (c : Char) : List Char :=
  if c = '"' then ['\\', '"']
  else if c = '\\' then ['\\', '\\']
  else if c = '\n' then ['\\', 'n']
  else if c = '\r' then ['\\', 'r']
  else if c = '\t' then ['\\', 't']
  else if c = '\x0c' then ['\\', 'f']
  else if c = '\x08' then ['\\', 'b']
  else if ' ' ≤ c ∧ c ≤ '~' then [c]
  else if c.toNat < 0x10000 then writeUnit c.toNat
  else
    let n := c.toNat - 0x10000
    writeUnit (0xD800 + n / 0x400) ++ writeUnit (0xDC00 + n % 0x400)

def writeText (s : List Char) : List Char := '"' :: (s.flatMap writeChar ++ ['"'])

def writeDouble : Double → String
  | .nan => "NaN"
  | .infinite negative => if negative then "-Infinity" else "Infinity"
  | d => d.text

def keyText : Key → String
  | .null => "null"
  | .bool b => if b then "true" else "false"
  | .int i => toString i
  | .float d => writeDouble d
  | .moment m => m.text
  | .text s => s

def lineBreak (indent : Option Nat) (depth : Nat) : List Char :=
  match indent with
  | none => []
  | some n => '\n' :: List.replicate (n * depth) ' '

def separator (indent : Option Nat) (depth : Nat) : List Char :=
  match indent with
  | none => [',', ' ']
  | some _ => ',' :: lineBreak indent depth

mutual
def writeValue (indent : Option Nat) (depth : Nat) : Value → List Char
  | .null => "null".toList
  | .bool b => if b then "true".toList else "false".toList
  | .int i => (toString i).toList
  | .float d => (writeDouble d).toList
  | .moment m => writeText m.text.toList
  | .text s => writeText s.toList
  | .list [] => ['[', ']']
  | .list (v :: vs) =>
    '[' :: (lineBreak indent (depth + 1) ++ writeValue indent (depth + 1) v ++
      writeItems indent (depth + 1) vs ++ lineBreak indent depth ++ [']'])
  | .map [] => ['\x7b', '\x7d']
  | .map ((k, v) :: es) =>
    '\x7b' :: (lineBreak indent (depth + 1) ++ writeText (keyText k).toList ++ [':', ' '] ++
      writeValue indent (depth + 1) v ++ writeEntries indent (depth + 1) es ++
      lineBreak indent depth ++ ['\x7d'])

def writeItems (indent : Option Nat) (depth : Nat) : List Value → List Char
  | [] => []
  | v :: vs => separator indent depth ++ writeValue indent depth v ++ writeItems indent depth vs

def writeEntries (indent : Option Nat) (depth : Nat) : List (Key × Value) → List Char
  | [] => []
  | (k, v) :: es =>
    separator indent depth ++ writeText (keyText k).toList ++ [':', ' '] ++
      writeValue indent depth v ++ writeEntries indent depth es
end

def write (indent : Option Nat) (v : Value) : String := String.ofList (writeValue indent 0 v)

end Splice.Json
