namespace Splice.Yaml

def isBreak (c : Char) : Bool := c = '\n' || c = '\x85' || c = '\u2028' || c = '\u2029'

def isGap (c : Char) : Bool := c = ' ' || c = '\t' || isBreak c

def endsWord : List Char → Bool
  | [] => true
  | c :: _ => isGap c

def endsField : List Char → Bool
  | [] => true
  | c :: _ => c = ' ' || isBreak c

def endsLine : List Char → Bool
  | [] => true
  | c :: _ => isBreak c

def isSeparator : List Char → Bool
  | '-' :: '-' :: '-' :: s => endsWord s
  | '.' :: '.' :: '.' :: s => endsWord s
  | _ => false

structure Cursor where
  rest : List Char
  index : Nat
  line : Nat
  column : Nat
  deriving DecidableEq, Repr

namespace Cursor

def ofText (s : List Char) : Cursor := ⟨s, 0, 0, 0⟩

/-- One character on. A byte order mark takes no column. -/
def next (c : Cursor) : Cursor :=
  match c.rest with
  | [] => c
  | x :: s =>
    if isBreak x then ⟨s, c.index + 1, c.line + 1, 0⟩
    else ⟨s, c.index + 1, c.line, if x = '\ufeff' then c.column else c.column + 1⟩

def skip : Nat → Cursor → Cursor
  | 0, c => c
  | n + 1, c => skip n c.next

def takeWhile (c : Cursor) (p : Char → Bool) : List Char × Cursor :=
  let s := c.rest.takeWhile p
  (s, c.skip s.length)

def skipWhile (c : Cursor) (p : Char → Bool) : Cursor := (c.takeWhile p).2

def skipSpaces (c : Cursor) : Cursor := c.skipWhile (· = ' ')

def skipComment (c : Cursor) : Cursor :=
  if c.rest.head? = some '#' then c.skipWhile (!isBreak ·) else c

def lineBreak? (c : Cursor) : Option (Char × Cursor) :=
  match c.rest with
  | [] => none
  | x :: _ =>
    if x = '\u2028' || x = '\u2029' then some (x, c.next)
    else if isBreak x then some ('\n', c.next)
    else none

end Cursor

end Splice.Yaml
