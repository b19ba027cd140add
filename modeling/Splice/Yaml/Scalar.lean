import Splice.Text.Hex
import Splice.Yaml.Cursor

namespace Splice.Yaml

def fold (first : Char) (more : List Char) : List Char :=
  (if first ≠ '\n' then [first] else if more = [] then [' '] else []) ++ more

/-! ### Quoted scalars -/

def quotedBreaks : Nat → Cursor → Option (List Char × Cursor)
  | 0, _ => none
  | n + 1, c =>
    if isSeparator c.rest then none
    else
      let c := c.skipWhile fun x => x = ' ' || x = '\t'
      match c.lineBreak? with
      | none => some ([], c)
      | some (b, c) => (quotedBreaks n c).map fun (bs, c) => (b :: bs, c)

def quotedGap (c : Cursor) : Option (List Char × Cursor) :=
  match c.takeWhile fun x => x = ' ' || x = '\t' with
  | (blanks, c) => match c.rest, c.lineBreak? with
    | [], _ => none
    | _, none => some (blanks, c)
    | _, some (b, c) =>
      (quotedBreaks (c.rest.length + 1) c).map fun (bs, c) => (fold b bs, c)

def namedEscape? : Char → Option Char
  | '0' => some '\x00'
  | 'a' => some '\x07'
  | 'b' => some '\x08'
  | 't' => some '\t'
  | '\t' => some '\t'
  | 'n' => some '\n'
  | 'v' => some '\x0b'
  | 'f' => some '\x0c'
  | 'r' => some '\r'
  | 'e' => some '\x1b'
  | ' ' => some ' '
  | '"' => some '"'
  | '\\' => some '\\'
  | '/' => some '/'
  | 'N' => some '\x85'
  | '_' => some '\xa0'
  | 'L' => some '\u2028'
  | 'P' => some '\u2029'
  | _ => none

def escapeDigits? : Char → Option Nat
  | 'x' => some 2
  | 'u' => some 4
  | 'U' => some 8
  | _ => none

def charOf? (n : Nat) : Option Char :=
  if 0x10FFFF < n then none
  else if 0xD800 ≤ n ∧ n < 0xE000 then some '\ufffd'
  else some (Char.ofNat n)

def escape (c : Cursor) : Option (List Char × Cursor) :=
  match c.rest with
  | [] => none
  | x :: s =>
    if let some e := namedEscape? x then some ([e], c.next)
    else if let some k := escapeDigits? x then do
      let ds := s.take k
      if ds.length < k then none
      else return ([← charOf? (← Text.ofHex? ds)], c.skip (k + 1))
    else match c.lineBreak? with
      | none => none
      | some (_, c) => quotedBreaks (c.rest.length + 1) c

def before (s : List Char) : List Char × Cursor → List Char × Cursor
  | (t, c) => (s ++ t, c)

def quotedRun (double : Bool) : Nat → Cursor → Option (List Char × Cursor)
  | 0, _ => none
  | n + 1, c => match c.rest with
    | [] => some ([], c)
    | '\'' :: '\'' :: _ =>
      if double then (quotedRun double n c.next).map (before ['\''])
      else (quotedRun double n (c.skip 2)).map (before ['\''])
    | '\'' :: _ =>
      if double then (quotedRun double n c.next).map (before ['\'']) else some ([], c)
    | '"' :: _ =>
      if double then some ([], c) else (quotedRun double n c.next).map (before ['"'])
    | '\\' :: _ =>
      if double then do
        let (s, c) ← escape c.next
        (quotedRun double n c).map (before s)
      else (quotedRun double n c.next).map (before ['\\'])
    | x :: _ => if isGap x then some ([], c) else (quotedRun double n c.next).map (before [x])

def quotedRest (double : Bool) : Nat → Cursor → Option (List Char × Cursor)
  | 0, _ => none
  | n + 1, c => do
    let (run, c) ← quotedRun double (c.rest.length + 1) c
    if c.rest.head? = some (if double then '"' else '\'') then return (run, c.next)
    else
      let (gap, c) ← quotedGap c
      (quotedRest double n c).map (before (run ++ gap))

def quoted (double : Bool) (c : Cursor) : Option (List Char × Cursor) :=
  quotedRest double (c.rest.length + 1) c.next

/-! ### Plain scalars -/

def isFlowSign (c : Char) : Bool :=
  c = ',' || c = '?' || c = '[' || c = ']' || c = '\x7b' || c = '\x7d'

def endsBeforeValue (flow : Bool) : List Char → Bool
  | [] => true
  | c :: _ => isGap c || (flow && isFlowSign c && c ≠ '?')

def plainRun (flow : Bool) : List Char → List Char
  | [] => []
  | c :: s =>
    if isGap c || (flow && isFlowSign c) || (c = ':' && endsBeforeValue flow s) then []
    else c :: plainRun flow s

def plainBreaks : Nat → Cursor → Option (List Char) × Cursor
  | 0, c => (none, c)
  | n + 1, c =>
    if isSeparator c.rest then (none, c)
    else
      let c := c.skipSpaces
      match c.lineBreak? with
      | none => (some [], c)
      | some (b, c) => match plainBreaks n c with
        | (bs, c) => (bs.map (b :: ·), c)

structure Plain where
  text : List Char
  cursor : Cursor
  /-- The scalar ended at the beginning of a line. -/
  atLineStart : Bool
  deriving DecidableEq, Repr

/-- Runs and gaps, `gap` before the next run, up to the end of the scalar. Lines that are indented
less than `indent` do not belong to it. -/
def plainRest (flow : Bool) (indent : Int) : Nat → List Char → Bool → Cursor → Plain
  | 0, _, fresh, c => ⟨[], c, fresh⟩
  | n + 1, gap, fresh, c =>
    let run := plainRun flow c.rest
    if c.rest.head? = some '#' ∨ run = [] then ⟨[], c, fresh⟩
    else
      let c := c.skip run.length
      let (blanks, c) := c.takeWhile (· = ' ')
      let (gap', fresh, c) := match c.lineBreak? with
        | none => (blanks, false, c)
        | some (b, c) => match plainBreaks (c.rest.length + 1) c with
          | (none, c) => ([], true, c)
          | (some bs, c) => (fold b bs, true, c)
      if gap' = [] ∨ (!flow ∧ (c.column : Int) < indent) then ⟨gap ++ run, c, fresh⟩
      else
        let p := plainRest flow indent n gap' fresh c
        { p with text := gap ++ run ++ p.text }

def plain (flow : Bool) (indent : Int) (c : Cursor) : Plain :=
  plainRest flow (indent + 1) (c.rest.length + 1) [] false c

/-! ### Blocks -/

/-- How a block treats the breaks at its end: one is kept, or none, or all. -/
inductive Chomping
  | clip
  | strip
  | keep
  deriving DecidableEq, Repr

def chomping? : List Char → Option Chomping
  | '+' :: _ => some .keep
  | '-' :: _ => some .strip
  | _ => none

def indentation? : List Char → Option Nat
  | c :: _ => if '0' ≤ c ∧ c ≤ '9' then some (c.toNat - 48) else none
  | [] => none

def blockHeader (c : Cursor) : Option (Chomping × Option Nat × Cursor) :=
  let (chomp, step, c) := match chomping? c.rest, indentation? c.rest with
    | some ch, _ => match indentation? c.next.rest with
      | some k => (ch, some k, c.skip 2)
      | none => (ch, none, c.next)
    | none, some k => match chomping? c.next.rest with
      | some ch => (ch, some k, c.skip 2)
      | none => (.clip, some k, c.next)
    | none, none => (.clip, none, c)
  if step = some 0 ∨ !endsField c.rest then none else some (chomp, step, c)

def emptyRest (c : Cursor) : Option Cursor :=
  let c := c.skipSpaces.skipComment
  if endsLine c.rest then some ((c.lineBreak?.map (·.2)).getD c) else none

/-- The empty lines before a block that tells its own indentation, and the greatest column of a
space in them. -/
def leadingBreaks : Nat → Nat → Cursor → List Char × Nat × Cursor
  | 0, widest, c => ([], widest, c)
  | n + 1, widest, c =>
    let c := c.skipSpaces
    let widest := max widest c.column
    match c.lineBreak? with
    | none => ([], widest, c)
    | some (b, c) => match leadingBreaks n widest c with
      | (bs, widest, c) => (b :: bs, widest, c)

def skipIndent (indent : Nat) : Nat → Cursor → Cursor
  | 0, c => c
  | n + 1, c =>
    if c.column < indent ∧ c.rest.head? = some ' ' then skipIndent indent n c.next else c

def blockBreaks (indent : Nat) : Nat → Cursor → List Char × Cursor
  | 0, c => ([], c)
  | n + 1, c =>
    let c := skipIndent indent indent c
    match c.lineBreak? with
    | none => ([], c)
    | some (b, c) => match blockBreaks indent n c with
      | (bs, c) => (b :: bs, c)

def isBlank (c : Char) : Bool := c = ' ' || c = '\t'

def startsBlank (s : List Char) : Bool := s.head?.any isBlank

/-- The lines of a block. `breaks` are the empty lines before the next. In a folded block a break
between two lines that do not begin with a blank counts as a space. -/
def blockLines (folded : Bool) (chomp : Chomping) (indent : Nat) :
    Nat → List Char → Cursor → List Char × Cursor
  | 0, _, c => ([], c)
  | n + 1, breaks, c =>
    let blank := startsBlank c.rest
    let (line, c) := c.takeWhile (!isBreak ·)
    let (first, c) := match c.lineBreak? with
      | some (b, c) => ([b], c)
      | none => ([], c)
    let (more, c) := blockBreaks indent (c.rest.length + 1) c
    if c.column = indent ∧ c.rest ≠ [] then
      let joint := if folded && first = ['\n'] && !blank && !startsBlank c.rest then
        (if more = [] then [' '] else []) else first
      before (breaks ++ line ++ joint) (blockLines folded chomp indent n more c)
    else
      let tail := match chomp with
        | .clip => first
        | .strip => []
        | .keep => first ++ more
      (breaks ++ line ++ tail, c)

def block (folded : Bool) (indent : Int) (c : Cursor) : Option (List Char × Cursor) := do
  let (chomp, step, c) ← blockHeader c.next
  let c ← emptyRest c
  let least := (max 1 (indent + 1)).toNat
  let (breaks, indent, c) := match step with
    | some k =>
      let indent := least + k - 1
      match blockBreaks indent (c.rest.length + 1) c with
      | (bs, c) => (bs, indent, c)
    | none => match leadingBreaks (c.rest.length + 1) 0 c with
      | (bs, widest, c) => (bs, max least widest, c)
  if c.column = indent ∧ c.rest ≠ [] then
    return blockLines folded chomp indent (c.rest.length + 1) breaks c
  else return (if chomp = .keep then breaks else [], c)

end Splice.Yaml
