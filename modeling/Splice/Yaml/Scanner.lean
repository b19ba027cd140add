import Splice.Text.Utf8
import Splice.Yaml.Scalar
import Splice.Yaml.Token

namespace Splice.Yaml

/-- A place where a key may have begun. A required one is a key or a mistake. -/
structure Candidate where
  /-- The number of tokens before it. -/
  number : Nat
  required : Bool
  index : Nat
  line : Nat
  column : Nat
  deriving DecidableEq, Repr

structure Scanner where
  cursor : Cursor
  /-- The tokens so far, the last one first. -/
  tokens : List Token
  indent : Int
  /-- The indentations around, the nearest first. -/
  outer : List Int
  keyAllowed : Bool
  candidate : Option Candidate
  /-- The candidates outside the flow collections that are open, the nearest first. -/
  outerCandidates : List (Option Candidate)
  deriving Repr

namespace Scanner

def ofText (s : List Char) : Scanner := ⟨.ofText s, [], -1, [], true, none, []⟩

def inFlow (s : Scanner) : Bool := s.outerCandidates ≠ []

def push (s : Scanner) (t : Token) : Scanner := { s with tokens := t :: s.tokens }

def moveTo (s : Scanner) (c : Cursor) : Scanner := { s with cursor := c }

def skip (s : Scanner) (n : Nat) : Scanner := s.moveTo (s.cursor.skip n)

/-! ### Candidates -/

def longestKey : Nat := 1024

def isStale (c : Cursor) (k : Candidate) : Bool :=
  k.line ≠ c.line || longestKey < c.index - k.index

def refresh (c : Cursor) : Option Candidate → Option (Option Candidate)
  | none => some none
  | some k => if isStale c k then (if k.required then none else some none) else some (some k)

def dropStale (s : Scanner) : Option Scanner := do
  let candidate ← refresh s.cursor s.candidate
  let outer ← s.outerCandidates.mapM (refresh s.cursor)
  return { s with candidate := candidate, outerCandidates := outer }

def dropCandidate (s : Scanner) : Option Scanner :=
  if s.candidate.any (·.required) then none else some { s with candidate := none }

def saveCandidate (s : Scanner) : Option Scanner :=
  if s.keyAllowed then do
    let s ← s.dropCandidate
    let c := s.cursor
    let required := !s.inFlow && s.indent = c.column
    let k : Candidate := ⟨s.tokens.length, required, c.index, c.line, c.column⟩
    return { s with candidate := some k }
  else some s

/-! ### Indentation -/

def close (column : Int) : List Int → Int → List Token → List Int × Int × List Token
  | [], indent, ts => ([], indent, ts)
  | i :: outer, indent, ts =>
    if column < indent then close column outer i (.blockEnd :: ts) else (i :: outer, indent, ts)

def unwind (s : Scanner) (column : Int) : Scanner :=
  if s.inFlow then s
  else match close column s.outer s.indent s.tokens with
    | (outer, indent, ts) => { s with outer := outer, indent := indent, tokens := ts }

def openAt (s : Scanner) (column : Nat) (start : Token) (number : Nat) : Scanner :=
  if s.indent < column then
    let newer := s.tokens.take (s.tokens.length - number)
    let older := s.tokens.drop (s.tokens.length - number)
    { s with indent := column, outer := s.indent :: s.outer, tokens := newer ++ start :: older }
  else s

/-! ### Names and tags -/

def isNameChar (c : Char) : Bool :=
  ('0' ≤ c && c ≤ '9') || ('A' ≤ c && c ≤ 'Z') || ('a' ≤ c && c ≤ 'z') || c = '-' || c = '_'

def isAddressChar (c : Char) : Bool :=
  isNameChar c || (";/?:@&=+$,_.!~*'()[]".toList.contains c)

def endsName : List Char → Bool
  | [] => true
  | c :: _ => isGap c || "?:,]\x7d%@`".toList.contains c

def name (c : Cursor) : Option (String × Cursor) :=
  match c.next.takeWhile isNameChar with
  | (s, c) => if s ≠ [] ∧ endsName c.rest then some (String.ofList s, c) else none

def percentBytes : Nat → Cursor → Option (List UInt8 × Cursor)
  | 0, c => some ([], c)
  | n + 1, c => match c.rest with
    | '%' :: a :: b :: _ => do
      let byte ← Text.ofHex? [a, b]
      let (bytes, c) ← percentBytes n (c.skip 3)
      return (UInt8.ofNat byte :: bytes, c)
    | '%' :: _ => none
    | _ => some ([], c)

def addressRest : Nat → Cursor → Option (List Char × Cursor)
  | 0, c => some ([], c)
  | n + 1, c =>
    match c.takeWhile isAddressChar with
    | (run, c) =>
      if c.rest.head? = some '%' then do
        let (bytes, c) ← percentBytes c.rest.length c
        let escaped ← (Text.Utf8.decode bytes).toOption
        let (s, c) ← addressRest n c
        return (run ++ escaped ++ s, c)
      else some (run, c)

def address (c : Cursor) : Option (String × Cursor) := do
  let (s, c) ← addressRest (c.rest.length + 1) c
  if s = [] then none else return (String.ofList s, c)

def handle (c : Cursor) : Option (String × Cursor) :=
  match c.rest with
  | '!' :: ' ' :: _ => some ("!", c.next)
  | '!' :: _ => match c.next.takeWhile isNameChar with
    | (s, c) =>
      if c.rest.head? = some '!' then some (String.ofList ('!' :: s ++ ['!']), c.next) else none
  | _ => none

def hasHandle : List Char → Bool
  | [] => false
  | c :: s => if c = ' ' || isBreak c then false else c = '!' || hasHandle s

def tag (c : Cursor) : Option (Token × Cursor) := do
  let (t, c) ← match c.rest.drop 1 with
    | '<' :: _ => do
      let (suffix, c) ← address (c.skip 2)
      if c.rest.head? = some '>' then return (Token.tag none suffix, c.next) else none
    | s =>
      if endsWord s then some (Token.tag none "!", c.next)
      else if hasHandle s then do
        let (handle, c) ← handle c
        let (suffix, c) ← address c
        return (Token.tag (some handle) suffix, c)
      else do
        let (suffix, c) ← address c.next
        return (Token.tag (some "!") suffix, c)
  if endsField c.rest then return (t, c) else none

/-! ### Directives -/

def isDigit (c : Char) : Bool := '0' ≤ c && c ≤ '9'

def number (c : Cursor) : Option (Nat × Cursor) :=
  match c.takeWhile isDigit with
  | (ds, c) =>
    if ds = [] then none else some (ds.foldl (fun n d => 10 * n + (d.toNat - 48)) 0, c)

def versionDirective (c : Cursor) : Option (Directive × Cursor) := do
  let (major, c) ← number c.skipSpaces
  if c.rest.head? ≠ some '.' then none
  let (_, c) ← number c.next
  if endsField c.rest then return (.version major, c) else none

def tagDirective (c : Cursor) : Option (Directive × Cursor) := do
  let (handle, c) ← handle c.skipSpaces
  if c.rest.head? ≠ some ' ' then none
  let (start, c) ← address c.skipSpaces
  if endsField c.rest then return (.tag handle start, c) else none

def directive (c : Cursor) : Option (Token × Cursor) := do
  let (name, c) := c.next.takeWhile isNameChar
  if name = [] ∨ !endsField c.rest then none
  let (d, c) ←
    if name = "YAML".toList then versionDirective c
    else if name = "TAG".toList then tagDirective c
    else some (.other, c.skipWhile (!isBreak ·))
  return (.directive d, ← emptyRest c)

/-! ### The next token -/

/-- Skip blanks, comments and empty lines. A new line may begin with a key. -/
def skipGap : Nat → Scanner → Scanner
  | 0, s => s
  | n + 1, s =>
    let c := s.cursor.skipSpaces.skipComment
    match c.lineBreak? with
    | none => s.moveTo c
    | some (_, c) => skipGap n { s with cursor := c, keyAllowed := s.keyAllowed || !s.inFlow }

def skipMark (s : Scanner) : Scanner :=
  if s.cursor.index = 0 ∧ s.cursor.rest.head? = some '\ufeff' then s.skip 1 else s

def sign (s : Scanner) (t : Token) (keyAllowed : Bool) : Option Scanner := do
  let s ← s.dropCandidate
  return ({ s with keyAllowed := keyAllowed }.skip 1).push t

def openFlow (s : Scanner) (t : Token) : Option Scanner := do
  let s ← s.saveCandidate
  return ({ s with
    keyAllowed := true
    candidate := none
    outerCandidates := s.candidate :: s.outerCandidates }.skip 1).push t

def closeFlow (s : Scanner) (t : Token) : Option Scanner := do
  let s ← s.dropCandidate
  match s.outerCandidates with
  | [] => none
  | k :: ks =>
    return ({ s with keyAllowed := false, candidate := k, outerCandidates := ks }.skip 1).push t

def documentSign (s : Scanner) (t : Token) : Option Scanner := do
  let s ← (s.unwind (-1)).dropCandidate
  return ({ s with keyAllowed := false }.skip 3).push t

/-- A sign that opens a block where it stands, unless it stands in brackets. -/
def blockSign (s : Scanner) (start t : Token) (keyAllowed : Bool) : Option Scanner :=
  if s.inFlow then s.sign t keyAllowed
  else if s.keyAllowed then
    (s.openAt s.cursor.column start s.tokens.length).sign t keyAllowed
  else none

/-- The colon behind a key: a candidate before it is one. -/
def valueSign (s : Scanner) : Option Scanner :=
  match s.candidate with
  | none => s.blockSign .blockMapStart .value !s.inFlow
  | some k =>
    let newer := s.tokens.take (s.tokens.length - k.number)
    let older := s.tokens.drop (s.tokens.length - k.number)
    let tokens := newer ++ Token.key :: older
    let s := { s with tokens := tokens, candidate := none, keyAllowed := false }
    let s := if s.inFlow then s else s.openAt k.column .blockMapStart k.number
    some ((s.skip 1).push .value)

def word (s : Scanner) (read : Scanner → Option (Token × Cursor)) : Option Scanner := do
  let s ← s.saveCandidate
  let (t, c) ← read s
  return ({ s with keyAllowed := false }.moveTo c).push t

def named (f : String → Token) (s : Scanner) : Option (Token × Cursor) :=
  (name s.cursor).map fun (n, c) => (f n, c)

def quotedWord (double : Bool) (s : Scanner) : Option (Token × Cursor) :=
  (quoted double s.cursor).map fun (t, c) => (.scalar false (String.ofList t), c)

def blockWord (s : Scanner) (folded : Bool) : Option Scanner := do
  let s ← s.dropCandidate
  let (t, c) ← block folded s.indent s.cursor
  return ({ s with keyAllowed := true }.moveTo c).push (.scalar false (String.ofList t))

def plainWord (s : Scanner) : Option Scanner := do
  let s ← s.saveCandidate
  let p := plain s.inFlow s.indent s.cursor
  return ({ s with keyAllowed := p.atLineStart }.moveTo p.cursor).push
    (.scalar true (String.ofList p.text))

def isIndicator (c : Char) : Bool := "-?:,[]\x7b\x7d#&*!|>'\"%@`".toList.contains c

def startsPlain (flow : Bool) : List Char → Bool
  | [] => false
  | c :: s =>
    if isGap c then false
    else if isIndicator c then !endsWord s && (c = '-' || (!flow && (c = '?' || c = ':')))
    else true

def token (s : Scanner) : Option Scanner :=
  let atLineStart := s.cursor.column = 0
  match s.cursor.rest with
  | [] => none
  | c :: rest =>
    if c = '%' && atLineStart then do
      let s ← (s.unwind (-1)).dropCandidate
      let (t, c) ← directive s.cursor
      return ({ s with keyAllowed := false }.moveTo c).push t
    else if atLineStart && isSeparator (c :: rest) then
      s.documentSign (if c = '-' then .documentStart else .documentEnd)
    else if c = '[' then s.openFlow .flowListStart
    else if c = '\x7b' then s.openFlow .flowMapStart
    else if c = ']' then s.closeFlow .flowListEnd
    else if c = '\x7d' then s.closeFlow .flowMapEnd
    else if c = ',' then s.sign .flowEntry true
    else if c = '-' && endsWord rest then s.blockSign .blockListStart .blockEntry true
    else if c = '?' && (s.inFlow || endsWord rest) then
      s.blockSign .blockMapStart .key !s.inFlow
    else if c = ':' && (s.inFlow || endsWord rest) then s.valueSign
    else if c = '*' then s.word (named .alias)
    else if c = '&' then s.word (named .anchor)
    else if c = '!' then s.word fun s => tag s.cursor
    else if c = '|' && !s.inFlow then s.blockWord false
    else if c = '>' && !s.inFlow then s.blockWord true
    else if c = '\'' then s.word (quotedWord false)
    else if c = '"' then s.word (quotedWord true)
    else if startsPlain s.inFlow (c :: rest) then s.plainWord
    else none

def run : Nat → Scanner → Option (List Token)
  | 0, _ => none
  | n + 1, s => do
    let s ← (skipGap (s.cursor.rest.length + 1) s.skipMark).dropStale
    if s.cursor.rest = [] then
      let s ← (s.unwind (-1)).dropCandidate
      return s.tokens.reverse
    else
      run n (← (s.unwind s.cursor.column).token)

def isPrintable (c : Char) : Bool :=
  c = '\t' || c = '\n' || c = '\r' || (' ' ≤ c && c ≤ '~') || c = '\x85' ||
    ('\xa0' ≤ c && c.toNat ≠ 0xFFFE && c.toNat ≠ 0xFFFF)

end Scanner

def Token.scan (s : List Char) : Option (List Token) :=
  if s.all Scanner.isPrintable then Scanner.run (s.length + 1) (.ofText s) else none

end Splice.Yaml
