import Splice.Yaml.Number

namespace Splice.Yaml

/-- A number of at least and at most so many digits, and what stands behind it. -/
def number? (least most : Nat) (s : List Char) : Option (Nat × List Char) :=
  let ds := (s.take most).takeWhile isDecimal
  if ds.length < least then none else some (Text.digitsValue ds, s.drop ds.length)

def afterSign? (sign : Char) : List Char → Option (List Char)
  | c :: s => if c = sign then some s else none
  | [] => none

def isSpace (c : Char) : Bool := c = ' ' || c = '\t'

/-- The zone at the end of a time, in minutes; it may be missing. -/
def zone? (s : List Char) : Option (Option Int) :=
  if s = [] then some none
  else match s.dropWhile isSpace with
    | ['Z'] => some (some 0)
    | sign :: s =>
      if sign = '-' || sign = '+' then do
        let (hours, s) ← number? 1 2 s
        let (minutes, s) ← if s = [] then some (0, s) else number? 2 2 (← afterSign? ':' s)
        let offset : Int := 60 * hours + minutes
        if s = [] then some (some (if sign = '-' then -offset else offset)) else none
      else none
    | [] => none

/-- The millionths that the digits behind a point come to; further digits are cut off. -/
def millionths (ds : List Char) : Nat :=
  Text.digitsValue (ds.take 6 ++ List.replicate (6 - ds.length) '0')

def clock? (s : List Char) : Option Clock := do
  let (hour, s) ← number? 1 2 s
  let (minute, s) ← number? 2 2 (← afterSign? ':' s)
  let (second, s) ← number? 2 2 (← afterSign? ':' s)
  let (part, s) := match s with
    | '.' :: s => s.span isDecimal
    | s => ([], s)
  return ⟨hour, minute, second, millionths part, ← zone? s⟩

/-- What stands in the places of a day and a time, whether or not the calendar has it. -/
def moment? (s : List Char) : Option Moment := do
  let (year, s) ← number? 4 4 s
  let (month, s) ← number? 1 2 (← afterSign? '-' s)
  let (day, s) ← number? 1 2 (← afterSign? '-' s)
  match s with
  | [] => return ⟨year, month, day, none⟩
  | c :: s =>
    if c = 'T' || c = 't' then return ⟨year, month, day, some (← clock? s)⟩
    else if isSpace c then return ⟨year, month, day, some (← clock? (s.dropWhile isSpace))⟩
    else none

/-- A day without time has two digits for the month and for itself. -/
def looksMomentary (s : List Char) : Bool :=
  match moment? s with
  | some m => m.clock.isSome || s.length = 10
  | none => false

/-- A line end behind other characters does not count. -/
def chomped (s : List Char) : List Char :=
  if 1 < s.length && s.getLast? = some '\n' then s.dropLast else s

def moment (s : List Char) : Except Fault Moment :=
  match moment? (chomped s) with
  | none => .error .noMoment
  | some m => match m.flaw? with
    | some flaw => .error (.offCalendar flaw)
    | none => .ok m

end Splice.Yaml
