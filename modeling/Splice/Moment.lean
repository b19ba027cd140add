import Splice.Text.Digit

namespace Splice

/-- A time of day, in no known zone or in one that is `offset` minutes ahead. -/
structure Clock where
  hour : Nat
  minute : Nat
  second : Nat
  micro : Nat
  offset : Option Int
  deriving DecidableEq, Repr

/-- A day of the calendar, or a time on it. -/
structure Moment where
  year : Nat
  month : Nat
  day : Nat
  clock : Option Clock
  deriving DecidableEq, Repr

/-- Why numbers that stand in the places of a moment are none. -/
inductive Moment.Flaw
  | year (n : Nat)
  | month
  | day
  | hour
  | minute
  | second
  | offset (minutes : Int)
  deriving DecidableEq, Repr

namespace Moment

def isLeap (year : Nat) : Bool := year % 4 = 0 && (year % 100 ≠ 0 || year % 400 = 0)

def monthLengths (year : Nat) : List Nat :=
  [31, if isLeap year then 29 else 28, 31, 30, 31, 30, 31, 31, 30, 31, 30, 31]

def clockFlaw? (c : Clock) : Option Flaw :=
  if 23 < c.hour then some .hour
  else if 59 < c.minute then some .minute
  else if 59 < c.second then some .second
  else none

def offsetFlaw? (c : Clock) : Option Flaw :=
  (c.offset.filter fun minutes => 24 * 60 ≤ minutes.natAbs).map .offset

/-- What is wrong first: the zone comes before the day, and the day before the time. -/
def flaw? (m : Moment) : Option Flaw :=
  (m.clock.bind offsetFlaw?).or <|
    if m.year < 1 ∨ 9999 < m.year then some (.year m.year)
    else match (0 :: monthLengths m.year)[m.month]? with
      | none | some 0 => some .month
      | some n => if m.day < 1 ∨ n < m.day then some .day else m.clock.bind clockFlaw?

/-! ### Comparison -/

def daysBefore (year : Nat) : Int :=
  let n : Int := year - 1
  365 * n + n / 4 - n / 100 + n / 400

def daysUntil (year month : Nat) : Nat :=
  ((monthLengths year).take (month - 1)).foldl (· + ·) 0

/-- The number of a day, counted from the first of the calendar. -/
def dayNumber (m : Moment) : Int :=
  daysBefore m.year + daysUntil m.year m.month + m.day

/-- The microseconds since the calendar began, at the offset zero where the zone is known. -/
def instant (m : Moment) : Int :=
  match m.clock with
  | none => 86400000000 * m.dayNumber
  | some c =>
    let minutes : Int := 24 * 60 * m.dayNumber + 60 * c.hour + c.minute - c.offset.getD 0
    1000000 * (60 * minutes + c.second) + c.micro

/-! ### As texts -/

def padded (width n : Nat) : String :=
  let s := Nat.toDigits 10 n
  String.ofList (List.replicate (width - s.length) '0' ++ s)

def kind (m : Moment) : String := if m.clock.isSome then "datetime" else "date"

def offsetText (minutes : Int) : String :=
  (if minutes < 0 then "-" else "+") ++ padded 2 (minutes.natAbs / 60) ++ ":" ++
    padded 2 (minutes.natAbs % 60)

def clockText (c : Clock) : String :=
  padded 2 c.hour ++ ":" ++ padded 2 c.minute ++ ":" ++ padded 2 c.second ++
    (if c.micro = 0 then "" else "." ++ padded 6 c.micro) ++ (c.offset.map offsetText).getD ""

def text (m : Moment) : String :=
  let day := padded 4 m.year ++ "-" ++ padded 2 m.month ++ "-" ++ padded 2 m.day
  match m.clock with
  | none => day
  | some c => day ++ " " ++ clockText c

/-- A span of time: whole days, rounded down, and the seconds beyond them. -/
def spanShown (minutes : Int) : String :=
  let days := minutes / (24 * 60)
  let seconds := 60 * (minutes % (24 * 60))
  let parts := (if days = 0 then [] else ["days=" ++ toString days]) ++
    (if seconds = 0 then [] else ["seconds=" ++ toString seconds])
  "datetime.timedelta(" ++ ", ".intercalate (if parts.isEmpty then ["0"] else parts) ++ ")"

def zoneShown (minutes : Int) : String :=
  if minutes = 0 then "datetime.timezone.utc"
  else "datetime.timezone(" ++ spanShown minutes ++ ")"

/-- The numbers of a moment, without seconds and their parts that are zero at the end. -/
def numbers (m : Moment) : List Nat :=
  [m.year, m.month, m.day] ++ match m.clock with
    | none => []
    | some c => [c.hour, c.minute] ++
      if c.micro ≠ 0 then [c.second, c.micro] else if c.second ≠ 0 then [c.second] else []

def shown (m : Moment) : String :=
  "datetime." ++ m.kind ++ "(" ++ ", ".intercalate (m.numbers.map toString ++
    ((m.clock.bind (·.offset)).map fun minutes => "tzinfo=" ++ zoneShown minutes).toList) ++ ")"

def Flaw.text : Flaw → String
  | year n => "year " ++ toString n ++ " is out of range"
  | month => "month must be in 1..12"
  | day => "day is out of range for month"
  | hour => "hour must be in 0..23"
  | minute => "minute must be in 0..59"
  | second => "second must be in 0..59"
  | offset minutes =>
    "offset must be a timedelta strictly between -timedelta(hours=24) and timedelta(hours=24), not " ++
      spanShown minutes ++ "."

end Moment

end Splice
