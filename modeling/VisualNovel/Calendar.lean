import VisualNovel.Number.Shortest

/-!
Days of the calendar and moments of a day. A moment may know how far its clock is ahead of
universal time; two that do are the same when they are the same instant, and one that does not is
never the same as one that does.
-/

namespace VisualNovel

/-- A day by its numbers, in the calendar that skips three leap days in four centuries. -/
structure Day where
  year : Nat
  month : Nat
  day : Nat
  deriving Repr, DecidableEq

namespace Day

def isLeap (year : Nat) : Bool := year % 4 = 0 && (year % 100 != 0 || year % 400 = 0)

/-- The lengths of the months of a year. -/
def monthLengths (year : Nat) : List Nat :=
  [31, if isLeap year then 29 else 28, 31, 30, 31, 30, 31, 31, 30, 31, 30, 31]

/-- Whether the calendar, which begins with the year 1, has such a day. -/
def isReal (d : Day) : Bool :=
  1 ≤ d.year && 1 ≤ d.month && 1 ≤ d.day &&
    match (monthLengths d.year)[d.month - 1]? with
    | some length => d.day ≤ length
    | none => false

/-- How many days come before this one. -/
def number (d : Day) : Nat :=
  let years := d.year - 1
  365 * years + years / 4 - years / 100 + years / 400 +
    ((monthLengths d.year).take (d.month - 1)).foldl (· + ·) 0 + (d.day - 1)

end Day

/-- A moment by its numbers. The offset is in minutes. -/
structure Moment where
  day : Day
  hour : Nat
  minute : Nat
  second : Nat
  microsecond : Nat := 0
  offset : Option Int := none
  deriving Repr, DecidableEq

namespace Moment

/-- Whether there is such a moment. A clock is less than a day off universal time. -/
def isReal (m : Moment) : Bool :=
  m.day.isReal && m.hour < 24 && m.minute < 60 && m.second < 60 &&
    match m.offset with
    | some minutes => minutes.natAbs < 24 * 60
    | none => true

/-- The seconds that the clock has counted since the first day. -/
def seconds (m : Moment) : Int := 86400 * m.day.number + 3600 * m.hour + 60 * m.minute + m.second

/-- Whether two moments are the same instant. -/
def same (m n : Moment) : Bool :=
  match m.offset, n.offset with
  | none, none => m == n
  | some a, some b =>
    m.seconds - 60 * a == n.seconds - 60 * b && m.microsecond == n.microsecond
  | _, _ => false

end Moment

/-! ### Texts -/

/-- A number in decimal digits, with zeros in front up to a width. -/
def paddedTo (width n : Nat) : String :=
  let ds := Number.digitsOf n
  String.ofList (List.replicate (width - ds.length) '0' ++ ds)

/-- Numbers in parentheses after the name of what they make. -/
def madeOf (name : String) (parts : List String) : String :=
  name ++ "(" ++ String.intercalate ", " parts ++ ")"

namespace Day

def numbers (d : Day) : List String := [d.year, d.month, d.day].map toString

/-- The day as a text by itself. -/
def display (d : Day) : String :=
  paddedTo 4 d.year ++ "-" ++ paddedTo 2 d.month ++ "-" ++ paddedTo 2 d.day

/-- The text of the day inside a list or a mapping. -/
def nested (d : Day) : String := madeOf "datetime.date" d.numbers

end Day

namespace Moment

/-- An offset as hours and minutes after a sign. -/
def offsetText (minutes : Int) : String :=
  let n := minutes.natAbs
  (if minutes < 0 then "-" else "+") ++ paddedTo 2 (n / 60) ++ ":" ++ paddedTo 2 (n % 60)

/-- The moment as a text by itself. -/
def display (m : Moment) : String :=
  m.day.display ++ " " ++ paddedTo 2 m.hour ++ ":" ++ paddedTo 2 m.minute ++ ":" ++
    paddedTo 2 m.second ++
    (if m.microsecond = 0 then "" else "." ++ paddedTo 6 m.microsecond) ++
    (match m.offset with
    | some minutes => offsetText minutes
    | none => "")

/-- The text of an offset inside the text of a moment. One behind universal time is a day back and
    seconds on. -/
def nestedOffset (minutes : Int) : String :=
  let seconds := 60 * minutes
  if minutes = 0 then "datetime.timezone.utc"
  else
    madeOf "datetime.timezone" [madeOf "datetime.timedelta"
      (if seconds < 0 then ["days=-1", s!"seconds={seconds + 86400}"]
      else [s!"seconds={seconds}"])]

/-- The text of the moment inside a list or a mapping. Seconds and their fraction are left out
    where they are zero. -/
def nested (m : Moment) : String :=
  let fraction := if m.microsecond = 0 then [] else [m.microsecond]
  let small := if m.second = 0 ∧ m.microsecond = 0 then [] else m.second :: fraction
  let zone :=
    match m.offset with
    | some minutes => ["tzinfo=" ++ nestedOffset minutes]
    | none => []
  madeOf "datetime.datetime" (m.day.numbers ++ (m.hour :: m.minute :: small).map toString ++ zone)

end Moment

end VisualNovel
