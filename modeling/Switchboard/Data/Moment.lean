/-!
Moments: dates, times of day, and both together, with or without the offset of a time zone; and how
they are written.
-/
namespace Switchboard

/-- A day of the calendar. -/
structure Day where
  year : Nat
  month : Nat
  day : Nat
deriving DecidableEq, Repr

/-- A time of day. -/
structure Clock where
  hour : Nat
  minute : Nat
  second : Nat
  microsecond : Nat := 0
deriving DecidableEq, Repr

/-- A day, a time of day, or a time on a day; `offset` is the number of minutes by which its time
zone is ahead of universal time. -/
inductive Moment where
  | date (day : Day)
  | time (clock : Clock)
  | both (day : Day) (clock : Clock) (offset : Option Int)
deriving DecidableEq, Repr

/-- A number with zeros in front up to a width. -/
def paddedNumber (width n : Nat) : String :=
  let digits := Nat.toDigits 10 n
  String.ofList (List.replicate (width - digits.length) '0' ++ digits)

namespace Day

/-- Whether a year has a day more in February. -/
def isLeapYear (year : Nat) : Bool :=
  year % 4 = 0 && (year % 100 ≠ 0 || year % 400 = 0)

def daysIn (year month : Nat) : Nat :=
  if month = 2 then if isLeapYear year then 29 else 28
  else if month ∈ [4, 6, 9, 11] then 30
  else 31

/-- Whether the calendar has the day; it begins with the year one. -/
def isValid (day : Day) : Bool :=
  0 < day.year && 0 < day.month && day.month ≤ 12 && 0 < day.day &&
    day.day ≤ daysIn day.year day.month

def text (day : Day) : String :=
  paddedNumber 4 day.year ++ "-" ++ paddedNumber 2 day.month ++ "-" ++ paddedNumber 2 day.day

def numbers (day : Day) : List Nat :=
  [day.year, day.month, day.day]

end Day

namespace Clock

/-- How a time of day is written. -/
def text (clock : Clock) : String :=
  let fraction :=
    if clock.microsecond = 0 then "" else "." ++ paddedNumber 6 clock.microsecond
  paddedNumber 2 clock.hour ++ ":" ++ paddedNumber 2 clock.minute ++ ":" ++
    paddedNumber 2 clock.second ++ fraction

/-- The numbers of a time of day; seconds and microseconds that say nothing are left out. -/
def numbers (clock : Clock) : List Nat :=
  [clock.hour, clock.minute] ++
    (if clock.microsecond ≠ 0 then [clock.second, clock.microsecond]
    else if clock.second ≠ 0 then [clock.second]
    else [])

end Clock

namespace Moment

def offsetText (minutes : Int) : String :=
  let size := minutes.natAbs
  (if minutes < 0 then "-" else "+") ++ paddedNumber 2 (size / 60) ++ ":" ++
    paddedNumber 2 (size % 60)

/-- How the time zone of an offset is written inside a message. A negative offset is written as a
day less and the seconds that are too much. -/
def zoneLiteral (minutes : Int) : String :=
  if minutes = 0 then "datetime.timezone.utc"
  else
    let length :=
      if minutes < 0 then "days=-1, seconds=" ++ toString (86400 + 60 * minutes)
      else "seconds=" ++ toString (60 * minutes)
    "datetime.timezone(datetime.timedelta(" ++ length ++ "))"

/-- How a moment is written on its own. -/
def text : Moment → String
  | .date day => day.text
  | .time clock => clock.text
  | .both day clock offset => day.text ++ " " ++ clock.text ++ offset.elim "" offsetText

/-- Numbers with commas between them. -/
def listed (numbers : List Nat) : String :=
  ", ".intercalate (numbers.map toString)

/-- How a moment is written inside a message. -/
def literal : Moment → String
  | .date day => "datetime.date(" ++ listed day.numbers ++ ")"
  | .time clock => "datetime.time(" ++ listed clock.numbers ++ ")"
  | .both day clock offset =>
    "datetime.datetime(" ++ listed (day.numbers ++ clock.numbers) ++
      offset.elim "" (fun minutes => ", tzinfo=" ++ zoneLiteral minutes) ++ ")"

/-- What kind of a moment it is, as messages name it. -/
def typeName : Moment → String
  | .date _ => "date"
  | .time _ => "time"
  | .both .. => "datetime"

end Moment
end Switchboard
