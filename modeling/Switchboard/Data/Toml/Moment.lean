import Switchboard.Data.Toml.Scalar

/-!
The dates and times of TOML.
-/
namespace Switchboard.Toml

/-- Reads two digits that spell a number within bounds. -/
def readPair (low high : Nat) : List Char → Option (Nat × List Char)
  | a :: b :: rest =>
    let n := inBase 10 [a, b]
    if a.isDigit ∧ b.isDigit ∧ low ≤ n ∧ n ≤ high then some (n, rest) else none
  | _ => none

def readMark (mark : Char) : List Char → Option (List Char)
  | [] => none
  | c :: rest => if c = mark then some rest else none

/-- Reads a day, which the calendar need not have. -/
def readDay : List Char → Option (Day × List Char)
  | a :: b :: c :: d :: rest => do
    if ¬ [a, b, c, d].all Char.isDigit then none
    let (month, rest) ← readPair 1 12 (← readMark '-' rest)
    let (day, rest) ← readPair 1 31 (← readMark '-' rest)
    return ({ year := inBase 10 [a, b, c, d], month, day }, rest)
  | _ => none

/-- The microseconds that the digits behind the point of a second spell; further digits mean
nothing. -/
def microseconds (digits : List Char) : Nat :=
  inBase 10 ((digits ++ List.replicate 6 '0').take 6)

/-- Reads the fraction of a second, if there is one. -/
def readMicroseconds : List Char → Nat × List Char
  | '.' :: rest =>
    match Json.asciiDigits rest with
    | ([], _) => (0, '.' :: rest)
    | (digits, after) => (microseconds digits, after)
  | cs => (0, cs)

/-- Reads a time of day. -/
def readClock (cs : List Char) : Option (Clock × List Char) := do
  let (hour, rest) ← readPair 0 23 cs
  let (minute, rest) ← readPair 0 59 (← readMark ':' rest)
  let (second, rest) ← readPair 0 59 (← readMark ':' rest)
  let (microsecond, rest) := readMicroseconds rest
  return ({ hour, minute, second, microsecond }, rest)

def readOffsetSize (cs : List Char) : Option (Nat × List Char) := do
  let (hours, rest) ← readPair 0 23 cs
  let (minutes, rest) ← readPair 0 59 (← readMark ':' rest)
  return (60 * hours + minutes, rest)

/-- Reads the offset of a time zone, if there is one. -/
def readOffset (cs : List Char) : Option Int × List Char :=
  match cs with
  | [] => (none, [])
  | c :: rest =>
    if c = 'Z' ∨ c = 'z' then (some 0, rest)
    else if c = '+' ∨ c = '-' then
      match readOffsetSize rest with
      | none => (none, cs)
      | some (size, after) => (some (if c = '-' then -size else size), after)
    else (none, cs)

/-- Reads the time that follows a day, if there is one. -/
def readTimeOf (day : Day) (cs : List Char) : Moment × List Char :=
  match cs with
  | [] => (.date day, [])
  | c :: rest =>
    if c = 'T' ∨ c = 't' ∨ c = ' ' then
      match readClock rest with
      | none => (.date day, cs)
      | some (clock, after) =>
        let (offset, after) := readOffset after
        (.both day clock offset, after)
    else (.date day, cs)

/-- Reads a date or a time, if a text starts like one. A day that the calendar does not have is not
valid. -/
def readMoment? (cs : List Char) : Option (Reading Document) :=
  match readDay cs with
  | some (day, rest) =>
    let (found, after) := readTimeOf day rest
    some (if day.isValid then .ok (.moment found, after) else .error .malformed)
  | none => (readClock cs).map fun (clock, after) => .ok (.moment (.time clock), after)

end Switchboard.Toml
