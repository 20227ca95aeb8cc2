import Switchboard.Text.Blank
import Switchboard.Text.Digit

/-!
Decimal numerals: how whole numbers and decimal fractions are written, with the digits of any
script.
-/
namespace Switchboard

/-- The number that a row of digits spells, most significant digit first. -/
def digitsValue (digits : List Nat) : Nat :=
  digits.foldl (fun n d => 10 * n + d) 0

/-- The longest row of decimal digits that starts a text, and what follows it. -/
def readDigits : List Char → List Nat × List Char
  | [] => ([], [])
  | c :: rest =>
    match Text.digitValue? c with
    | some d =>
      let (digits, after) := readDigits rest
      (d :: digits, after)
    | none => ([], c :: rest)

/-- A sign in front of a numeral; `true` stands for minus. -/
def readSign : List Char → Bool × List Char
  | '-' :: rest => (true, rest)
  | '+' :: rest => (false, rest)
  | cs => (false, cs)

/-- A decimal fraction as it is written: sign, digits before and after the point, exponent. -/
structure Numeral where
  negative : Bool := false
  whole : List Nat
  fraction : List Nat := []
  exponent : Int := 0
deriving DecidableEq, Repr

namespace Numeral

/-- The digits of the numeral without its point, read as one number. -/
def significand (n : Numeral) : Nat :=
  digitsValue (n.whole ++ n.fraction)

/-- The power of ten that the significand is multiplied by. -/
def scale (n : Numeral) : Int :=
  n.exponent - n.fraction.length

/-- Digits with an optional point, at least one digit on either side of it, and what follows. -/
def readMantissa? (cs : List Char) : Option (List Nat × List Nat × List Char) :=
  match readDigits cs with
  | ([], '.' :: rest) =>
    match readDigits rest with
    | ([], _) => none
    | (fraction, after) => some ([], fraction, after)
  | ([], _) => none
  | (whole, '.' :: rest) =>
    let (fraction, after) := readDigits rest
    some (whole, fraction, after)
  | (whole, after) => some (whole, [], after)

/-- The exponent that a text consists of: nothing at all, or `e` with an optional sign and
digits. -/
def exponent? : List Char → Option Int
  | [] => some 0
  | e :: rest =>
    if e = 'e' ∨ e = 'E' then
      match readDigits (readSign rest).2 with
      | ([], _) => none
      | (digits, []) =>
        let size : Int := digitsValue digits
        some (if (readSign rest).1 then -size else size)
      | (_, _ :: _) => none
    else none

/-- Reads a whole text as a numeral that has no sign. -/
def unsigned? (cs : List Char) : Option Numeral :=
  match readMantissa? cs with
  | none => none
  | some (whole, fraction, rest) =>
    (exponent? rest).map fun exponent => { whole, fraction, exponent }

/-- Reads a whole text as a numeral with an optional sign. -/
def signed? (cs : List Char) : Option Numeral :=
  (unsigned? (readSign cs).2).map fun n => { n with negative := (readSign cs).1 }

end Numeral

/-- The number of digits that a whole number may be written with. -/
def wholeNumberDigits : Nat := 4300

/-- Whether a whole number is written with no more digits than one may have; its sign is none. -/
def hasWritableDigits (n : Int) : Bool :=
  n.natAbs < Nat.pow 10 wholeNumberDigits

/-- Why a text spells no whole number. -/
inductive WholeFault where
  /-- It is not written as one. -/
  | malformed
  /-- It starts with more digits than a whole number may have. -/
  | tooLong (digits : Nat)
deriving DecidableEq, Repr

namespace WholeFault

/-- What is said about too many digits, with what is known about their number. -/
def limitMessage (detail : String) : String :=
  "Exceeds the limit (" ++ toString wholeNumberDigits ++
    " digits) for integer string conversion" ++ detail ++
    "; use sys.set_int_max_str_digits() to increase the limit"

/-- What is said about a row of too many digits. -/
def lengthMessage (digits : Nat) : String :=
  limitMessage (": value has " ++ toString digits ++ " digits")

end WholeFault

/-- The digits that start a text, with single underscores between them, and what follows. There
must be a digit, and no underscore may follow the row. -/
def readGrouped? : List Char → Option (List Nat × List Char)
  | [] => none
  | c :: '_' :: rest => do
    let digit ← Text.digitValue? c
    let (digits, after) ← readGrouped? rest
    return (digit :: digits, after)
  | c :: rest =>
    match Text.digitValue? c, rest with
    | none, _ => none
    | some digit, [] => some ([digit], [])
    | some digit, next :: _ =>
      if Text.isDecimalDigit next then
        (readGrouped? rest).map fun (digits, after) => (digit :: digits, after)
      else some ([digit], rest)

/-- The whole number that a text spells, white space around it and a sign allowed. Too long a row of
digits is a fault of its own, whatever follows it. -/
def readWholeNumber (s : String) : Except WholeFault Int :=
  let (negative, cs) := readSign (Text.trimWhiteSpace s.toList)
  match readGrouped? cs with
  | none => .error .malformed
  | some (digits, after) =>
    if wholeNumberDigits < digits.length then .error (.tooLong digits.length)
    else if after ≠ [] then .error .malformed
    else
      let size : Int := digitsValue digits
      .ok (if negative then -size else size)

/-- The whole number that a text spells, if it spells one. -/
def wholeNumber? (s : String) : Option Int :=
  (readWholeNumber s).toOption

end Switchboard
