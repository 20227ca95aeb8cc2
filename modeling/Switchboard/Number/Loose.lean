import Switchboard.Number.Numeral
import Switchboard.Text.Segment

/-!
Loosely written whole numbers, as settings may give them: white space and a plus sign around the
digits, zeros in front of them, a point and zeros behind them, and single underscores between them.
-/
namespace Switchboard.Loose

/-- The number of characters that may be left of a whole number after it was tidied. -/
def maxLength : Nat := 4300

/-- Whether a character starts what counts of a number: a digit that is not zero, or a minus. -/
def isLeading (c : Char) : Bool :=
  ('1' ≤ c && c ≤ '9') || c == '-'

/-- What is left after further zeros and underscores, of which `last` was the last one. Where
nothing else follows it is that character; in front of a point it stays. -/
def afterZeros? (last : Char) : List Char → Option (List Char)
  | [] => some [last]
  | c :: rest =>
    if c = '0' ∨ c = '_' then afterZeros? c rest
    else if isLeading c then some (c :: rest)
    else if c = '.' then some (last :: '.' :: rest)
    else none

/-- A number without the zeros in front of it; underscores may stand among the zeros. -/
def withoutLeadingZeros? : List Char → Option (List Char)
  | [] => none
  | c :: rest =>
    if c = '0' then afterZeros? c rest
    else if isLeading c then some (c :: rest)
    else none

/-- A number without its plus sign, which does not stand in front of a minus. -/
def withoutPlus? : List Char → Option (List Char)
  | '+' :: '-' :: _ => none
  | '+' :: rest => some rest
  | cs => some cs

/-- A number without a point and the zeros that follow it, of which there is at least one. -/
def withoutZeroFraction (cs : List Char) : List Char :=
  match Text.cut '.' cs with
  | (whole, some (zero :: zeros)) => if (zero :: zeros).all (· == '0') then whole else cs
  | _ => cs

/-- Whether two underscores follow each other. -/
def hasDoubleMark : List Char → Bool
  | '_' :: '_' :: _ => true
  | _ :: rest => hasDoubleMark rest
  | [] => false

/-- A number without its underscores, which stand one by one and at neither end. -/
def withoutMarks? (cs : List Char) : Option (List Char) :=
  if cs.head? = some '_' ∨ cs.getLast? = some '_' ∨ hasDoubleMark cs then none
  else some (cs.filter (· ≠ '_'))

/-- A minus sign, if there is one, and what follows it. -/
def splitMinus : List Char → List Char × List Char
  | '-' :: rest => (['-'], rest)
  | cs => ([], cs)

/-- Splitting the sign off loses nothing. -/
theorem splitMinus_append (cs : List Char) : (splitMinus cs).1 ++ (splitMinus cs).2 = cs := by
  unfold splitMinus
  split <;> rfl

/-- Whether digits are written without needless zeros in front. -/
def isPlain (digits : List Char) : Bool :=
  digits = ['0'] || (digits.all Char.isDigit && digits.head?.any (· ≠ '0'))

/-- The number that plain digits after an optional minus sign spell. -/
def plainWhole? (cs : List Char) : Option Int :=
  let (minus, digits) := splitMinus cs
  if ¬ isPlain digits ∨ maxLength < cs.length then none
  else
    let size : Int := digitsValue (digits.map fun c => c.toNat - '0'.toNat)
    some (if minus = [] then size else -size)

/-- The whole number that a text spells loosely. Zeros and underscores are dropped behind the sign,
so that no underscore may follow it directly. -/
def whole? (s : String) : Option Int := do
  let signed ← withoutPlus? (Text.trimWhiteSpace s.toList)
  let (minus, unsigned) := splitMinus signed
  let marked ← withoutLeadingZeros? unsigned
  let plain ← withoutMarks? (withoutZeroFraction marked)
  plainWhole? (minus ++ plain)

end Switchboard.Loose
