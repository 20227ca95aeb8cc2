import Switchboard.Number.Binary64

/-!
The text of a double: the fewest digits that read back as it, and of those the nearest to it. The
notation is positional for decimal exponents from -4 to 15.
-/
namespace Switchboard.Binary64

/-- The reals that round to a finite double `m · 2^e`, in quarters of its last place: the lower end,
the value itself and the upper end. Below a power of two the doubles lie twice as dense. -/
def roundingInterval (m : Nat) (e : Int) : Nat × Nat × Nat :=
  let lower := if m = Nat.pow 2 52 ∧ minExponent < e then 4 * m - 1 else 4 * m - 2
  (lower, 4 * m, 4 * m + 2)

/-- The `n` digits of the grid point that is nearest to `value / den` among those of the two
neighbouring grid points that lie in the interval, where `unit` is the step of the grid and all
numbers are over the same denominator. -/
def nearestOnGrid? (lower value upper unit : Nat) (closed : Bool) : Option Nat :=
  let inside (x : Nat) : Bool :=
    if closed then lower ≤ x && x ≤ upper else lower < x && x < upper
  let below := value / unit
  let above := if value % unit = 0 then below else below + 1
  let gapBelow := value - below * unit
  let gapAbove := above * unit - value
  match inside (below * unit), inside (above * unit) with
  | true, true =>
    if gapBelow < gapAbove then some below
    else if gapAbove < gapBelow then some above
    else if below % 2 = 0 then some below else some above
  | true, false => some below
  | false, true => some above
  | false, false => none

/-- The largest number of digits that a double needs. -/
def maxDigits : Nat := 17

/-- Tries one digit, two digits and so on, with `fuel` tries left. The result is a number of digits
and the power of ten it is multiplied by. -/
def searchDigits (lower value upper den : Nat) (closed : Bool) (order : Int) :
    Nat → Nat → Nat × Int
  | 0, _ => (0, 0)
  | fuel + 1, count =>
    let power := order - count
    let shift := Nat.pow 10 (-power).toNat
    let unit := den * Nat.pow 10 power.toNat
    match nearestOnGrid? (lower * shift) (value * shift) (upper * shift) unit closed with
    | some digits => (digits, power)
    | none => searchDigits lower value upper den closed order fuel (count + 1)

/-- More decimal places than a double has zeros in front of its first digit. -/
def leadingPlaces : Nat := 400

/-- The shortest decimal `n · 10^p` that reads back as the positive double `m · 2^e`. -/
def shortestDecimal (m : Nat) (e : Int) : Nat × Int :=
  let (lower, value, upper) := roundingInterval m e
  let quarter := e - 2
  let scaleUp := Nat.pow 2 quarter.toNat
  let den := Nat.pow 2 (-quarter).toNat
  let order : Int :=
    decimalLength (value * scaleUp * Nat.pow 10 leadingPlaces / den) - leadingPlaces
  searchDigits (lower * scaleUp) (value * scaleUp) (upper * scaleUp) den (m % 2 == 0) order
    maxDigits 1

/-- Without the zeros at its end. -/
def dropFinalZeros (digits : List Char) : List Char :=
  (digits.reverse.dropWhile (· = '0')).reverse

/-- A positive decimal whose digits are `0.digits · 10^point`. -/
def decimalText (digits : List Char) (point : Int) : List Char :=
  let count : Int := digits.length
  if -4 < point ∧ point ≤ 16 then
    if point ≤ 0 then '0' :: '.' :: List.replicate (-point).toNat '0' ++ digits
    else if count ≤ point then
      digits ++ List.replicate (point - count).toNat '0' ++ ['.', '0']
    else digits.take point.toNat ++ '.' :: digits.drop point.toNat
  else
    let exponent := point - 1
    let exponentDigits := Nat.toDigits 10 exponent.natAbs
    digits.take 1 ++ (if count = 1 then [] else '.' :: digits.drop 1) ++
      ['e', if exponent < 0 then '-' else '+'] ++
      (if exponentDigits.length < 2 then ['0'] else []) ++ exponentDigits

def magnitudeText (m : Nat) (e : Int) : List Char :=
  if m = 0 then ['0', '.', '0']
  else
    let (n, power) := shortestDecimal m e
    let digits := Nat.toDigits 10 n
    decimalText (dropFinalZeros digits) (digits.length + power)

def text : Binary64 → String
  | .finite negative m e =>
    String.ofList ((if negative then ['-'] else []) ++ magnitudeText m e)
  | .infinity negative => if negative then "-inf" else "inf"
  | .nan => "nan"

end Switchboard.Binary64
