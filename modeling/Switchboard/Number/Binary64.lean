import Switchboard.Number.Numeral

/-!
Double-precision numbers as exact values: a finite one is `± m · 2^e`. Decimal numerals are rounded
to the nearest double, a tie going to the even significand, by exact arithmetic on naturals.
-/
namespace Switchboard

/-- A double. Finite values are kept in their canonical form: the significand is below `2^53`, the
exponent at least `-1074`, and the significand at least `2^52` unless the exponent is `-1074`. -/
inductive Binary64 where
  | finite (negative : Bool) (significand : Nat) (exponent : Int)
  | infinity (negative : Bool)
  | nan
deriving DecidableEq, Repr

namespace Binary64

/-- The exponent of the smallest doubles. -/
def minExponent : Int := -1074

/-- The exponent of the largest finite doubles. -/
def maxExponent : Int := 971

/-- Zero, with its sign. -/
def zero (negative : Bool) : Binary64 :=
  .finite negative 0 minExponent

/-- The quotient rounded to the nearest natural, a tie to the even one. -/
def roundedQuotient (num den : Nat) : Nat :=
  let q := num / den
  let twice := 2 * (num % den)
  if twice < den then q
  else if den < twice then q + 1
  else if q % 2 = 0 then q else q + 1

/-- `num / den / 2^e`, rounded. -/
def scaledQuotient (num den : Nat) (e : Int) : Nat :=
  if 0 ≤ e then roundedQuotient num (den * Nat.pow 2 e.toNat)
  else roundedQuotient (num * Nat.pow 2 (-e).toNat) den

/-- The greatest `k` with `2^k ≤ num / den`, for positive naturals. -/
def binaryOrder (num den : Nat) : Int :=
  let k : Int := (num.log2 : Int) - den.log2
  let reached := if 0 ≤ k then den * Nat.pow 2 k.toNat ≤ num else den ≤ num * Nat.pow 2 (-k).toNat
  if reached then k else k - 1

/-- The double nearest to `± num / den`. -/
def ofQuotient (negative : Bool) (num den : Nat) : Binary64 :=
  if num = 0 then zero negative
  else
    let e := max minExponent (binaryOrder num den - 52)
    let m := scaledQuotient num den e
    let (m, e) := if m = Nat.pow 2 53 then (Nat.pow 2 52, e + 1) else (m, e)
    if maxExponent < e then .infinity negative
    else .finite negative m e

/-- The number of digits of a natural. -/
def decimalLength (n : Nat) : Nat :=
  (Nat.toDigits 10 n).length

/-- The double nearest to `± n · 10^scale`. Values above `10^309` and positive ones below `10^-330`
need no arithmetic. -/
def ofDecimal (negative : Bool) (n : Nat) (scale : Int) : Binary64 :=
  if n = 0 then zero negative
  else
    let magnitude := (decimalLength n : Int) + scale
    if 310 < magnitude then .infinity negative
    else if magnitude < -330 then zero negative
    else if 0 ≤ scale then ofQuotient negative (n * Nat.pow 10 scale.toNat) 1
    else ofQuotient negative n (Nat.pow 10 (-scale).toNat)

/-- The double nearest to a numeral. -/
def ofNumeral (n : Numeral) : Binary64 :=
  ofDecimal n.negative n.significand n.scale

/-- Whether the number is zero, of either sign. -/
def isZero : Binary64 → Bool
  | .finite _ m _ => m == 0
  | _ => false

/-- The integer that a finite double equals, if it is one. -/
def toInt? : Binary64 → Option Int
  | .finite negative m e =>
    let signed (n : Nat) : Int := if negative then -(n : Int) else n
    if 0 ≤ e then some (signed (m * Nat.pow 2 e.toNat))
    else if m % Nat.pow 2 (-e).toNat = 0 then some (signed (m / Nat.pow 2 (-e).toNat))
    else none
  | _ => none

/-- Whether an integer is less than a double. -/
def intLess (n : Int) : Binary64 → Bool
  | .finite negative m e =>
    let signed : Int := if negative then -(m : Int) else m
    if 0 ≤ e then n < signed * Nat.pow 2 e.toNat else n * Nat.pow 2 (-e).toNat < signed
  | .infinity negative => ! negative
  | .nan => false

/-- The 64 bits of the number, sign first. -/
def toBits : Binary64 → Nat
  | .finite negative m e =>
    (if negative then Nat.pow 2 63 else 0) +
      (if m < Nat.pow 2 52 then m else (e + 1075).toNat * Nat.pow 2 52 + (m - Nat.pow 2 52))
  | .infinity negative => (if negative then Nat.pow 2 63 else 0) + 0x7FF * Nat.pow 2 52
  | .nan => 0x7FF8 * Nat.pow 2 48

end Binary64
end Switchboard
