import Mathlib.Algebra.Order.Field.Power
import Mathlib.Algebra.Order.Field.Rat
import Mathlib.Tactic.FieldSimp
import Mathlib.Tactic.Linarith
import Mathlib.Tactic.NormNum
import Mathlib.Tactic.Positivity
import Mathlib.Tactic.Ring
import Switchboard.Number.Shortest

/-!
Numerals that round to a double: every rational in the rounding interval of a double is read as
that double.
-/
namespace Switchboard

/-- Whether a value lies between two others, which count as between themselves if the interval is
closed. -/
def Within {α : Type} [LE α] [LT α] (closed : Bool) (lower value upper : α) : Prop :=
  if closed then lower ≤ value ∧ value ≤ upper else lower < value ∧ value < upper

namespace Within

section Order

variable {α : Type} [LinearOrder α] {closed : Bool} {lower value upper : α}

theorem of_lt (above : lower < value) (below : value < upper) :
    Within closed lower value upper := by
  unfold Within
  split
  · exact ⟨above.le, below.le⟩
  · exact ⟨above, below⟩

theorem lower_le (within : Within closed lower value upper) : lower ≤ value := by
  unfold Within at within
  split at within
  · exact within.1
  · exact within.1.le

theorem le_upper (within : Within closed lower value upper) : value ≤ upper := by
  unfold Within at within
  split at within
  · exact within.2
  · exact within.2.le

theorem mono_lower {least : α} (within : Within closed lower value upper) (more : least ≤ lower) :
    Within closed least value upper := by
  unfold Within at within ⊢
  split at within
  · rename_i closed
    rw [if_pos closed]
    exact ⟨more.trans within.1, within.2⟩
  · rename_i closed
    rw [if_neg closed]
    exact ⟨more.trans_lt within.1, within.2⟩

end Order

variable {closed : Bool} {lower value upper : ℚ}

/-- An interval may be stretched. -/
theorem scale_iff {factor : ℚ} (positive : 0 < factor) :
    Within closed (lower * factor) (value * factor) (upper * factor) ↔
      Within closed lower value upper := by
  unfold Within
  rw [mul_le_mul_iff_left₀ positive, mul_le_mul_iff_left₀ positive, mul_lt_mul_iff_left₀ positive,
    mul_lt_mul_iff_left₀ positive]

theorem add_iff {shift : ℚ} :
    Within closed (lower + shift) (value + shift) (upper + shift) ↔
      Within closed lower value upper := by
  unfold Within
  rw [add_le_add_iff_right, add_le_add_iff_right, add_lt_add_iff_right, add_lt_add_iff_right]

/-- An interval of naturals is one of rationals. -/
theorem cast_iff {lower value upper : Nat} :
    Within closed (lower : ℚ) value upper ↔ Within closed lower value upper := by
  unfold Within
  simp only [Nat.cast_le, Nat.cast_lt]

end Within

namespace Binary64

/-- A power of two is one of naturals, upstairs or downstairs. -/
theorem zpow_eq_div (base : Nat) (e : Int) :
    (base : ℚ) ^ e = (Nat.pow base e.toNat : Nat) / (Nat.pow base (-e).toNat : Nat) := by
  rcases Int.le_total 0 e with whole | part
  · obtain ⟨k, rfl⟩ := Int.eq_ofNat_of_zero_le whole
    simp
  · obtain ⟨k, same⟩ := Int.eq_ofNat_of_zero_le (Int.neg_nonneg.mpr part)
    obtain rfl : e = -(k : Int) := by omega
    simp

/-! ### Rounding a quotient -/

theorem roundedQuotient_eq_of_mul {num den m : Nat} (positive : 0 < den)
    (near : Within (m % 2 == 0) (2 * (m * den)) (2 * num + den) (2 * (m * den) + 2 * den)) :
    roundedQuotient num den = m := by
  have parts : den * (num / den) + num % den = num := Nat.div_add_mod num den
  have left : num % den < den := Nat.mod_lt num positive
  have above := near.lower_le
  have below := near.le_upper
  have notMore : num / den ≤ m := by
    by_contra more
    have := Nat.mul_le_mul_left den (Nat.lt_of_not_le more)
    rw [Nat.mul_succ, Nat.mul_comm den m] at this
    omega
  have notLess : m ≤ num / den + 1 := by
    by_contra less
    have := Nat.mul_le_mul_left den (Nat.lt_of_not_le less)
    rw [Nat.mul_succ, Nat.mul_succ, Nat.mul_comm den m] at this
    omega
  unfold roundedQuotient
  rcases Nat.lt_or_eq_of_le notMore with less | same
  · obtain same : m = num / den + 1 := by omega
    have value : m * den = den * (num / den) + den := by
      rw [same, Nat.mul_comm, Nat.mul_succ]
    have half : den ≤ 2 * (num % den) := by omega
    rw [if_neg (Nat.not_lt.mpr half)]
    by_cases tie : den = 2 * (num % den)
    · have even : m % 2 = 0 := by
        by_contra odd
        rw [Within, if_neg (by simpa using odd)] at near
        omega
      rw [if_neg (by omega), if_neg (by omega), same]
    · rw [if_pos (by omega), same]
  · have value : m * den = den * (num / den) := by rw [← same, Nat.mul_comm]
    by_cases tie : 2 * (num % den) = den
    · have even : m % 2 = 0 := by
        by_contra odd
        rw [Within, if_neg (by simpa using odd)] at near
        omega
      rw [if_neg (by omega), if_neg (by omega), if_pos (by omega), same]
    · rw [if_pos (by omega), same]

/-- A quotient is rounded to the natural that it reaches, and does not pass, when a half is added.
-/
theorem roundedQuotient_eq {num den m : Nat} (positive : 0 < den)
    (near : Within (m % 2 == 0) (m : ℚ) (num / den + 1 / 2) (m + 1)) :
    roundedQuotient num den = m := by
  have divisor : (den : ℚ) ≠ 0 := by exact_mod_cast positive.ne'
  have twice : (0 : ℚ) < 2 * den := by positivity
  have low : (m : ℚ) * (2 * den) = (2 * (m * den) : Nat) := by
    push_cast
    ring
  have middle : ((num : ℚ) / den + 1 / 2) * (2 * den) = (2 * num + den : Nat) := by
    push_cast
    field_simp
  have high : ((m : ℚ) + 1) * (2 * den) = (2 * (m * den) + 2 * den : Nat) := by
    push_cast
    ring
  rw [← Within.scale_iff twice, low, middle, high, Within.cast_iff] at near
  exact roundedQuotient_eq_of_mul positive near

/-- A scaled quotient is a quotient of naturals as well. -/
theorem exists_scaledQuotient_eq (num : Nat) {den : Nat} (positive : 0 < den) (e : Int) :
    ∃ num' den' : Nat, 0 < den' ∧ (num' : ℚ) / den' = num / den / 2 ^ e ∧
      scaledQuotient num den e = roundedQuotient num' den' := by
  have power : (2 : ℚ) ^ e = (Nat.pow 2 e.toNat : Nat) / (Nat.pow 2 (-e).toNat : Nat) :=
    zpow_eq_div 2 e
  rcases Int.lt_or_le e 0 with part | whole
  · have nothing : e.toNat = 0 := by omega
    refine ⟨num * Nat.pow 2 (-e).toNat, den, positive, ?_, if_neg (Int.not_le.mpr part)⟩
    rw [power, nothing]
    push_cast
    field_simp
    simp
  · have nothing : (-e).toNat = 0 := by omega
    refine ⟨num, den * Nat.pow 2 e.toNat, Nat.mul_pos positive (Nat.pow_pos (by decide)), ?_,
      if_pos whole⟩
    rw [power, nothing]
    push_cast
    field_simp
    simp

theorem scaledQuotient_eq {num den m : Nat} {e : Int} (positive : 0 < den)
    (near : Within (m % 2 == 0) (m : ℚ) ((num : ℚ) / den / 2 ^ e + 1 / 2) (m + 1)) :
    scaledQuotient num den e = m := by
  obtain ⟨num', den', positive', quotient, rounded⟩ :=
    exists_scaledQuotient_eq num positive e
  rw [← quotient] at near
  exact rounded.trans (roundedQuotient_eq positive' near)

/-! ### The order of a quotient -/

theorem two_pow_log2_le {n : Nat} (some : n ≠ 0) :
    (2 : ℚ) ^ (n.log2 : Int) ≤ n ∧ (n : ℚ) < 2 ^ ((n.log2 : Int) + 1) := by
  have low : 2 ^ n.log2 ≤ n := Nat.log2_self_le some
  have high : n < 2 ^ (n.log2 + 1) := Nat.lt_log2_self
  constructor
  · rw [zpow_natCast]
    exact_mod_cast low
  · have : ((n.log2 : Int) + 1) = ((n.log2 + 1 : Nat) : Int) := by push_cast; rfl
    rw [this, zpow_natCast]
    exact_mod_cast high

/-- The order of a quotient is the greatest power of two that it reaches. -/
theorem binaryOrder_spec {num den : Nat} (some : num ≠ 0) (positive : 0 < den) :
    (2 : ℚ) ^ binaryOrder num den ≤ num / den ∧
      (num : ℚ) / den < 2 ^ (binaryOrder num den + 1) := by
  obtain ⟨numLow, numHigh⟩ := two_pow_log2_le some
  obtain ⟨denLow, denHigh⟩ := two_pow_log2_le positive.ne'
  have divisor : (0 : ℚ) < den := by exact_mod_cast positive
  set k : Int := (num.log2 : Int) - den.log2 with order
  have low : (2 : ℚ) ^ (k - 1) ≤ num / den := by
    rw [le_div_iff₀ divisor]
    calc (2 : ℚ) ^ (k - 1) * den ≤ 2 ^ (k - 1) * 2 ^ ((den.log2 : Int) + 1) := by gcongr
      _ = 2 ^ (num.log2 : Int) := by
        rw [← zpow_add₀ two_ne_zero]
        congr 1
        omega
      _ ≤ num := numLow
  have high : (num : ℚ) / den < 2 ^ (k + 1) := by
    rw [div_lt_iff₀ divisor]
    calc (num : ℚ) < 2 ^ ((num.log2 : Int) + 1) := numHigh
      _ = 2 ^ (k + 1) * 2 ^ (den.log2 : Int) := by
        rw [← zpow_add₀ two_ne_zero]
        congr 1
        omega
      _ ≤ 2 ^ (k + 1) * den := by gcongr
  have reached : (if 0 ≤ k then den * Nat.pow 2 k.toNat ≤ num
      else den ≤ num * Nat.pow 2 (-k).toNat) ↔ (2 : ℚ) ^ k ≤ num / den := by
    have value : (2 : ℚ) ^ k = (Nat.pow 2 k.toNat : Nat) / (Nat.pow 2 (-k).toNat : Nat) :=
      zpow_eq_div 2 k
    rw [le_div_iff₀ divisor, value]
    split
    · rename_i whole
      have nothing : (-k).toNat = 0 := by omega
      rw [nothing, ← Nat.cast_le (α := ℚ)]
      push_cast
      simp [mul_comm]
    · rename_i part
      have nothing : k.toNat = 0 := by omega
      have power : (0 : ℚ) < (Nat.pow 2 (-k).toNat : Nat) := by
        exact_mod_cast Nat.pow_pos (by decide)
      rw [nothing, div_mul_eq_mul_div, div_le_iff₀ power, ← Nat.cast_le (α := ℚ)]
      push_cast
      simp
  by_cases yes : (2 : ℚ) ^ k ≤ num / den
  · have value : binaryOrder num den = k := if_pos (reached.mpr yes)
    rw [value]
    exact ⟨yes, high⟩
  · have value : binaryOrder num den = k - 1 := if_neg (yes ∘ reached.mp)
    rw [value, sub_add_cancel]
    exact ⟨low, lt_of_not_ge yes⟩

/-! ### The double of a quotient -/

/-- The form in which finite doubles are kept. -/
structure Canonical (m : Nat) (e : Int) : Prop where
  small : m < 2 ^ 53
  least : minExponent ≤ e
  most : e ≤ maxExponent
  full : 2 ^ 52 ≤ m ∨ e = minExponent

/-- The rationals that are read as `m · 2^e`. -/
def RoundsTo (v : ℚ) (m : Nat) (e : Int) : Prop :=
  Within (m % 2 == 0) ((roundingInterval m e).1 * (2 : ℚ) ^ (e - 2)) v
    ((roundingInterval m e).2.2 * (2 : ℚ) ^ (e - 2))

theorem le_lower {m : Nat} (e : Int) (some : m ≠ 0) :
    (4 * m - 2 : ℚ) ≤ (roundingInterval m e).1 := by
  unfold roundingInterval
  dsimp only
  split
  · rw [Nat.cast_sub (by omega)]
    push_cast
    linarith
  · rw [Nat.cast_sub (by omega)]
    push_cast
    linarith

/-- A power of two in quarters of the last place. -/
theorem zpow_eq_quarters {e k : Int} {n : Nat} (sum : k = e - 2 + n) :
    (2 : ℚ) ^ k = 2 ^ n * 2 ^ (e - 2) := by
  rw [sum, zpow_add₀ two_ne_zero, zpow_natCast, mul_comm]

namespace RoundsTo

variable {v : ℚ} {m : Nat} {e : Int}

theorem lower_le (rounds : RoundsTo v m e) : (roundingInterval m e).1 * (2 : ℚ) ^ (e - 2) ≤ v :=
  Within.lower_le rounds

theorem le_upper (rounds : RoundsTo v m e) : v ≤ (4 * m + 2) * (2 : ℚ) ^ (e - 2) := by
  refine (Within.le_upper rounds).trans_eq ?_
  simp [roundingInterval]

theorem two_zpow_le (rounds : RoundsTo v m e) (some : m ≠ 0) : (2 : ℚ) ^ (e - 1) ≤ v := by
  have step : (0 : ℚ) < 2 ^ (e - 2) := by positivity
  have size : (1 : ℚ) ≤ m := by exact_mod_cast Nat.one_le_iff_ne_zero.mpr some
  have low := le_lower e some
  rw [zpow_eq_quarters (by omega : e - 1 = e - 2 + (1 : Nat))]
  refine le_trans ?_ rounds.lower_le
  exact mul_le_mul_of_nonneg_right (by linarith) step.le

theorem pos (rounds : RoundsTo v m e) (some : m ≠ 0) : 0 < v :=
  lt_of_lt_of_le (by positivity) (rounds.two_zpow_le some)

/-- What is read as a double rounds to its significand at its exponent. -/
theorem within (rounds : RoundsTo v m e) (some : m ≠ 0) :
    Within (m % 2 == 0) (m : ℚ) (v / 2 ^ e + 1 / 2) (m + 1) := by
  have positive : (0 : ℚ) < 2 ^ (e - 2) := by positivity
  have whole : (0 : ℚ) < 2 ^ e := by positivity
  have quarters : (2 : ℚ) ^ e = 2 ^ 2 * 2 ^ (e - 2) := zpow_eq_quarters (by omega)
  have low : (m : ℚ) * 2 ^ e = (4 * m - 2) * 2 ^ (e - 2) + 2 * 2 ^ (e - 2) := by
    rw [quarters]
    ring
  have middle : (v / 2 ^ e + 1 / 2) * 2 ^ e = v + 2 * 2 ^ (e - 2) := by
    rw [add_mul, div_mul_cancel₀ _ whole.ne', quarters]
    ring
  have high : ((m : ℚ) + 1) * 2 ^ e =
      (roundingInterval m e).2.2 * 2 ^ (e - 2) + 2 * 2 ^ (e - 2) := by
    rw [quarters, roundingInterval]
    push_cast
    ring
  rw [← Within.scale_iff whole, low, middle, high, Within.add_iff]
  refine Within.mono_lower rounds ?_
  exact mul_le_mul_of_nonneg_right (le_lower e some) positive.le

theorem lt_zpow (rounds : RoundsTo v m e) (small : m < 2 ^ 53) : v < (2 : ℚ) ^ (e + 53) := by
  have positive : (0 : ℚ) < 2 ^ (e - 2) := by positivity
  have bound : (m : ℚ) + 1 ≤ 2 ^ 53 := by exact_mod_cast small
  rw [zpow_eq_quarters (by omega : e + 53 = e - 2 + (55 : Nat))]
  refine rounds.le_upper.trans_lt (mul_lt_mul_of_pos_right ?_ positive)
  linarith

/-- What is read as a double that is not subnormal, and lies below its binade, lies just below a
power of two. -/
theorem eq_power_of_lt (rounds : RoundsTo v m e) (canonical : Canonical m e)
    (more : minExponent < e) (less : v < (2 : ℚ) ^ (e + 52)) :
    m = 2 ^ 52 ∧ ((2 : ℚ) ^ 54 - 1) * 2 ^ (e - 2) ≤ v := by
  have step : (0 : ℚ) < 2 ^ (e - 2) := by positivity
  have low : (roundingInterval m e).1 < (2 : ℚ) ^ 54 := by
    rw [zpow_eq_quarters (by omega : e + 52 = e - 2 + (54 : Nat))] at less
    exact lt_of_mul_lt_mul_right (rounds.lower_le.trans_lt less) step.le
  have small : (roundingInterval m e).1 < 2 ^ 54 := by exact_mod_cast low
  have full : 2 ^ 52 ≤ m := canonical.full.resolve_right more.ne'
  have power : m = 2 ^ 52 := by
    by_contra other
    have interval : (roundingInterval m e).1 = 4 * m - 2 := if_neg fun both => other both.1
    omega
  subst power
  have interval : (roundingInterval (2 ^ 52) e).1 = 2 ^ 54 - 1 := if_pos ⟨rfl, more⟩
  refine ⟨rfl, le_trans (le_of_eq ?_) rounds.lower_le⟩
  rw [interval, Nat.cast_sub (by decide)]
  norm_num

end RoundsTo

variable {num den m : Nat} {e : Int}

/-- What fits into the exponents of doubles is finite. -/
def bounded (negative : Bool) (m : Nat) (e : Int) : Binary64 :=
  if maxExponent < e then .infinity negative else .finite negative m e

theorem bounded_of_le (most : e ≤ maxExponent) (negative : Bool) :
    bounded negative m e = .finite negative m e :=
  if_neg (Int.not_lt.mpr most)

/-- A quotient that is rounded to less than the next power of two. -/
theorem ofQuotient_of_scaled (some : num ≠ 0)
    (scale : max minExponent (binaryOrder num den - 52) = e)
    (rounded : scaledQuotient num den e = m) (small : m ≠ 2 ^ 53) (negative : Bool) :
    ofQuotient negative num den = bounded negative m e := by
  subst scale rounded
  have plain : scaledQuotient num den (max minExponent (binaryOrder num den - 52)) ≠
      Nat.pow 2 53 := small
  unfold ofQuotient
  dsimp only
  rw [if_neg some, if_neg plain]
  rfl

/-- A quotient that is rounded up to the next power of two. -/
theorem ofQuotient_of_carry (some : num ≠ 0)
    (scale : max minExponent (binaryOrder num den - 52) = e)
    (rounded : scaledQuotient num den e = 2 ^ 53) (negative : Bool) :
    ofQuotient negative num den = bounded negative (2 ^ 52) (e + 1) := by
  subst scale
  have carried : scaledQuotient num den (max minExponent (binaryOrder num den - 52)) =
      Nat.pow 2 53 := rounded
  unfold ofQuotient
  dsimp only
  rw [if_neg some, if_pos carried]
  rfl

/-- Every quotient in the rounding interval of a double is read as that double. -/
theorem ofQuotient_eq (positive : 0 < den) (canonical : Canonical m e) (some : m ≠ 0)
    (rounds : RoundsTo (num / den) m e) (negative : Bool) :
    ofQuotient negative num den = .finite negative m e := by
  have step : (0 : ℚ) < 2 ^ (e - 2) := by positivity
  have below := rounds.lt_zpow canonical.small
  have numerator : num ≠ 0 := by
    rintro rfl
    have above := rounds.pos some
    rw [Nat.cast_zero, zero_div] at above
    exact above.false
  have spec := binaryOrder_spec numerator positive
  have atMost : binaryOrder num den < e + 53 :=
    (zpow_lt_zpow_iff_right₀ one_lt_two).mp (spec.1.trans_lt below)
  have usual (scale : max minExponent (binaryOrder num den - 52) = e) :
      ofQuotient negative num den = .finite negative m e := by
    have rounded := scaledQuotient_eq positive (rounds.within some)
    rw [ofQuotient_of_scaled numerator scale rounded canonical.small.ne,
      bounded_of_le canonical.most]
  by_cases full : (2 : ℚ) ^ (e + 52) ≤ num / den
  · have order : e + 52 < binaryOrder num den + 1 :=
      (zpow_lt_zpow_iff_right₀ one_lt_two).mp (full.trans_lt spec.2)
    have least := canonical.least
    exact usual (by omega)
  have less : (num : ℚ) / den < 2 ^ (e + 52) := lt_of_not_ge full
  have order : binaryOrder num den < e + 52 :=
    (zpow_lt_zpow_iff_right₀ one_lt_two).mp (spec.1.trans_lt less)
  by_cases least : e = minExponent
  · exact usual (by omega)
  -- The quotient lies below a power of two that it is rounded up to.
  have more : minExponent < e := lt_of_le_of_ne canonical.least (Ne.symm least)
  obtain ⟨rfl, reached⟩ := rounds.eq_power_of_lt canonical more less
  have lastOrder : (2 : ℚ) ^ (e + 51) ≤ num / den := by
    rw [zpow_eq_quarters (by omega : e + 51 = e - 2 + (53 : Nat))]
    exact (mul_le_mul_of_nonneg_right (by norm_num) step.le).trans reached
  have orderLow : e + 51 < binaryOrder num den + 1 :=
    (zpow_lt_zpow_iff_right₀ one_lt_two).mp (lastOrder.trans_lt spec.2)
  have rounded : scaledQuotient num den (e - 1) = 2 ^ 53 := by
    refine scaledQuotient_eq positive ?_
    have double : (0 : ℚ) < 2 ^ 1 * 2 ^ (e - 2) := by positivity
    rw [zpow_eq_quarters (by omega : e + 52 = e - 2 + (54 : Nat))] at less
    rw [zpow_eq_quarters (by omega : e - 1 = e - 2 + (1 : Nat)), Within, if_pos (by decide)]
    constructor
    · rw [← sub_le_iff_le_add, le_div_iff₀ double]
      push_cast
      linarith
    · rw [← le_sub_iff_add_le, div_le_iff₀ double]
      push_cast
      linarith
  rw [ofQuotient_of_carry numerator (by omega : _ = e - 1) rounded, sub_add_cancel,
    bounded_of_le canonical.most]

/-! ### The double of a decimal -/

theorem decimalLength_spec {n : Nat} (some : n ≠ 0) :
    (10 : ℚ) ^ ((decimalLength n : Int) - 1) ≤ n ∧ (n : ℚ) < 10 ^ (decimalLength n : Int) := by
  have positive : 0 < decimalLength n := Nat.length_toDigits_pos
  constructor
  · obtain ⟨k, length⟩ := Nat.exists_eq_succ_of_ne_zero positive.ne'
    have power : ((decimalLength n : Int) - 1) = (k : Int) := by omega
    have low : 10 ^ k ≤ n := by
      rcases Nat.eq_zero_or_pos k with rfl | more
      · exact Nat.one_le_iff_ne_zero.mpr some
      · by_contra less
        have short : decimalLength n ≤ k :=
          (Nat.length_toDigits_le_iff (by decide) more).mpr (Nat.lt_of_not_le less)
        omega
    rw [power, zpow_natCast]
    exact_mod_cast low
  · rw [zpow_natCast]
    exact_mod_cast (Nat.length_toDigits_le_iff (by decide) positive).mp le_rfl

/-- The powers of two that bound the doubles, against those of ten that bound the decimals. -/
theorem two_zpow_most_le : (2 : ℚ) ^ (maxExponent + 53) ≤ 10 ^ (309 : Int) := by
  have naturals : 2 ^ 1024 ≤ 10 ^ 309 := by decide +kernel
  have rationals : (2 : ℚ) ^ 1024 ≤ 10 ^ 309 := by exact_mod_cast naturals
  exact rationals

theorem ten_zpow_le_least : (10 : ℚ) ^ (-330 : Int) ≤ 2 ^ (minExponent - 1) := by
  have naturals : 2 ^ 1075 ≤ 10 ^ 330 := by decide +kernel
  have rationals : (2 : ℚ) ^ 1075 ≤ 10 ^ 330 := by exact_mod_cast naturals
  have inverses : ((10 : ℚ) ^ 330)⁻¹ ≤ (2 ^ 1075)⁻¹ := inv_anti₀ (by positivity) rationals
  exact inverses

/-- What a decimal is read as: too large a one is infinite, too small a one is zero, and any other
is rounded as a quotient of naturals. -/
theorem ofDecimal_cases {n : Nat} (some : n ≠ 0) (negative : Bool) (scale : Int) :
    (10 : ℚ) ^ (310 : Int) ≤ n * 10 ^ scale ∧ ofDecimal negative n scale = .infinity negative ∨
      n * (10 : ℚ) ^ scale < 10 ^ (-330 : Int) ∧ ofDecimal negative n scale = zero negative ∨
      ∃ num den : Nat, 0 < den ∧ (num : ℚ) / den = n * 10 ^ scale ∧
        ofDecimal negative n scale = ofQuotient negative num den := by
  obtain ⟨low, high⟩ := decimalLength_spec some
  have power : (0 : ℚ) < 10 ^ scale := by positivity
  have ten : (1 : ℚ) ≤ 10 := by norm_num
  have value : (10 : ℚ) ^ scale =
      (Nat.pow 10 scale.toNat : Nat) / (Nat.pow 10 (-scale).toNat : Nat) :=
    zpow_eq_div 10 scale
  unfold ofDecimal
  dsimp only
  rw [if_neg some]
  split
  · rename_i huge
    refine .inl ⟨?_, rfl⟩
    calc (10 : ℚ) ^ (310 : Int) ≤ 10 ^ ((decimalLength n : Int) - 1 + scale) :=
          zpow_le_zpow_right₀ ten (by omega)
      _ = 10 ^ ((decimalLength n : Int) - 1) * 10 ^ scale := zpow_add₀ (by norm_num) _ _
      _ ≤ n * 10 ^ scale := mul_le_mul_of_nonneg_right low power.le
  split
  · rename_i tiny
    refine .inr (.inl ⟨?_, rfl⟩)
    calc n * (10 : ℚ) ^ scale < 10 ^ (decimalLength n : Int) * 10 ^ scale :=
          mul_lt_mul_of_pos_right high power
      _ = 10 ^ ((decimalLength n : Int) + scale) := (zpow_add₀ (by norm_num) _ _).symm
      _ ≤ 10 ^ (-330 : Int) := zpow_le_zpow_right₀ ten tiny.le
  refine .inr (.inr ?_)
  split
  · rename_i whole
    have nothing : (-scale).toNat = 0 := by omega
    refine ⟨n * Nat.pow 10 scale.toNat, 1, Nat.one_pos, ?_, rfl⟩
    rw [value, nothing]
    simp
  · rename_i part
    have nothing : scale.toNat = 0 := by omega
    refine ⟨n, Nat.pow 10 (-scale).toNat, Nat.pow_pos (by decide), ?_, rfl⟩
    rw [value, nothing]
    simp [div_eq_mul_inv]

/-- Every decimal in the rounding interval of a double is read as that double. -/
theorem ofDecimal_eq {n : Nat} {scale : Int} (canonical : Canonical m e) (some : m ≠ 0)
    (rounds : RoundsTo (n * (10 : ℚ) ^ scale) m e) (negative : Bool) :
    ofDecimal negative n scale = .finite negative m e := by
  have digits : n ≠ 0 := by
    rintro rfl
    simpa using rounds.pos some
  rcases ofDecimal_cases digits negative scale with
    ⟨huge, -⟩ | ⟨tiny, -⟩ | ⟨num, den, positive, quotient, read⟩
  · have bound : (2 : ℚ) ^ (e + 53) ≤ 10 ^ (310 : Int) :=
      ((zpow_le_zpow_right₀ one_le_two (by linarith [canonical.most])).trans
        two_zpow_most_le).trans (zpow_le_zpow_right₀ (by norm_num) (by decide))
    exact absurd (rounds.lt_zpow canonical.small) (not_lt.mpr (bound.trans huge))
  · have bound : (10 : ℚ) ^ (-330 : Int) ≤ 2 ^ (e - 1) :=
      ten_zpow_le_least.trans (zpow_le_zpow_right₀ one_le_two (by linarith [canonical.least]))
    exact absurd (bound.trans (rounds.two_zpow_le some)) (not_le.mpr tiny)
  · rw [read]
    rw [← quotient] at rounds
    exact ofQuotient_eq positive canonical some rounds negative

/-! ### What is read is in canonical form -/

/-- The form in which doubles are kept. -/
def IsCanonical : Binary64 → Prop
  | .finite _ m e => Canonical m e
  | .infinity _ | .nan => True

theorem le_roundedQuotient {bound : Nat} (positive : 0 < den) (least : (bound : ℚ) ≤ num / den) :
    bound ≤ roundedQuotient num den := by
  have divisor : (0 : ℚ) < den := by exact_mod_cast positive
  have product : bound * den ≤ num := by
    rw [le_div_iff₀ divisor] at least
    exact_mod_cast least
  have below : bound ≤ num / den := (Nat.le_div_iff_mul_le positive).mpr product
  unfold roundedQuotient
  dsimp only
  split_ifs <;> omega

theorem roundedQuotient_le {bound : Nat} (positive : 0 < den) (most : (num : ℚ) / den ≤ bound) :
    roundedQuotient num den ≤ bound := by
  have divisor : (0 : ℚ) < den := by exact_mod_cast positive
  have product : num ≤ den * bound := by
    rw [div_le_iff₀ divisor, mul_comm] at most
    exact_mod_cast most
  have parts : den * (num / den) + num % den = num := Nat.div_add_mod num den
  have above : num / den ≤ bound := Nat.div_le_of_le_mul product
  unfold roundedQuotient
  dsimp only
  rcases Nat.lt_or_eq_of_le above with less | same
  · split_ifs <;> omega
  · have nothing : num % den = 0 := by
      rw [same] at parts
      omega
    rw [nothing, Nat.mul_zero, if_pos positive]
    exact above

theorem isCanonical_zero (negative : Bool) : IsCanonical (zero negative) :=
  ⟨by decide, le_rfl, by decide, .inr rfl⟩

theorem isCanonical_bounded (small : m < 2 ^ 53) (least : minExponent ≤ e)
    (full : 2 ^ 52 ≤ m ∨ e = minExponent) (negative : Bool) :
    IsCanonical (bounded negative m e) := by
  unfold bounded
  split
  · exact trivial
  · rename_i most
    exact ⟨small, least, Int.not_lt.mp most, full⟩

theorem le_scaledQuotient {n : Nat} (positive : 0 < den) (low : (2 : ℚ) ^ (e + n) ≤ num / den) :
    2 ^ n ≤ scaledQuotient num den e := by
  obtain ⟨num', den', positive', quotient, rounded⟩ :=
    exists_scaledQuotient_eq num positive e
  have step : (0 : ℚ) < 2 ^ e := by positivity
  rw [rounded]
  refine le_roundedQuotient positive' ?_
  rw [quotient, le_div_iff₀ step]
  push_cast
  rwa [← zpow_natCast, ← zpow_add₀ two_ne_zero, add_comm]

theorem scaledQuotient_le {n : Nat} (positive : 0 < den)
    (high : (num : ℚ) / den ≤ 2 ^ (e + n)) : scaledQuotient num den e ≤ 2 ^ n := by
  obtain ⟨num', den', positive', quotient, rounded⟩ :=
    exists_scaledQuotient_eq num positive e
  have step : (0 : ℚ) < 2 ^ e := by positivity
  rw [rounded]
  refine roundedQuotient_le positive' ?_
  rw [quotient, div_le_iff₀ step]
  push_cast
  rwa [← zpow_natCast, ← zpow_add₀ two_ne_zero, add_comm]

theorem isCanonical_ofQuotient (positive : 0 < den) (negative : Bool) :
    IsCanonical (ofQuotient negative num den) := by
  by_cases some : num = 0
  · rw [ofQuotient, if_pos some]
    exact isCanonical_zero negative
  obtain ⟨low, high⟩ := binaryOrder_spec some positive
  set e := max minExponent (binaryOrder num den - 52) with scale
  have most : scaledQuotient num den e ≤ 2 ^ 53 := by
    refine scaledQuotient_le positive (high.le.trans ?_)
    exact zpow_le_zpow_right₀ one_le_two (by push_cast; omega)
  by_cases carry : scaledQuotient num den e = 2 ^ 53
  · rw [ofQuotient_of_carry some scale.symm carry]
    exact isCanonical_bounded (by decide) (by omega) (.inl le_rfl) negative
  · rw [ofQuotient_of_scaled some scale.symm rfl carry]
    refine isCanonical_bounded (by omega) (by omega) ?_ negative
    by_cases least : e = minExponent
    · exact .inr least
    · refine .inl (le_scaledQuotient positive (le_trans ?_ low))
      exact zpow_le_zpow_right₀ one_le_two (by push_cast; omega)

theorem isCanonical_ofDecimal (negative : Bool) (n : Nat) (scale : Int) :
    IsCanonical (ofDecimal negative n scale) := by
  by_cases some : n = 0
  · rw [ofDecimal, if_pos some]
    exact isCanonical_zero negative
  rcases ofDecimal_cases some negative scale with
    ⟨-, read⟩ | ⟨-, read⟩ | ⟨num, den, positive, -, read⟩ <;> rw [read]
  · exact trivial
  · exact isCanonical_zero negative
  · exact isCanonical_ofQuotient positive negative

/-- A numeral is read as a double in canonical form. -/
theorem isCanonical_ofNumeral (n : Numeral) : IsCanonical (ofNumeral n) :=
  isCanonical_ofDecimal n.negative n.significand n.scale

end Binary64
end Switchboard
