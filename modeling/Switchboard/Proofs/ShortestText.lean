import Switchboard.Proofs.Rounding

/-!
The shortest decimal of a double lies in its rounding interval: among the numbers of seventeen
digits there is always one, so that the search for fewer digits ends with one.
-/
namespace Switchboard.Binary64

/-! ### One number of digits -/

section Grid

variable {lower value upper unit : Nat} {closed : Bool}

theorem within_iff_decide {x : Nat} :
    (if closed then decide (lower ≤ x) && decide (x ≤ upper)
      else decide (lower < x) && decide (x < upper)) = true ↔ Within closed lower x upper := by
  unfold Within
  cases closed with
  | true => simp
  | false => simp

/-- A grid point that is found lies in the interval. -/
theorem within_of_nearestOnGrid? {n : Nat}
    (found : nearestOnGrid? lower value upper unit closed = some n) :
    Within closed lower (n * unit) upper := by
  unfold nearestOnGrid? at found
  dsimp only at found
  generalize (if value % unit = 0 then value / unit else value / unit + 1) = above at found
  generalize value / unit = below at found
  split at found
  · rename_i belowInside aboveInside
    have insideBelow := within_iff_decide.mp belowInside
    have insideAbove := within_iff_decide.mp aboveInside
    split_ifs at found <;> cases found <;> assumption
  · rename_i inside _
    cases found
    exact within_iff_decide.mp inside
  · rename_i _ inside
    cases found
    exact within_iff_decide.mp inside
  · cases found

/-- A neighbouring grid point that lies in the interval is found. -/
theorem nearestOnGrid?_isSome
    (inside : Within closed lower (value / unit * unit) upper ∨
      Within closed lower
        ((if value % unit = 0 then value / unit else value / unit + 1) * unit) upper) :
    (nearestOnGrid? lower value upper unit closed).isSome = true := by
  rw [← within_iff_decide, ← within_iff_decide] at inside
  unfold nearestOnGrid?
  dsimp only
  generalize (if value % unit = 0 then value / unit else value / unit + 1) = above at inside ⊢
  generalize value / unit = below at inside ⊢
  split
  · split_ifs <;> rfl
  · rfl
  · rfl
  · rename_i notBelow notAbove
    rw [notBelow, notAbove] at inside
    rcases inside with false | false <;> cases false

/-- A step that fits twice between the ends and the value. -/
theorem nearestOnGrid?_isSome_of_half (positive : 0 < unit) (below : 2 * lower + unit < 2 * value)
    (above : 2 * value + unit < 2 * upper) :
    (nearestOnGrid? lower value upper unit closed).isSome = true := by
  have parts : unit * (value / unit) + value % unit = value := Nat.div_add_mod value unit
  have left : value % unit < unit := Nat.mod_lt value positive
  rw [Nat.mul_comm] at parts
  refine nearestOnGrid?_isSome ?_
  by_cases near : 2 * (value % unit) ≤ unit
  · exact .inl (.of_lt (by omega) (by omega))
  · refine .inr ?_
    rw [if_neg (by omega), Nat.add_mul, Nat.one_mul]
    exact .of_lt (by omega) (by omega)

/-- A step that fits between the value and the upper end. -/
theorem nearestOnGrid?_isSome_of_above (positive : 0 < unit) (below : lower < value)
    (above : value + unit < upper) :
    (nearestOnGrid? lower value upper unit closed).isSome = true := by
  have parts : unit * (value / unit) + value % unit = value := Nat.div_add_mod value unit
  have left : value % unit < unit := Nat.mod_lt value positive
  rw [Nat.mul_comm] at parts
  refine nearestOnGrid?_isSome (.inr ?_)
  split
  · exact .of_lt (by omega) (by omega)
  · rw [Nat.add_mul, Nat.one_mul]
    exact .of_lt (by omega) (by omega)

end Grid

/-! ### The search -/

section Search

variable {lower value upper den : Nat} {closed : Bool} {order : Int}

/-- What is found with a number of digits. -/
def digitsAt? (lower value upper den : Nat) (closed : Bool) (order : Int) (count : Nat) :
    Option Nat :=
  let power := order - count
  let shift := Nat.pow 10 (-power).toNat
  nearestOnGrid? (lower * shift) (value * shift) (upper * shift) (den * Nat.pow 10 power.toNat)
    closed

theorem within_of_digitsAt? (positive : 0 < den) {count n : Nat}
    (found : digitsAt? lower value upper den closed order count = some n) :
    Within closed ((lower : ℚ) / den) (n * 10 ^ (order - count)) (upper / den) := by
  have inside := Within.cast_iff.mpr (within_of_nearestOnGrid? found)
  have power : (10 : ℚ) ^ (order - count) = (Nat.pow 10 (order - count).toNat : Nat) /
      (Nat.pow 10 (-(order - count)).toNat : Nat) := zpow_eq_div 10 _
  have divisor : (0 : ℚ) < den := by exact_mod_cast positive
  have shift : (0 : ℚ) < (Nat.pow 10 (-(order - count)).toNat : Nat) := by
    exact_mod_cast Nat.pow_pos (by decide)
  have factor : (0 : ℚ) < den * (Nat.pow 10 (-(order - count)).toNat : Nat) := by positivity
  rw [← Within.scale_iff factor, power]
  convert inside using 1
  · push_cast
    field_simp
  · push_cast
    field_simp
  · push_cast
    field_simp

/-- If some number of digits is enough, then what the search ends with lies in the interval. -/
theorem within_searchDigits (positive : 0 < den) {last : Nat}
    (found : (digitsAt? lower value upper den closed order last).isSome = true) (fuel : Nat)
    {count : Nat} (start : count ≤ last) (reach : last < count + fuel) :
    Within closed ((lower : ℚ) / den)
      ((searchDigits lower value upper den closed order fuel count).1 *
        10 ^ (searchDigits lower value upper den closed order fuel count).2) (upper / den) := by
  induction fuel generalizing count with
  | zero => omega
  | succ fuel ih =>
    rw [searchDigits]
    cases here : digitsAt? lower value upper den closed order count with
    | some n =>
      have inside := within_of_digitsAt? positive here
      rw [digitsAt?] at here
      rw [here]
      exact inside
    | none =>
      have later : count ≠ last := by
        rintro rfl
        rw [here] at found
        cases found
      rw [digitsAt?] at here
      rw [here]
      exact ih (by omega) (by omega)

end Search

/-! ### Seventeen digits -/

/-- The decimal order of a quotient that is not too small, found by way of the length of a
multiple. -/
theorem decimalOrder_spec {num den k : Nat} (positive : 0 < den)
    (least : (1 : ℚ) ≤ num / den * 10 ^ (k : Int)) :
    (10 : ℚ) ^ ((decimalLength (num * Nat.pow 10 k / den) : Int) - k - 1) ≤ num / den ∧
      (num : ℚ) / den < 10 ^ ((decimalLength (num * Nat.pow 10 k / den) : Int) - k) := by
  have divisor : (0 : ℚ) < den := by exact_mod_cast positive
  have factor : (0 : ℚ) < 10 ^ (k : Int) := by positivity
  set floor := num * Nat.pow 10 k / den with whole
  have below : (floor : ℚ) ≤ num / den * 10 ^ (k : Int) := by
    have product : floor * den ≤ num * Nat.pow 10 k := Nat.div_mul_le_self _ _
    rw [div_mul_eq_mul_div, le_div_iff₀ divisor]
    exact_mod_cast product
  have above : (num : ℚ) / den * 10 ^ (k : Int) < floor + 1 := by
    have product : num * Nat.pow 10 k < den * (floor + 1) := Nat.lt_mul_div_succ _ positive
    rw [div_mul_eq_mul_div, div_lt_iff₀ divisor, mul_comm _ (den : ℚ)]
    exact_mod_cast product
  have some : floor ≠ 0 := by
    intro none
    rw [none] at above
    have := least.trans_lt above
    norm_num at this
  obtain ⟨low, high⟩ := decimalLength_spec some
  constructor
  · rw [← mul_le_mul_iff_left₀ factor, ← zpow_add₀ (by norm_num)]
    refine le_trans (le_of_eq ?_) (low.trans below)
    congr 1
    ring
  · rw [← mul_lt_mul_iff_left₀ factor, ← zpow_add₀ (by norm_num), sub_add_cancel]
    have next : (floor : ℚ) + 1 ≤ 10 ^ (decimalLength floor : Int) := by
      rw [zpow_natCast] at high ⊢
      exact_mod_cast high
    exact above.trans_le next

section Double

variable {m : Nat} {e : Int}

/-- A double in quarters of its last place, as a quotient of naturals. -/
theorem quarters_eq_div (m : Nat) (e : Int) :
    (m : ℚ) * 2 ^ (e - 2) =
      (m * Nat.pow 2 (e - 2).toNat : Nat) / (Nat.pow 2 (-(e - 2)).toNat : Nat) := by
  have power : (2 : ℚ) ^ (e - 2) = (Nat.pow 2 (e - 2).toNat : Nat) /
      (Nat.pow 2 (-(e - 2)).toNat : Nat) := zpow_eq_div 2 _
  rw [power, Nat.cast_mul, mul_div_assoc]

/-- A step that fits so often into a width is less than what a few parts of the width span. -/
theorem step_lt_mul {step width span k : Nat} (positive : 0 < span)
    (fits : step * 10 ^ 16 ≤ width * span) (less : width < k * 10 ^ 16) : step < k * span := by
  have more := Nat.mul_lt_mul_of_pos_right less positive
  refine lt_of_mul_lt_mul_right (a := 10 ^ 16) ?_ (Nat.zero_le _)
  calc step * 10 ^ 16 ≤ width * span := fits
    _ < k * 10 ^ 16 * span := more
    _ = k * span * 10 ^ 16 := by ring

/-- Seventeen digits are enough: a grid of so many digits is finer than the rounding interval. -/
theorem digitsAt?_seventeen {order : Int} (closed : Bool) (canonical : Canonical m e)
    (some : m ≠ 0) (low : (10 : ℚ) ^ (order - 1) ≤ (4 * m : Nat) * 2 ^ (e - 2)) :
    (digitsAt? ((roundingInterval m e).1 * Nat.pow 2 (e - 2).toNat)
      (4 * m * Nat.pow 2 (e - 2).toNat) ((4 * m + 2) * Nat.pow 2 (e - 2).toNat)
      (Nat.pow 2 (-(e - 2)).toNat) closed order 17).isSome = true := by
  have small := canonical.small
  have step : (10 : ℚ) ^ (order - (17 : Nat)) * 10 ^ 16 ≤ (4 * m : Nat) * 2 ^ (e - 2) := by
    refine le_trans (le_of_eq ?_) low
    rw [← zpow_natCast, ← zpow_add₀ (by norm_num)]
    congr 1
    push_cast
    ring
  have tens : (10 : ℚ) ^ (order - (17 : Nat)) = (Nat.pow 10 (order - (17 : Nat)).toNat : Nat) /
      (Nat.pow 10 (-(order - (17 : Nat))).toNat : Nat) := zpow_eq_div 10 _
  have tensDown : 0 < Nat.pow 10 (-(order - (17 : Nat))).toNat := Nat.pow_pos (by decide)
  have tensUp : 0 < Nat.pow 10 (order - (17 : Nat)).toNat := Nat.pow_pos (by decide)
  have twosDown : 0 < Nat.pow 2 (-(e - 2)).toNat := Nat.pow_pos (by decide)
  have twosUp : 0 < Nat.pow 2 (e - 2).toNat := Nat.pow_pos (by decide)
  rw [quarters_eq_div, tens] at step
  unfold digitsAt?
  dsimp only
  generalize Nat.pow 10 (-(order - (17 : Nat))).toNat = shift at *
  generalize Nat.pow 10 (order - (17 : Nat)).toNat = ten at *
  generalize Nat.pow 2 (-(e - 2)).toNat = den at *
  generalize Nat.pow 2 (e - 2).toNat = two at *
  have fits : den * ten * 10 ^ 16 ≤ 4 * m * (two * shift) := by
    have divisor : (0 : ℚ) < den := by exact_mod_cast twosDown
    have divisor' : (0 : ℚ) < shift := by exact_mod_cast tensDown
    rw [div_mul_eq_mul_div, div_le_div_iff₀ divisor' divisor] at step
    have naturals : ten * 10 ^ 16 * den ≤ 4 * m * two * shift := by exact_mod_cast step
    linarith
  have positive : 0 < den * ten := Nat.mul_pos twosDown tensUp
  rw [Nat.mul_assoc, Nat.mul_assoc, Nat.mul_assoc (4 * m + 2)]
  have one : 1 ≤ m := Nat.one_le_iff_ne_zero.mpr some
  have size : 0 < two * shift := Nat.mul_pos twosUp tensDown
  by_cases power : m = Nat.pow 2 52 ∧ minExponent < e
  · have interval : (roundingInterval m e).1 = 4 * m - 1 := if_pos power
    have value : m = 2 ^ 52 := power.1
    have enough : den * ten < 2 * (two * shift) := step_lt_mul size fits (by omega)
    rw [interval]
    refine nearestOnGrid?_isSome_of_above positive ?_ ?_
    · exact Nat.mul_lt_mul_of_pos_right (by omega) size
    · rw [Nat.add_mul]
      omega
  · have interval : (roundingInterval m e).1 = 4 * m - 2 := if_neg power
    have enough : den * ten < 4 * (two * shift) := step_lt_mul size fits (by omega)
    rw [interval]
    refine nearestOnGrid?_isSome_of_half positive ?_ ?_
    · have parts : (4 * m - 2) * (two * shift) + 2 * (two * shift) = 4 * m * (two * shift) := by
        rw [← Nat.add_mul, Nat.sub_add_cancel (by omega)]
      omega
    · rw [Nat.add_mul]
      omega

/-- The shortest decimal of a double is read as that double. -/
theorem shortestDecimal_rounds (canonical : Canonical m e) (some : m ≠ 0) :
    RoundsTo ((shortestDecimal m e).1 * (10 : ℚ) ^ (shortestDecimal m e).2) m e := by
  have positive : 0 < Nat.pow 2 (-(e - 2)).toNat := Nat.pow_pos (by decide)
  have atLeast : (10 : ℚ) ^ (-330 : Int) ≤ (4 * m : Nat) * 2 ^ (e - 2) := by
    have size : (1 : ℚ) ≤ m := by exact_mod_cast Nat.one_le_iff_ne_zero.mpr some
    have step : (0 : ℚ) < 2 ^ (e - 2) := by positivity
    calc (10 : ℚ) ^ (-330 : Int) ≤ 2 ^ (minExponent - 1) := ten_zpow_le_least
      _ ≤ 2 ^ (e - 1) := zpow_le_zpow_right₀ one_le_two (by linarith [canonical.least])
      _ = 2 ^ 1 * 2 ^ (e - 2) := zpow_eq_quarters (by omega)
      _ ≤ (4 * m : Nat) * 2 ^ (e - 2) := by
        push_cast
        exact mul_le_mul_of_nonneg_right (by linarith) step.le
  have large : (1 : ℚ) ≤ (4 * m * Nat.pow 2 (e - 2).toNat : Nat) /
      (Nat.pow 2 (-(e - 2)).toNat : Nat) * 10 ^ (leadingPlaces : Int) := by
    rw [← quarters_eq_div]
    calc (1 : ℚ) = 10 ^ (-330 : Int) * 10 ^ (330 : Int) := by
          rw [← zpow_add₀ (by norm_num)]
          rfl
      _ ≤ 10 ^ (-330 : Int) * 10 ^ (leadingPlaces : Int) := by
          have more : (10 : ℚ) ^ (330 : Int) ≤ 10 ^ (leadingPlaces : Int) :=
            zpow_le_zpow_right₀ (by norm_num) (by decide)
          exact mul_le_mul_of_nonneg_left more (by positivity)
      _ ≤ (4 * m : Nat) * 2 ^ (e - 2) * 10 ^ (leadingPlaces : Int) :=
        mul_le_mul_of_nonneg_right atLeast (by positivity)
  have low := (decimalOrder_spec positive large).1
  rw [← quarters_eq_div (4 * m)] at low
  have enough := digitsAt?_seventeen (m % 2 == 0) canonical some low
  have found := within_searchDigits positive enough maxDigits (by decide : 1 ≤ 17) (by decide)
  rw [← quarters_eq_div, ← quarters_eq_div] at found
  exact found

end Double

end Switchboard.Binary64
