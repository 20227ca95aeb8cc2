import Switchboard.Proofs.NumberText
import Switchboard.Proofs.Rounding

/-!
Integers that are written as decimal numbers. Doubles hold every integer up to `2^53` exactly, and
what is larger is not rounded below that, so that a rule for integers takes exactly those of its
range.
-/
namespace Switchboard

/-! ### What a numeral is worth -/

theorem foldl_digits (digits : List Nat) (n : Nat) :
    digits.foldl (fun n d => 10 * n + d) n = n * 10 ^ digits.length + digitsValue digits := by
  induction digits generalizing n with
  | nil => simp [digitsValue]
  | cons d digits ih =>
    rw [digitsValue, List.foldl_cons, List.foldl_cons, ih, ih (10 * 0 + d), List.length_cons]
    ring

theorem digitsValue_append (front back : List Nat) :
    digitsValue (front ++ back) = digitsValue front * 10 ^ back.length + digitsValue back := by
  rw [digitsValue, List.foldl_append, foldl_digits]
  rfl

namespace Numeral

/-- The rational number that a numeral stands for, without its sign. -/
def magnitude (n : Numeral) : ℚ :=
  (digitsValue n.whole + digitsValue n.fraction / 10 ^ n.fraction.length) * 10 ^ n.exponent

/-- The rational number that a numeral stands for. -/
def value (n : Numeral) : ℚ :=
  if n.negative then -n.magnitude else n.magnitude

variable {n : Numeral}

theorem magnitude_eq : n.magnitude = n.significand * 10 ^ n.scale := by
  have shift : (10 : ℚ) ^ n.exponent = 10 ^ n.scale * 10 ^ n.fraction.length := by
    rw [← zpow_natCast, ← zpow_add₀ (by norm_num), scale, sub_add_cancel]
  have places : (10 : ℚ) ^ n.fraction.length ≠ 0 := by positivity
  rw [magnitude, significand, digitsValue_append, shift]
  push_cast
  field_simp

theorem magnitude_nonneg : 0 ≤ n.magnitude := by
  rw [magnitude_eq]
  positivity

/-- A numeral that stands for an integer has an integral magnitude. -/
theorem exists_size {q : Int} (worth : n.value = q) :
    ∃ k : Nat, n.magnitude = k ∧ q = if n.negative then -(k : Int) else k := by
  have size := n.magnitude_nonneg
  unfold value at worth
  split at worth
  · rename_i minus
    have below : (q : ℚ) ≤ 0 := by linarith
    have below : 0 ≤ -q := neg_nonneg.mpr (by exact_mod_cast below)
    obtain ⟨k, same⟩ := Int.eq_ofNat_of_zero_le below
    obtain rfl : q = -(k : Int) := by omega
    refine ⟨k, ?_, by simp [minus]⟩
    push_cast at worth
    exact neg_inj.mp worth
  · rename_i plus
    have above : (0 : ℚ) ≤ q := by linarith
    have above : 0 ≤ q := by exact_mod_cast above
    obtain ⟨k, rfl⟩ := Int.eq_ofNat_of_zero_le above
    exact ⟨k, worth, by simp [plus]⟩

end Numeral

namespace Binary64

variable {negative : Bool} {m num den n k : Nat} {e scale : Int}

/-! ### Integers up to the precision of doubles -/

theorem toInt?_of_magnitude (whole : (m : ℚ) * 2 ^ e = k) :
    toInt? (.finite negative m e) = some (if negative then -(k : Int) else k) := by
  have power : (2 : ℚ) ^ e = (Nat.pow 2 e.toNat : Nat) / (Nat.pow 2 (-e).toNat : Nat) :=
    zpow_eq_div 2 e
  have step : 0 < Nat.pow 2 (-e).toNat := Nat.pow_pos (by decide)
  have step' : ((Nat.pow 2 (-e).toNat : Nat) : ℚ) ≠ 0 := by exact_mod_cast step.ne'
  have product : m * Nat.pow 2 e.toNat = k * Nat.pow 2 (-e).toNat := by
    rw [power, mul_div_assoc', div_eq_iff step'] at whole
    exact_mod_cast whole
  unfold toInt?
  dsimp only
  split
  · rename_i up
    have nothing : (-e).toNat = 0 := by omega
    rw [nothing] at product
    rw [product]
    simp
  · rename_i down
    have nothing : e.toNat = 0 := by omega
    obtain rfl : m = k * Nat.pow 2 (-e).toNat := by simpa [nothing] using product
    rw [if_pos (Nat.mul_mod_left _ _), Nat.mul_div_cancel _ step]

/-- A double lies in its own rounding interval. -/
theorem roundsTo_self (some : m ≠ 0) (e : Int) : RoundsTo (m * 2 ^ e) m e := by
  have step : (0 : ℚ) < 2 ^ (e - 2) := by positivity
  have lower : (roundingInterval m e).1 < 4 * m := by
    unfold roundingInterval
    dsimp only
    split <;> omega
  have upper : 4 * m < (roundingInterval m e).2.2 := by
    simp [roundingInterval]
  have center : (m : ℚ) * 2 ^ e = (4 * m : Nat) * 2 ^ (e - 2) := by
    rw [zpow_eq_quarters (by omega : e = e - 2 + (2 : Nat))]
    push_cast
    ring
  rw [RoundsTo, center]
  apply Within.of_lt
  · exact mul_lt_mul_of_pos_right (by exact_mod_cast lower) step
  · exact mul_lt_mul_of_pos_right (by exact_mod_cast upper) step

/-- Every positive integer up to the precision of doubles is one. -/
theorem exists_canonical (some : k ≠ 0) (small : k ≤ 2 ^ 53) :
    ∃ m e, Canonical m e ∧ m ≠ 0 ∧ (m : ℚ) * 2 ^ e = k := by
  -- The bound itself needs one more digit than a significand has, but it is a power of two.
  rcases Nat.lt_or_eq_of_le small with less | rfl
  · have order : k.log2 ≤ 52 := Nat.le_of_lt_succ ((Nat.log2_lt some).mpr less)
    have split : 2 ^ k.log2 * 2 ^ (52 - k.log2) = 2 ^ 52 := by
      rw [← pow_add, Nat.add_sub_cancel' order]
    have low : 2 ^ 52 ≤ k * 2 ^ (52 - k.log2) := by
      rw [← split]
      exact Nat.mul_le_mul_right _ (Nat.log2_self_le some)
    have high : k * 2 ^ (52 - k.log2) < 2 ^ 53 := by
      rw [pow_succ, ← split, mul_right_comm, ← pow_succ]
      exact Nat.mul_lt_mul_of_pos_right Nat.lt_log2_self (by positivity)
    refine ⟨k * 2 ^ (52 - k.log2), (k.log2 : Int) - 52, ⟨high, ?_, ?_, .inl low⟩, by omega, ?_⟩
    · simp only [minExponent]
      omega
    · simp only [maxExponent]
      omega
    · have shift : (k.log2 : Int) - 52 = -((52 - k.log2 : Nat) : Int) := by omega
      have step : (2 : ℚ) ^ (52 - k.log2) ≠ 0 := by positivity
      rw [shift, zpow_neg, zpow_natCast]
      push_cast
      field_simp
  · exact ⟨2 ^ 52, 1, ⟨by decide, by decide, by decide, .inl le_rfl⟩, by decide, by norm_num⟩

theorem toInt?_ofDecimal (worth : n * (10 : ℚ) ^ scale = k) (small : k ≤ 2 ^ 53) :
    toInt? (ofDecimal negative n scale) = some (if negative then -(k : Int) else k) := by
  by_cases nothing : k = 0
  · subst nothing
    have zero : n = 0 := by simpa [zpow_ne_zero] using worth
    rw [ofDecimal, if_pos zero]
    exact toInt?_of_magnitude (by simp)
  · obtain ⟨m, e, canonical, nonzero, exact⟩ := exists_canonical nothing small
    have rounds : RoundsTo (n * (10 : ℚ) ^ scale) m e := by
      rw [worth, ← exact]
      exact roundsTo_self nonzero e
    rw [ofDecimal_eq canonical nonzero rounds negative]
    exact toInt?_of_magnitude exact

/-! ### Larger numbers -/

variable {z : Int}

theorem le_of_toInt?_bounded (full : 2 ^ 52 ≤ m) (large : 1 ≤ e)
    (whole : toInt? (bounded negative m e) = some z) : 2 ^ 53 ≤ z.natAbs := by
  unfold bounded at whole
  split at whole
  · cases whole
  · obtain ⟨k, rfl⟩ := Int.eq_ofNat_of_zero_le (by omega : 0 ≤ e)
    have value : (m : ℚ) * 2 ^ (k : Int) = (m * 2 ^ k : Nat) := by simp
    have size : 2 ^ 53 ≤ m * 2 ^ k :=
      calc 2 ^ 53 = 2 ^ 52 * 2 ^ 1 := by norm_num
        _ ≤ m * 2 ^ k := Nat.mul_le_mul full (Nat.pow_le_pow_right Nat.two_pos (by omega))
    rw [toInt?_of_magnitude value] at whole
    obtain rfl := Option.some.inj whole
    split <;> omega

/-- A quotient that is at least the precision is not rounded below it. -/
theorem le_of_toInt?_ofQuotient (positive : 0 < den) (large : (2 : ℚ) ^ 53 ≤ num / den)
    (whole : toInt? (ofQuotient negative num den) = some z) : 2 ^ 53 ≤ z.natAbs := by
  have nonzero : num ≠ 0 := by
    rintro rfl
    norm_num at large
  obtain ⟨low, high⟩ := binaryOrder_spec nonzero positive
  have order : (53 : Int) < binaryOrder num den + 1 :=
    (zpow_lt_zpow_iff_right₀ (one_lt_two (α := ℚ))).mp (large.trans_lt high)
  have scale : max minExponent (binaryOrder num den - 52) = binaryOrder num den - 52 := by
    simp only [minExponent]
    omega
  -- Rounding may only raise the significand above its binade, which the next exponent takes up.
  have full : 2 ^ 52 ≤ scaledQuotient num den (binaryOrder num den - 52) := by
    apply le_scaledQuotient positive
    simpa using low
  by_cases carry : scaledQuotient num den (binaryOrder num den - 52) = 2 ^ 53
  · rw [ofQuotient_of_carry nonzero scale carry] at whole
    exact le_of_toInt?_bounded le_rfl (by omega) whole
  · rw [ofQuotient_of_scaled nonzero scale rfl carry] at whole
    exact le_of_toInt?_bounded full (by omega) whole

theorem le_of_toInt?_ofDecimal (large : (2 : ℚ) ^ 53 ≤ n * 10 ^ scale)
    (whole : toInt? (ofDecimal negative n scale) = some z) : 2 ^ 53 ≤ z.natAbs := by
  have nonzero : n ≠ 0 := by
    rintro rfl
    norm_num at large
  rcases ofDecimal_cases nonzero negative scale with
    ⟨-, read⟩ | ⟨tiny, -⟩ | ⟨num, den, positive, quotient, read⟩
  · rw [read] at whole
    cases whole
  · have less : (10 : ℚ) ^ (-330 : Int) ≤ 1 := zpow_le_one_of_nonpos₀ (by norm_num) (by decide)
    linarith
  · rw [read] at whole
    rw [← quotient] at large
    exact le_of_toInt?_ofQuotient positive large whole

/-! ### Numerals that stand for integers -/

section Worth

variable {number : Numeral} {q : Int}

theorem toInt?_ofNumeral (worth : number.value = q) (small : q.natAbs ≤ 2 ^ 53) :
    toInt? (ofNumeral number) = some q := by
  obtain ⟨k, size, rfl⟩ := Numeral.exists_size worth
  rw [Numeral.magnitude_eq] at size
  apply toInt?_ofDecimal size
  split at small <;> omega

theorem le_of_toInt?_ofNumeral (worth : number.value = q) (large : 2 ^ 53 ≤ q.natAbs)
    (whole : toInt? (ofNumeral number) = some z) : 2 ^ 53 ≤ z.natAbs := by
  obtain ⟨k, size, rfl⟩ := Numeral.exists_size worth
  rw [Numeral.magnitude_eq] at size
  have large : 2 ^ 53 ≤ k := by
    split at large <;> omega
  have reached : (2 : ℚ) ^ 53 ≤ number.significand * 10 ^ number.scale := by
    rw [size]
    exact_mod_cast large
  exact le_of_toInt?_ofDecimal reached whole

end Worth

end Binary64

/-- The rational number that a text is in plain decimal notation, blanks around it allowed. -/
def Spells (s : String) (v : ℚ) : Prop :=
  ∃ n, IsNumeral (Text.strip s).toList n ∧ n.value = v

theorem Spells.of_read {s : String} {n : Numeral} {v : ℚ}
    (read : Numeral.signed? (Text.strip s).toList = some n) (worth : n.value = v) : Spells s v :=
  ⟨n, signed?_eq_some_iff.mp read, worth⟩

namespace Rule

variable {rule : Rule} {s : String} {q : Int} {x : Binary64}

theorem admitsInteger_iff :
    admitsInteger x = true ↔ ∃ q : Int, x.toInt? = some q ∧ -2 ^ 31 ≤ q ∧ q < 2 ^ 31 := by
  unfold admitsInteger
  cases x.toInt? with
  | none => simp
  | some z =>
    rw [Bool.and_eq_true, decide_eq_true_eq, decide_eq_true_eq]
    simp [minInteger, integerBound]

theorem numberDatum_of_toInt? (whole : x.toInt? = some q) : numberDatum x = .int q := by
  simp [numberDatum, whole]

/-- Which integers a rule for integers admits does not depend on how they are written. -/
theorem admitsInteger_ofNumeral {n : Numeral} (worth : n.value = q) :
    admitsInteger (.ofNumeral n) = true ↔ -2 ^ 31 ≤ q ∧ q < 2 ^ 31 := by
  rw [admitsInteger_iff]
  rcases Nat.le_total q.natAbs (2 ^ 53) with small | large
  · simp [Binary64.toInt?_ofNumeral worth small]
  · constructor
    · rintro ⟨z, whole, low, high⟩
      have far := Binary64.le_of_toInt?_ofNumeral worth large whole
      omega
    · rintro ⟨low, high⟩
      omega

/-- What a rule for integers takes is an integer of its range. -/
theorem exists_int_of_coerceNumber {raw d : Document} (integer : rule.integer = true)
    (taken : rule.coerceNumber raw = .ok d) :
    ∃ q : Int, d = .int q ∧ -2 ^ 31 ≤ q ∧ q < 2 ^ 31 := by
  unfold coerceNumber at taken
  split at taken
  · cases taken
  split at taken
  · cases taken
  · simp only at taken
    split at taken
    · cases taken
    · rename_i n _ admitted
      have admitted : admitsInteger (.ofNumeral n) = true := by simpa [integer] using admitted
      obtain ⟨q, whole, range⟩ := admitsInteger_iff.mp admitted
      rw [numberDatum_of_toInt? whole] at taken
      cases taken
      exact ⟨q, rfl, range⟩

/-- A rule for integers takes exactly the texts that stand for an integer of 32 bits, and gives that
integer; it never gives anything else. A rule without that refinement gives every integer up to the
precision of doubles exactly. -/
theorem integers_exactly (rule : Rule) :
    (rule.integer = true →
      (∀ (s : String) (q : Int), Spells s q →
        rule.coerceNumber (.text s) =
          if -2 ^ 31 ≤ q ∧ q < 2 ^ 31 then .ok (.int q)
          else .error (.badArgument rule "not an integer")) ∧
      ∀ (raw d : Document), rule.coerceNumber raw = .ok d →
        ∃ q : Int, d = .int q ∧ -2 ^ 31 ≤ q ∧ q < 2 ^ 31) ∧
    (rule.integer = false → ∀ (s : String) (q : Int), Spells s q → |q| ≤ 2 ^ 53 →
      rule.coerceNumber (.text s) = .ok (.int q)) := by
  refine ⟨fun integer => ⟨?_, fun raw d => exists_int_of_coerceNumber integer⟩, ?_⟩
  · rintro s q ⟨n, isNumeral, worth⟩
    have admitted := admitsInteger_ofNumeral worth
    rw [coerceNumber_of_isNumeral isNumeral]
    by_cases range : -2 ^ 31 ≤ q ∧ q < 2 ^ 31
    · have datum := numberDatum_of_toInt? (Binary64.toInt?_ofNumeral worth (by omega))
      rw [if_neg fun refused => refused.2 (admitted.mpr range), datum, if_pos range]
    · rw [if_pos ⟨integer, mt admitted.mp range⟩, if_neg range]
  · rintro unrefined s q ⟨n, isNumeral, worth⟩ small
    rw [Int.abs_eq_natAbs] at small
    have datum := numberDatum_of_toInt? (Binary64.toInt?_ofNumeral worth (by omega))
    simp [coerceNumber_of_isNumeral isNumeral, unrefined, datum]

theorem integers_exactly_bounds :
    ({ kind := .number, integer := true } : Rule).integer = true ∧
      Spells " +0214748364.70e1\t" (2147483647 : Int) ∧
      coerceNumber { kind := .number, integer := true } (.text " +0214748364.70e1\t") =
        .ok (.int 2147483647) ∧
      (∃ q : Int, (.int 2147483647 : Document) = .int q ∧ -2 ^ 31 ≤ q ∧ q < 2 ^ 31) ∧
      Spells "-.٢147483649e+10" (-2147483649 : Int) ∧
      coerceNumber { kind := .number, integer := true } (.text "-.٢147483649e+10") =
        .error (.badArgument { kind := .number, integer := true } "not an integer") ∧
      ({ kind := .number } : Rule).integer = false ∧
      Spells "-9007199254740992." (-9007199254740992 : Int) ∧
      |(-9007199254740992 : Int)| ≤ 2 ^ 53 ∧
      coerceNumber { kind := .number } (.text "-9007199254740992.") =
        .ok (.int (-9007199254740992)) := by
  have greatest : Spells " +0214748364.70e1\t" (2147483647 : Int) :=
    .of_read (n := ⟨false, [0, 2, 1, 4, 7, 4, 8, 3, 6, 4], [7, 0], 1⟩) (by decide +kernel)
      (by norm_num [Numeral.value, Numeral.magnitude, digitsValue])
  have less : Spells "-.٢147483649e+10" (-2147483649 : Int) :=
    .of_read (n := ⟨true, [], [2, 1, 4, 7, 4, 8, 3, 6, 4, 9], 10⟩) (by decide +kernel)
      (by norm_num [Numeral.value, Numeral.magnitude, digitsValue])
  have least : Spells "-9007199254740992." (-9007199254740992 : Int) :=
    .of_read (n := ⟨true, [9, 0, 0, 7, 1, 9, 9, 2, 5, 4, 7, 4, 0, 9, 9, 2], [], 0⟩)
      (by decide +kernel) (by norm_num [Numeral.value, Numeral.magnitude, digitsValue])
  have refined := (integers_exactly { kind := .number, integer := true }).1 rfl
  have plain := (integers_exactly { kind := .number }).2 rfl
  have taken := refined.1 _ _ greatest
  have refused := refined.1 _ _ less
  exact ⟨rfl, greatest, taken, refined.2 _ _ taken, less, refused, rfl, least, by decide,
    plain _ _ least (by decide)⟩

end Rule

end Switchboard
