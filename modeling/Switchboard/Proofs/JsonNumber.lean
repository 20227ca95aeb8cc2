import Switchboard.Data.Json.Reader
import Switchboard.Data.Json.Writer
import Switchboard.Number.Loose
import Switchboard.Proofs.ShortestText

/-!
Numbers in JSON text: whatever is written for a number is read as that number again.
-/
namespace Switchboard

/-! ### Rows of digits -/

theorem Json.digitsValue_digitValues (cs : List Char) :
    digitsValue (Json.digitValues cs) = Nat.ofDigitChars 10 cs 0 := by
  rw [digitsValue, Json.digitValues, List.foldl_map, Nat.ofDigitChars_eq_foldl]

theorem digitChar_ne_zero : ∀ n < 10, 0 < n → n.digitChar ≠ '0' := by
  decide

theorem head?_toDigits_ne_zero {n : Nat} (positive : 0 < n) :
    (Nat.toDigits 10 n).head? ≠ some '0' := by
  induction n using Nat.strongRecOn with
  | ind n ih =>
    by_cases short : n < 10
    · rw [Nat.toDigits_of_lt_base short, List.head?_cons]
      exact fun zero => digitChar_ne_zero n short positive (Option.some.inj zero)
    · rw [Nat.toDigits_of_base_le (by decide) (Nat.le_of_not_lt short),
        List.head?_append_of_ne_nil _ Nat.toDigits_ne_nil]
      exact ih (n / 10) (by omega) (by omega)

theorem hasWritableDigits_iff {n : Int} :
    hasWritableDigits n = true ↔ (Nat.toDigits 10 n.natAbs).length ≤ wholeNumberDigits := by
  rw [hasWritableDigits, decide_eq_true_eq, Nat.pow_eq,
    Nat.length_toDigits_le_iff (by decide) (by decide)]

namespace Loose

theorem isPlain_of_head? {digits : List Char} (all : ∀ c ∈ digits, c.isDigit = true) {c : Char}
    (head : digits.head? = some c) (other : c ≠ '0') : isPlain digits = true := by
  simp only [isPlain, head, Option.any_some, Bool.or_eq_true, Bool.and_eq_true, List.all_eq_true]
  exact .inr ⟨all, decide_eq_true other⟩

/-- A natural is written without needless zeros. -/
theorem isPlain_toDigits (n : Nat) : isPlain (Nat.toDigits 10 n) = true := by
  rcases Nat.eq_zero_or_pos n with rfl | positive
  · rfl
  · have digits (c : Char) (member : c ∈ Nat.toDigits 10 n) : c.isDigit = true :=
      Nat.isDigit_of_mem_toDigits (by decide) (by decide) member
    have head : (Nat.toDigits 10 n).head? = some ((Nat.toDigits 10 n).head Nat.toDigits_ne_nil) :=
      List.head?_eq_some_head Nat.toDigits_ne_nil
    refine isPlain_of_head? digits head ?_
    intro zero
    rw [zero] at head
    exact head?_toDigits_ne_zero positive head

theorem isPlain_cases {digits : List Char} (plain : isPlain digits = true) :
    digits = ['0'] ∨
      (∀ c ∈ digits, c.isDigit = true) ∧ ∃ c rest, digits = c :: rest ∧ c ≠ '0' := by
  rw [isPlain, Bool.or_eq_true, Bool.and_eq_true, decide_eq_true_eq, List.all_eq_true] at plain
  refine plain.imp_right fun ⟨all, head⟩ => ⟨all, ?_⟩
  cases digits with
  | nil => cases head
  | cons c rest => exact ⟨c, rest, rfl, of_decide_eq_true head⟩

end Loose

namespace Json

/-- What may follow a number: nothing that it could go on with. -/
def EndsNumber (rest : List Char) : Prop :=
  ∀ c ∈ rest.head?, c.isDigit = false ∧ c ≠ '.' ∧ c ≠ 'e' ∧ c ≠ 'E'

section Parts

variable {digits rest : List Char}

theorem asciiDigits_append (all : ∀ c ∈ digits, c.isDigit = true)
    (stop : ∀ c ∈ rest.head?, c.isDigit = false) :
    asciiDigits (digits ++ rest) = (digits, rest) := by
  rw [asciiDigits, List.takeWhile_append_of_pos all, List.dropWhile_append_of_pos all,
    Text.takeWhile_of_head? stop, Text.dropWhile_of_head? stop, List.append_nil]

theorem readWhole_append (plain : Loose.isPlain digits = true)
    (stop : ∀ c ∈ rest.head?, c.isDigit = false) : readWhole (digits ++ rest) = (digits, rest) := by
  rcases Loose.isPlain_cases plain with rfl | ⟨all, c, others, rfl, other⟩
  · rfl
  · rw [← asciiDigits_append all stop, List.cons_append, readWhole]
    rintro _ zero
    exact other (List.cons.inj zero).1

/-- The digits after the point, with the point if there are any. -/
def fractionText (digits : List Char) : List Char :=
  if digits = [] then [] else '.' :: digits

theorem readFraction_append (all : ∀ c ∈ digits, c.isDigit = true)
    (stop : ∀ c ∈ rest.head?, c.isDigit = false ∧ c ≠ '.') :
    readFraction (fractionText digits ++ rest) = (digits, rest) := by
  cases digits with
  | nil =>
    cases rest with
    | nil => rfl
    | cons c rest =>
      have other : c ≠ '.' := (stop c rfl).2
      rw [fractionText, if_pos rfl, List.nil_append, readFraction]
      rintro _ point
      exact other (List.cons.inj point).1
  | cons c others =>
    have read := asciiDigits_append all fun c first => (stop c first).1
    rw [fractionText, if_neg (List.cons_ne_nil _ _), List.cons_append, readFraction, read]

/-- The exponent of a number, its sign always written. -/
def exponentText : Option (Bool × List Char) → List Char
  | none => []
  | some (negative, digits) => 'e' :: (if negative then '-' else '+') :: digits

/-- The exponent that is written. -/
def exponentValue : Option (Bool × List Char) → Option Int
  | none => none
  | some (negative, digits) =>
    let size : Int := Nat.ofDigitChars 10 digits 0
    some (if negative then -size else size)

theorem readExponent_append {exponent : Option (Bool × List Char)}
    (all : ∀ part ∈ exponent, part.2 ≠ [] ∧ ∀ c ∈ part.2, c.isDigit = true)
    (ends : EndsNumber rest) :
    readExponent (exponentText exponent ++ rest) = (exponentValue exponent, rest) := by
  cases exponent with
  | none =>
    cases rest with
    | nil => rfl
    | cons c rest =>
      obtain ⟨-, -, lower, upper⟩ := ends c rfl
      exact if_neg fun letter => letter.elim lower upper
  | some part =>
    obtain ⟨negative, digits⟩ := part
    obtain ⟨nonempty, digitsOnly⟩ := all _ rfl
    have read := asciiDigits_append digitsOnly fun c first => (ends c first).1
    obtain ⟨c, others, rfl⟩ := List.exists_cons_of_ne_nil nonempty
    have sign : readSign ((if negative then '-' else '+') :: (c :: others ++ rest)) =
        (negative, c :: others ++ rest) := by
      cases negative <;> rfl
    rw [exponentText, List.cons_append, List.cons_append, readExponent, if_pos (.inl rfl), sign]
    dsimp only
    rw [read]
    dsimp only
    rw [digitsValue_digitValues, exponentValue]

end Parts

/-! ### A number and its parts -/

/-- A number as it is written. -/
structure Spelling where
  negative : Bool
  whole : List Char
  fraction : List Char := []
  exponent : Option (Bool × List Char) := none

namespace Spelling

def text (spelling : Spelling) : List Char :=
  (if spelling.negative then ['-'] else []) ++
    (spelling.whole ++ (fractionText spelling.fraction ++ exponentText spelling.exponent))

/-- Rows of digits in all places, without needless zeros in front of the point. -/
structure IsPlain (spelling : Spelling) : Prop where
  whole : Loose.isPlain spelling.whole = true
  fraction : ∀ c ∈ spelling.fraction, c.isDigit = true
  exponent : ∀ part ∈ spelling.exponent, part.2 ≠ [] ∧ ∀ c ∈ part.2, c.isDigit = true

/-- The numeral that is written. -/
def numeral (spelling : Spelling) : Numeral where
  negative := spelling.negative
  whole := digitValues spelling.whole
  fraction := digitValues spelling.fraction
  exponent := (exponentValue spelling.exponent).getD 0

/-- The number that a spelling without a fraction part or an exponent is read as. -/
def wholeNumber? (spelling : Spelling) : Option Int :=
  if spelling.whole.length ≤ wholeNumberDigits then
    let size : Int := Nat.ofDigitChars 10 spelling.whole 0
    some (if spelling.negative then -size else size)
  else none

variable {spelling : Spelling} {rest : List Char}

theorem exponentValue_eq_none {exponent : Option (Bool × List Char)} :
    exponentValue exponent = none ↔ exponent = none := by
  cases exponent with
  | none => exact ⟨fun _ => rfl, fun _ => rfl⟩
  | some part => exact ⟨nofun, nofun⟩

theorem stops_exponent (ends : EndsNumber rest) (exponent : Option (Bool × List Char)) :
    ∀ c ∈ (exponentText exponent ++ rest).head?, c.isDigit = false ∧ c ≠ '.' := by
  intro c first
  cases exponent with
  | none => exact ⟨(ends c first).1, (ends c first).2.1⟩
  | some part =>
    obtain rfl : 'e' = c := Option.some.inj first
    decide

theorem stops_fraction (ends : EndsNumber rest) (fraction : List Char)
    (exponent : Option (Bool × List Char)) :
    ∀ c ∈ (fractionText fraction ++ (exponentText exponent ++ rest)).head?, c.isDigit = false := by
  intro c first
  cases fraction with
  | nil => exact (stops_exponent ends exponent c first).1
  | cons digit others =>
    obtain rfl : '.' = c := Option.some.inj first
    rfl

theorem IsPlain.exists_cons (plain : spelling.IsPlain) :
    ∃ c others, spelling.whole = c :: others ∧ c.isDigit = true := by
  rcases Loose.isPlain_cases plain.whole with zero | ⟨all, c, others, same, -⟩
  · exact ⟨'0', [], zero, rfl⟩
  · exact ⟨c, others, same, all c (same ▸ List.mem_cons_self)⟩

/-- What a spelling is read as: its numeral, or a whole number if it is one. -/
def value? (spelling : Spelling) : Option Document :=
  if spelling.fraction = [] ∧ spelling.exponent = none then spelling.wholeNumber?.map .int
  else some (.real (.ofNumeral spelling.numeral))

theorem readUnsigned_text (plain : spelling.IsPlain) (ends : EndsNumber rest) :
    readUnsigned spelling.negative (spelling.whole ++
        (fractionText spelling.fraction ++ (exponentText spelling.exponent ++ rest))) =
      spelling.value?.map fun d => (d, rest) := by
  have whole := readWhole_append plain.whole
    (stops_fraction ends spelling.fraction spelling.exponent)
  have fraction := readFraction_append plain.fraction (stops_exponent ends spelling.exponent)
  have exponent := readExponent_append plain.exponent ends
  obtain ⟨c, others, first, -⟩ := plain.exists_cons
  rw [readUnsigned, whole, first]
  dsimp only
  rw [fraction]
  dsimp only
  rw [exponent]
  dsimp only
  by_cases integral : spelling.fraction = [] ∧ spelling.exponent = none
  · rw [value?, if_pos integral, if_pos (integral.imp_right exponentValue_eq_none.mpr),
      wholeNumber?, first, digitsValue_digitValues]
    split
    · rfl
    · rfl
  · rw [value?, if_neg integral, if_neg (integral ∘ And.imp_right exponentValue_eq_none.mp),
      numeral, first]
    rfl

/-- A spelling is read as what it stands for. -/
theorem readNumber_text (plain : spelling.IsPlain) (ends : EndsNumber rest) :
    readNumber (spelling.text ++ rest) = spelling.value?.map fun d => (d, rest) := by
  rw [← readUnsigned_text plain ends, text, List.append_assoc, List.append_assoc,
    List.append_assoc]
  cases negative : spelling.negative with
  | true => rfl
  | false =>
    obtain ⟨c, others, first, digit⟩ := plain.exists_cons
    rw [first, if_neg Bool.false_ne_true, List.nil_append, List.cons_append, readNumber]
    rintro _ minus
    rw [(List.cons.inj minus).1] at digit
    cases digit

/-! ### Whole numbers -/

/-- How an integer is written. -/
def ofInt (n : Int) : Spelling where
  negative := n < 0
  whole := Nat.toDigits 10 n.natAbs

theorem text_ofInt (n : Int) : (ofInt n).text = (toString n).toList := by
  rw [text, ofInt, Int.toString_eq_repr, Int.repr_eq_if]
  dsimp only
  have nothing : fractionText [] ++ exponentText none = [] := rfl
  rw [nothing, List.append_nil]
  by_cases negative : n < 0
  · have size : (-n).toNat = n.natAbs := by omega
    rw [if_pos (decide_eq_true negative), if_neg (Int.not_le.mpr negative), size,
      String.toList_append, Nat.toList_repr]
    rfl
  · have size : n.toNat = n.natAbs := by omega
    rw [if_neg (by simpa using negative), if_pos (Int.not_lt.mp negative), size, Nat.toList_repr,
      List.nil_append]

theorem isPlain_ofInt (n : Int) : (ofInt n).IsPlain where
  whole := Loose.isPlain_toDigits n.natAbs
  fraction := fun _ member => absurd member List.not_mem_nil
  exponent := nofun

theorem signed_natAbs (n : Int) :
    (if decide (n < 0) = true then -(n.natAbs : Int) else n.natAbs) = n := by
  by_cases negative : n < 0
  · rw [if_pos (decide_eq_true negative)]
    omega
  · rw [if_neg (by simpa using negative)]
    omega

theorem value?_ofInt {n : Int} (writable : hasWritableDigits n = true) :
    (ofInt n).value? = some (.int n) := by
  have short := hasWritableDigits_iff.mp writable
  rw [value?, if_pos ⟨rfl, rfl⟩, wholeNumber?, ofInt, if_pos short,
    Nat.ofDigitChars_ten_toDigits, Option.map_some]
  dsimp only
  rw [signed_natAbs]

/-! ### Decimals -/

/-- A natural with at least two digits. -/
def twoDigits (n : Nat) : List Char :=
  (if (Nat.toDigits 10 n).length < 2 then ['0'] else []) ++ Nat.toDigits 10 n

/-- How a positive decimal whose digits are `0.digits · 10^point` is written. -/
def ofDecimal (negative : Bool) (digits : List Char) (point : Int) : Spelling :=
  let count : Int := digits.length
  if -4 < point ∧ point ≤ 16 then
    if point ≤ 0 then
      { negative, whole := ['0'], fraction := List.replicate (-point).toNat '0' ++ digits }
    else if count ≤ point then
      { negative, whole := digits ++ List.replicate (point - count).toNat '0', fraction := ['0'] }
    else { negative, whole := digits.take point.toNat, fraction := digits.drop point.toNat }
  else
    { negative, whole := digits.take 1, fraction := digits.drop 1
      exponent := some (decide (point - 1 < 0), twoDigits (point - 1).natAbs) }

variable {digits : List Char} {point : Int}

theorem fractionText_of_ne_nil (some : digits ≠ []) : fractionText digits = '.' :: digits :=
  if_neg some

theorem text_ofDecimal (negative : Bool) (some : digits ≠ []) :
    (ofDecimal negative digits point).text =
      (if negative then ['-'] else []) ++ Binary64.decimalText digits point := by
  unfold ofDecimal Binary64.decimalText
  dsimp only
  by_cases positional : -4 < point ∧ point ≤ 16
  · rw [if_pos positional, if_pos positional]
    by_cases leading : point ≤ 0
    · have fraction : List.replicate (-point).toNat '0' ++ digits ≠ [] :=
        List.append_ne_nil_of_right_ne_nil _ some
      rw [if_pos leading, if_pos leading, text, fractionText_of_ne_nil fraction, exponentText,
        List.append_nil]
      rfl
    rw [if_neg leading, if_neg leading]
    by_cases whole : (digits.length : Int) ≤ point
    · rw [if_pos whole, if_pos whole, text, List.append_assoc, List.append_assoc]
      rfl
    · have fraction : digits.drop point.toNat ≠ [] := by
        rw [ne_eq, List.drop_eq_nil_iff]
        omega
      rw [if_neg whole, if_neg whole, text, fractionText_of_ne_nil fraction, exponentText,
        List.append_nil]
  · have sign : (if decide (point - 1 < 0) = true then '-' else '+') =
        if point - 1 < 0 then '-' else '+' := by
      simp only [decide_eq_true_eq]
    have fraction : fractionText (digits.drop 1) =
        if (digits.length : Int) = 1 then [] else '.' :: digits.drop 1 := by
      have single : digits.drop 1 = [] ↔ (digits.length : Int) = 1 := by
        have := List.length_pos_of_ne_nil some
        rw [List.drop_eq_nil_iff]
        omega
      simp only [fractionText, single]
    rw [if_neg positional, if_neg positional, text, exponentText, sign, fraction, twoDigits]
    simp only [List.append_assoc, List.cons_append, List.nil_append]

theorem negative_ofDecimal (negative : Bool) :
    (ofDecimal negative digits point).negative = negative := by
  unfold ofDecimal
  dsimp only
  split_ifs <;> rfl

theorem isDigit_of_mem_zeros {n : Nat} {c : Char} (member : c ∈ List.replicate n '0') :
    c.isDigit = true := by
  rw [List.eq_of_mem_replicate member]
  rfl

theorem isDigit_of_mem_twoDigits {n : Nat} {c : Char} (member : c ∈ twoDigits n) :
    c.isDigit = true := by
  rcases List.mem_append.mp member with zero | digit
  · split at zero
    · exact isDigit_of_mem_zeros (n := 1) zero
    · exact absurd zero List.not_mem_nil
  · exact Nat.isDigit_of_mem_toDigits (by decide) (by decide) digit

theorem ofDigitChars_twoDigits (n : Nat) : Nat.ofDigitChars 10 (twoDigits n) 0 = n := by
  rw [twoDigits, Nat.ofDigitChars_append]
  split
  · exact Nat.ofDigitChars_ten_toDigits
  · exact Nat.ofDigitChars_ten_toDigits

theorem isPlain_ofDecimal (negative : Bool) (all : ∀ c ∈ digits, c.isDigit = true) {c : Char}
    (head : digits.head? = some c) (other : c ≠ '0') :
    (ofDecimal negative digits point).IsPlain := by
  obtain ⟨others, rfl⟩ : ∃ others, digits = c :: others := List.head?_eq_some_iff.mp head
  have plain {row : List Char} (only : ∀ d ∈ row, d.isDigit = true) :
      Loose.isPlain (c :: row) = true :=
    Loose.isPlain_of_head? (List.forall_mem_cons.mpr ⟨all c List.mem_cons_self, only⟩) rfl other
  have rest : ∀ d ∈ others, d.isDigit = true := fun d member =>
    all d (List.mem_cons_of_mem c member)
  unfold ofDecimal
  dsimp only
  split_ifs
  · refine ⟨rfl, fun d member => ?_, nofun⟩
    exact (List.mem_append.mp member).elim isDigit_of_mem_zeros (all d)
  · refine ⟨plain fun d member => ?_, fun d => isDigit_of_mem_zeros (n := 1), nofun⟩
    exact (List.mem_append.mp member).elim (rest d) isDigit_of_mem_zeros
  · rename_i leading _
    obtain ⟨k, places⟩ : ∃ k, point.toNat = k + 1 := ⟨point.toNat - 1, by omega⟩
    refine ⟨?_, fun d member => all d (List.mem_of_mem_drop member), nofun⟩
    rw [places, List.take_succ_cons]
    exact plain fun d member => rest d (List.mem_of_mem_take member)
  · refine ⟨plain fun d member => absurd member List.not_mem_nil, rest, ?_⟩
    rintro _ ⟨⟩
    refine ⟨?_, fun d => isDigit_of_mem_twoDigits⟩
    exact List.append_ne_nil_of_right_ne_nil _ Nat.toDigits_ne_nil

/-- The digits of a spelling are those of its parts. -/
theorem significand_numeral :
    spelling.numeral.significand = Nat.ofDigitChars 10 (spelling.whole ++ spelling.fraction) 0 := by
  rw [← digitsValue_digitValues, digitValues, List.map_append]
  rfl

theorem negative_numeral : spelling.numeral.negative = spelling.negative := rfl

theorem scale_numeral :
    spelling.numeral.scale =
      (exponentValue spelling.exponent).getD 0 - spelling.fraction.length := by
  have length : (digitValues spelling.fraction).length = spelling.fraction.length :=
    List.length_map _
  rw [← length]
  rfl

/-- The decimal that is written is the one that was meant. -/
theorem value_ofDecimal (negative : Bool) (some : digits ≠ []) :
    ((ofDecimal negative digits point).numeral.significand : ℚ) *
        10 ^ (ofDecimal negative digits point).numeral.scale =
      Nat.ofDigitChars 10 digits 0 * 10 ^ (point - digits.length) := by
  have nonempty := List.length_pos_of_ne_nil some
  rw [significand_numeral, scale_numeral]
  unfold ofDecimal
  dsimp only
  split_ifs
  · have value : Nat.ofDigitChars 10 (['0'] ++ (List.replicate (-point).toNat '0' ++ digits)) 0 =
        Nat.ofDigitChars 10 digits 0 := by
      rw [Nat.ofDigitChars_append, Nat.ofDigitChars_append, Nat.ofDigitChars_replicate_zero]
      rfl
    rw [value, List.length_append, List.length_replicate]
    congr 2
    rw [exponentValue]
    dsimp only [Option.getD_none]
    omega
  · rename_i _ _ whole
    obtain ⟨k, zeros⟩ := Int.eq_ofNat_of_zero_le (Int.sub_nonneg.mpr whole)
    have value : Nat.ofDigitChars 10 (digits ++ List.replicate k '0' ++ ['0']) 0 =
        10 ^ k * Nat.ofDigitChars 10 digits 0 * 10 := by
      rw [Nat.ofDigitChars_append, Nat.ofDigitChars_append, Nat.ofDigitChars_replicate_zero,
        Nat.mul_comm _ 10]
      rfl
    have tenth : (exponentValue none).getD 0 - ((['0'].length : Nat) : Int) = -1 := rfl
    rw [zeros, Int.toNat_natCast, value, tenth, zpow_natCast, zpow_neg_one]
    push_cast
    field_simp
  · have places : (exponentValue none).getD 0 - ((digits.drop point.toNat).length : Int) =
        point - digits.length := by
      rw [List.length_drop, exponentValue, Option.getD_none]
      omega
    rw [List.take_append_drop, places]
  · have places : (exponentValue (Option.some (decide (point - 1 < 0),
        twoDigits (point - 1).natAbs))).getD 0 - ((digits.drop 1).length : Int) =
        point - digits.length := by
      rw [List.length_drop, exponentValue, ofDigitChars_twoDigits, signed_natAbs, Option.getD_some]
      omega
    rw [List.take_append_drop, places]

/-- A decimal is never written as a whole number. -/
theorem value?_ofDecimal (negative : Bool) (some : digits ≠ []) :
    (ofDecimal negative digits point).value? =
      Option.some (.real (.ofNumeral (ofDecimal negative digits point).numeral)) := by
  refine if_neg fun ⟨noFraction, noExponent⟩ => ?_
  unfold ofDecimal at noFraction noExponent
  dsimp only at noFraction noExponent
  split_ifs at noFraction noExponent
  · exact List.append_ne_nil_of_right_ne_nil _ some noFraction
  · rw [List.drop_eq_nil_iff] at noFraction
    omega

end Spelling

/-! ### What is written is read -/

/-- Only zeros are dropped from the end of a row of digits. -/
theorem dropFinalZeros_append (digits : List Char) :
    ∃ n, Binary64.dropFinalZeros digits ++ List.replicate n '0' = digits := by
  refine ⟨(digits.reverse.takeWhile (· = '0')).length, ?_⟩
  have zeros : digits.reverse.takeWhile (· = '0') =
      List.replicate (digits.reverse.takeWhile (· = '0')).length '0' := by
    refine List.eq_replicate_of_mem fun c member => ?_
    exact of_decide_eq_true (List.all_eq_true.mp List.all_takeWhile c member)
  have parts := congrArg List.reverse
    (List.takeWhile_append_dropWhile (p := (· = '0')) (l := digits.reverse))
  rw [List.reverse_append, List.reverse_reverse, zeros, List.reverse_replicate] at parts
  exact parts

open Binary64

variable {rest : List Char}

/-- An integer is read as itself. -/
theorem readNumber_int {n : Int} (writable : hasWritableDigits n = true) (ends : EndsNumber rest) :
    readNumber ((toString n).toList ++ rest) = some (.int n, rest) := by
  rw [← Spelling.text_ofInt, Spelling.readNumber_text (Spelling.isPlain_ofInt n) ends,
    Spelling.value?_ofInt writable]
  rfl

/-- A double that is not zero is written with digits that stand for its shortest decimal. -/
theorem exists_digits {n : Nat} (positive : 0 < n) (power : Int) :
    ∃ digits c, dropFinalZeros (Nat.toDigits 10 n) = digits ∧ (∀ d ∈ digits, d.isDigit = true) ∧
      digits.head? = some c ∧ c ≠ '0' ∧
      (Nat.ofDigitChars 10 digits 0 : ℚ) *
          10 ^ (((Nat.toDigits 10 n).length : Int) + power - digits.length) =
        n * 10 ^ power := by
  obtain ⟨zeros, parts⟩ := dropFinalZeros_append (Nat.toDigits 10 n)
  generalize dropFinalZeros (Nat.toDigits 10 n) = digits at parts
  have first := head?_toDigits_ne_zero positive
  have value : Nat.ofDigitChars 10 (Nat.toDigits 10 n) 0 = n := Nat.ofDigitChars_ten_toDigits
  have nonempty : digits ≠ [] := by
    rintro rfl
    rw [← parts, List.nil_append, Nat.ofDigitChars_replicate_zero] at value
    omega
  obtain ⟨c, others, rfl⟩ := List.exists_cons_of_ne_nil nonempty
  refine ⟨c :: others, c, rfl, fun d member => ?_, rfl, ?_, ?_⟩
  · have member' : d ∈ Nat.toDigits 10 n := parts ▸ List.mem_append_left _ member
    exact Nat.isDigit_of_mem_toDigits (by decide) (by decide) member'
  · rintro rfl
    rw [← parts] at first
    exact first rfl
  · have length : ((Nat.toDigits 10 n).length : Int) + power - (c :: others).length =
        zeros + power := by
      rw [← parts, List.length_append, List.length_replicate]
      push_cast
      ring
    have whole : (n : ℚ) = 10 ^ zeros * Nat.ofDigitChars 10 (c :: others) 0 := by
      rw [← parts, Nat.ofDigitChars_append, Nat.ofDigitChars_replicate_zero] at value
      exact_mod_cast value.symm
    rw [length, whole, zpow_add₀ (by norm_num), zpow_natCast]
    ring

/-- How a finite double is written. -/
theorem exists_spelling {m : Nat} {e : Int} (canonical : Canonical m e) (negative : Bool) :
    ∃ spelling : Spelling, (finite negative m e).text.toList = spelling.text ∧ spelling.IsPlain ∧
      spelling.value? = some (.real (.finite negative m e)) := by
  rw [Binary64.text, String.toList_ofList]
  by_cases zero : m = 0
  · subst zero
    have least : e = minExponent := canonical.full.resolve_left (by decide)
    refine ⟨{ negative, whole := ['0'], fraction := ['0'] }, rfl, ?_, ?_⟩
    · exact ⟨rfl, fun c => Spelling.isDigit_of_mem_zeros (n := 1), nofun⟩
    · rw [least]
      rfl
  · have rounds := shortestDecimal_rounds canonical zero
    rw [magnitudeText, if_neg zero]
    generalize shortestDecimal m e = shortest at rounds
    obtain ⟨n, power⟩ := shortest
    have positive : 0 < n := by
      rcases Nat.eq_zero_or_pos n with rfl | positive
      · exact absurd (rounds.pos zero) (by simp)
      · exact positive
    obtain ⟨digits, c, same, all, head, other, value⟩ := exists_digits positive power
    have some : digits ≠ [] := by
      rintro rfl
      cases head
    dsimp only
    rw [same]
    refine ⟨_, (Spelling.text_ofDecimal negative some).symm,
      Spelling.isPlain_ofDecimal negative all head other, ?_⟩
    have sameValue := (Spelling.value_ofDecimal negative some).trans value
    rw [← sameValue] at rounds
    have read := Binary64.ofDecimal_eq canonical zero rounds negative
    rw [Spelling.value?_ofDecimal negative some, Binary64.ofNumeral, Spelling.negative_numeral,
      Spelling.negative_ofDecimal, read]

/-- A finite double is read as itself. -/
theorem readNumber_real {negative : Bool} {m : Nat} {e : Int} (canonical : Canonical m e)
    (ends : EndsNumber rest) :
    readNumber ((finite negative m e).text.toList ++ rest) =
      some (.real (.finite negative m e), rest) := by
  obtain ⟨spelling, text, plain, value⟩ := exists_spelling canonical negative
  rw [text, Spelling.readNumber_text plain ends, value]
  rfl

end Json
end Switchboard
