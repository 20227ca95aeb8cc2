import Switchboard.Proofs.NumberForm
import Switchboard.Rule.Coercion

/-!
Texts that are numbers. The conversion of texts to doubles takes every numeral, and a rule for
numbers takes exactly the texts that are numerals up to blanks around them.
-/
namespace Switchboard

/-! ### The conversion of texts to doubles -/

namespace Numeral

/-- Digits with an optional point, at least one digit on either side of it, and what follows. Single
underscores may stand between the digits of a row. -/
def readGroupedMantissa? (cs : List Char) : Option (List Nat × List Nat × List Char) :=
  match cs with
  | '.' :: rest => (readGrouped? rest).map fun (fraction, after) => ([], fraction, after)
  | _ =>
    match readGrouped? cs with
    | none => none
    | some (whole, '.' :: rest) =>
      match readGrouped? rest with
      | none => some (whole, [], rest)
      | some (fraction, after) => some (whole, fraction, after)
    | some (whole, after) => some (whole, [], after)

/-- The exponent that a text consists of, with underscores as in a row of digits. -/
def groupedExponent? : List Char → Option Int
  | [] => some 0
  | e :: rest =>
    if e = 'e' ∨ e = 'E' then
      match readGrouped? (readSign rest).2 with
      | some (digits, []) =>
        let size : Int := digitsValue digits
        some (if (readSign rest).1 then -size else size)
      | _ => none
    else none

/-- Reads a whole text as a numeral without a sign, with underscores as in a row of digits. -/
def grouped? (cs : List Char) : Option Numeral :=
  match readGroupedMantissa? cs with
  | none => none
  | some (whole, fraction, rest) =>
    (groupedExponent? rest).map fun exponent => { whole, fraction, exponent }

end Numeral

/-- The double that a text is converted to: the one nearest to a decimal numeral, between whose
digits single underscores may stand, or a special one by its name, in letters of either case. A sign
may stand in front, and white space around. -/
def Binary64.ofText? (s : String) : Option Binary64 :=
  let (negative, cs) := readSign (Text.trimWhiteSpace s.toList)
  match Numeral.grouped? cs with
  | some n => some (.ofNumeral { n with negative })
  | none =>
    let name := String.ofList (cs.map Char.toLower)
    if name = "inf" ∨ name = "infinity" then some (.infinity negative)
    else if name = "nan" then some .nan
    else none

section Conversion

open Numeral

variable {rest digits tail : List Char} {whole fraction : List Nat} {exponent : Int} {n : Numeral}

theorem readGroupedMantissa?_append (mantissa : IsMantissa digits whole fraction)
    (stops : StopsDigits rest) :
    readGroupedMantissa? (digits ++ rest) = some (whole, fraction, rest) := by
  have noDigit : ∀ c ∈ rest.head?, Text.digitValue? c = none := fun c here => (stops c here).1
  have ungrouped : ∀ c ∈ rest.head?, Text.digitValue? c = none ∧ c ≠ '_' := fun c here =>
    ⟨(stops c here).1, (stops c here).2.2⟩
  cases mantissa with
  | plain filled isRow =>
    rw [readGroupedMantissa?, readGrouped?_append isRow filled ungrouped]
    · cases rest with
      | nil => rfl
      | cons c rest => simp [(stops c rfl).2.1]
    · exact isRow.append_ne_point filled
  | @pointed row _ others _ filled isRow places =>
    have point : ∀ c ∈ ('.' :: (others ++ rest)).head?, Text.digitValue? c = none ∧ c ≠ '_' := by
      simp [digitValue?_mark]
    rw [List.append_assoc, List.cons_append, readGroupedMantissa?,
      readGrouped?_append isRow filled point]
    · by_cases bare : others = []
      · subst bare
        obtain rfl := isRow_nil.mp places
        simp [readGrouped?_none noDigit]
      · simp [readGrouped?_append places bare ungrouped]
    · exact isRow.append_ne_point filled
  | leading filled places =>
    simp [readGroupedMantissa?, readGrouped?_append places filled ungrouped]

theorem groupedExponent?_eq (power : IsExponent tail exponent) :
    groupedExponent? tail = some exponent := by
  cases power with
  | absent => rfl
  | @written e mark negative row size letter sign filled isRow =>
    simp [groupedExponent?, letter, readSign_append sign isRow.unsigned,
      readGrouped?_row isRow filled]

theorem grouped?_append (mantissa : IsMantissa digits whole fraction)
    (power : IsExponent tail exponent) :
    grouped? (digits ++ tail) = some { whole, fraction, exponent } := by
  simp [grouped?, readGroupedMantissa?_append mantissa power.stops, groupedExponent?_eq power]

/-- The conversion takes every numeral, up to white space around it. -/
theorem Binary64.ofText?_of_isNumeral {s : String} (isNumeral : IsNumeral s.toList n)
    (trimmed : Text.trimWhiteSpace s.toList = s.toList) :
    Binary64.ofText? s = some (.ofNumeral n) := by
  rw [Binary64.ofText?, trimmed]
  generalize s.toList = cs at isNumeral
  cases isNumeral with
  | mk sign mantissa power =>
    simp [readSign_append sign mantissa.unsigned, grouped?_append mantissa power]

end Conversion

/-! ### What a rule for numbers takes -/

/-- Whether a text is a number in plain decimal form. -/
def IsNumber (s : String) : Prop :=
  ∃ n, IsNumeral s.toList n

theorem isNumber_iff {s : String} : IsNumber s ↔ (Numeral.signed? s.toList).isSome = true := by
  simp [IsNumber, Option.isSome_iff_exists, signed?_eq_some_iff]

instance (s : String) : Decidable (IsNumber s) :=
  decidable_of_iff _ isNumber_iff.symm

example : IsNumber ".5E-3" ∧ IsNumber "5." ∧ ¬ IsNumber "." ∧ ¬ IsNumber "5e" := by
  decide +kernel

namespace Rule

variable {rule : Rule} {s : String}

theorem coerceNumber_of_isNumeral {n : Numeral}
    (isNumeral : IsNumeral (Text.strip s).toList n) :
    rule.coerceNumber (.text s) =
      if rule.integer = true ∧ ¬ admitsInteger (.ofNumeral n) = true then
        .error (.badArgument rule "not an integer")
      else .ok (numberDatum (.ofNumeral n)) := by
  rw [Text.strip, String.toList_ofList, ← signed?_eq_some_iff] at isNumeral
  simp [coerceNumber, Datum.display, isNumeral, reject]

theorem coerceNumber_of_not_isNumber (other : ¬ IsNumber (Text.strip s)) :
    rule.coerceNumber (.text s) = .error (.badArgument rule "not a number") := by
  have unread : Numeral.signed? (Text.trim s.toList) = none := by
    rw [isNumber_iff, Text.strip, String.toList_ofList] at other
    simpa using other
  simp [coerceNumber, Datum.display, unread, reject]

/-- A rule for numbers without refinement takes exactly the texts that are numbers, up to blanks
around them, and the conversion gives a double for each of them. Every other text is refused. -/
theorem takes_numbers_exactly (rule : Rule) (unrefined : rule.integer = false) (s : String) :
    ((∃ d, rule.coerceNumber (.text s) = .ok d) ↔ IsNumber (Text.strip s)) ∧
      (IsNumber (Text.strip s) → ∃ x, Binary64.ofText? (Text.strip s) = some x ∧
        rule.coerceNumber (.text s) = .ok (numberDatum x)) ∧
      (¬ IsNumber (Text.strip s) →
        rule.coerceNumber (.text s) = .error (.badArgument rule "not a number")) := by
  have taken : IsNumber (Text.strip s) → ∃ x, Binary64.ofText? (Text.strip s) = some x ∧
      rule.coerceNumber (.text s) = .ok (numberDatum x) := by
    rintro ⟨n, isNumeral⟩
    refine ⟨.ofNumeral n, Binary64.ofText?_of_isNumeral isNumeral ?_, ?_⟩
    · rw [Text.strip, String.toList_ofList, Text.trimWhiteSpace_trim]
    · simp [coerceNumber_of_isNumeral isNumeral, unrefined]
  refine ⟨⟨?_, ?_⟩, taken, coerceNumber_of_not_isNumber⟩
  · rintro ⟨d, accepted⟩
    apply Decidable.byContradiction
    intro other
    rw [coerceNumber_of_not_isNumber other] at accepted
    cases accepted
  · intro isNumber
    obtain ⟨x, -, accepted⟩ := taken isNumber
    exact ⟨_, accepted⟩

theorem takes_numbers_exactly_powers :
    ({ kind := .number, name := .text "n" } : Rule).integer = false ∧
      IsNumber (Text.strip " -٣.5e+٠2\n") ∧
      (∃ x, Binary64.ofText? (Text.strip " -٣.5e+٠2\n") = some x ∧
        coerceNumber { kind := .number, name := .text "n" } (.text " -٣.5e+٠2\n") =
          .ok (numberDatum x)) ∧
      coerceNumber { kind := .number, name := .text "n" } (.text "1_0") =
        .error (.badArgument { kind := .number, name := .text "n" } "not a number") := by
  have unrefined : ({ kind := .number, name := .text "n" } : Rule).integer = false := rfl
  have isNumber : IsNumber (Text.strip " -٣.5e+٠2\n") := by decide +kernel
  have other : ¬ IsNumber (Text.strip "1_0") := by decide +kernel
  exact ⟨unrefined, isNumber, (takes_numbers_exactly _ unrefined _).2.1 isNumber,
    (takes_numbers_exactly _ unrefined _).2.2 other⟩

end Rule

end Switchboard
