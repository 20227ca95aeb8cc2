import Switchboard.Proofs.NumberText
import Switchboard.Proofs.TokenRole

/-!
Negative numbers among the tokens of a line. What starts with a dash is an option or a number, and a
rule for numbers has its own view of what a number is: it takes numbers with blanks around them. The
two views differ for numbers with blanks behind them, and for nothing else.
-/
namespace Switchboard

/-! ### Blanks around numbers -/

/-- No digit of any script is a blank. -/
theorem Text.isBlank_of_digitValue? {c : Char} {digit : Nat} (value : digitValue? c = some digit) :
    isBlank c = false := by
  have apart : ∀ start ∈ zeroDigits, ∀ k < 10, isBlank (Char.ofNat (start + k)) = false := by
    decide +kernel
  obtain ⟨start, found, -⟩ := Option.map_eq_some_iff.mp value
  have here := List.find?_some found
  simp only [Bool.and_eq_true, decide_eq_true_eq] at here
  have blank := apart start (List.mem_of_find?_eq_some found) (c.toNat - start) (by omega)
  rwa [Nat.add_sub_cancel' here.1, Char.ofNat_toNat] at blank

section Solid

variable {cs : List Char}

theorem IsRow.solid {digits : List Nat} (isRow : IsRow cs digits) :
    ∀ c ∈ cs, Text.isBlank c = false := by
  intro c member
  obtain ⟨digit, value⟩ := Option.isSome_iff_exists.mp (isRow.isDecimalDigit c member)
  exact Text.isBlank_of_digitValue? value

theorem IsSign.solid {negative : Bool} (sign : IsSign cs negative) :
    ∀ c ∈ cs, Text.isBlank c = false := by
  cases sign with
  | absent => simp
  | plus | minus => exact List.forall_mem_singleton.mpr (by decide)

theorem IsMantissa.solid {whole fraction : List Nat} (mantissa : IsMantissa cs whole fraction) :
    ∀ c ∈ cs, Text.isBlank c = false := by
  have point : Text.isBlank '.' = false := by decide
  cases mantissa with
  | plain _ isRow => exact isRow.solid
  | pointed _ isRow places =>
    simp only [List.forall_mem_append, List.forall_mem_cons]
    exact ⟨isRow.solid, point, places.solid⟩
  | leading _ places =>
    simp only [List.forall_mem_cons]
    exact ⟨point, places.solid⟩

theorem IsExponent.solid {exponent : Int} (power : IsExponent cs exponent) :
    ∀ c ∈ cs, Text.isBlank c = false := by
  cases power with
  | absent => simp
  | written letter sign _ isRow =>
    simp only [List.forall_mem_append, List.forall_mem_cons]
    refine ⟨?_, sign.solid, isRow.solid⟩
    rcases letter with rfl | rfl <;> decide

/-- No numeral has a blank in it. -/
theorem IsNumeral.solid {n : Numeral} (isNumeral : IsNumeral cs n) :
    ∀ c ∈ cs, Text.isBlank c = false := by
  cases isNumeral with
  | mk sign mantissa power =>
    simp only [List.forall_mem_append]
    exact ⟨sign.solid, mantissa.solid, power.solid⟩

end Solid

/-! ### The two views -/

namespace Line

variable {rule : Rule} {token : String} {n : Numeral}

/-- Whether no blanks follow what a token says, except for one line feed. -/
def EndsTight (token : String) : Prop :=
  token = Text.strip token ∨ token = Text.strip token ++ "\n"

instance (token : String) : Decidable (EndsTight token) :=
  inferInstanceAs (Decidable (_ ∨ _))

theorem isNegativeNumber_iff {cs : List Char} :
    isNegativeNumber cs = true ↔
      (Text.dropFinalNewline cs).head? = some '-' ∧ ∃ n, IsNumeral (Text.dropFinalNewline cs) n := by
  simp only [← signed?_eq_some_iff, ← Option.isSome_iff_exists]
  unfold isNegativeNumber
  cases Text.dropFinalNewline cs with
  | nil => simp
  | cons c rest =>
    by_cases minus : c = '-'
    · subst minus
      simp [Numeral.signed?, readSign]
    · simp [minus]

/-- A token with a dash in front is no option exactly if it is a negative number. -/
theorem isOption_of_dashed (dashed : token.toList.head? = some '-') (further : token ≠ "-") :
    isOption token = ! isNegativeNumber token.toList := by
  have more : token.toList ≠ ['-'] := fun same => further (String.toList_injective same)
  obtain ⟨cs, spelled⟩ := List.head?_eq_some_iff.mp dashed
  unfold isOption
  rw [spelled] at more ⊢
  cases cs with
  | nil => exact absurd rfl more
  | cons c cs => rfl

/-- What a negative number says is what is left of it without a final line feed. -/
theorem strip_of_isNumeral (isNumeral : IsNumeral (Text.dropFinalNewline token.toList) n) :
    (Text.strip token).toList = Text.dropFinalNewline token.toList := by
  have none : ∀ c ∈ ([] : List Char), Text.isBlank c = true := by simp
  have feed : ∀ c ∈ ['\n'], Text.isBlank c = true :=
    List.forall_mem_singleton.mpr (by decide)
  have plain := Text.trim_append isNumeral.solid none
  have ended := Text.trim_append isNumeral.solid feed
  rw [Text.strip, String.toList_ofList]
  rcases Text.dropFinalNewline_cases token.toList with same | same
  · rw [same, List.append_nil] at plain
    rw [plain, same]
  · rwa [← same] at ended

theorem endsTight_of_isNumeral (isNumeral : IsNumeral (Text.dropFinalNewline token.toList) n) :
    EndsTight token := by
  have stripped := strip_of_isNumeral isNumeral
  rcases Text.dropFinalNewline_cases token.toList with same | same
  · left
    rw [← String.toList_inj, stripped, same]
  · right
    rw [← String.toList_inj, String.toList_append, stripped]
    exact same

/-- A number with no blanks behind it is what is left without a final line feed. -/
theorem dropFinalNewline_of_endsTight (tight : EndsTight token)
    (isNumeral : IsNumeral (Text.strip token).toList n) :
    Text.dropFinalNewline token.toList = (Text.strip token).toList := by
  rcases tight with same | same
  · rw [← same] at isNumeral ⊢
    rcases Text.dropFinalNewline_cases token.toList with kept | ended
    · exact kept
    · have blank := isNumeral.solid '\n' (by rw [ended]; simp)
      exact absurd blank (by decide)
  · have ended := congrArg String.toList same
    rw [String.toList_append] at ended
    rw [ended]
    exact Text.dropFinalNewline_append _

end Line

namespace Rule

variable {rule : Rule} {s : String}

theorem takes_iff (unrefined : rule.integer = false) :
    (∃ d, rule.coerceNumber (.text s) = .ok d) ↔ IsNumber (Text.strip s) := by
  constructor
  · rintro ⟨d, taken⟩
    apply Decidable.byContradiction
    intro other
    rw [coerceNumber_of_not_isNumber other] at taken
    cases taken
  · rintro ⟨n, isNumeral⟩
    refine ⟨numberDatum (.ofNumeral n), ?_⟩
    simp [coerceNumber_of_isNumeral isNumeral, unrefined]

end Rule

namespace Line

variable {rule : Rule} {token : String}

/-- A token with a dash in front is no option exactly if a rule for numbers takes it and no blanks
follow. -/
theorem isOption_eq_false_iff (unrefined : rule.integer = false)
    (dashed : token.toList.head? = some '-') (further : token ≠ "-") :
    isOption token = false ↔
      (∃ d, rule.coerceNumber (.text token) = .ok d) ∧ EndsTight token := by
  rw [isOption_of_dashed dashed further, Bool.not_eq_eq_eq_not, Bool.not_false,
    isNegativeNumber_iff, Rule.takes_iff unrefined]
  constructor
  · rintro ⟨-, n, isNumeral⟩
    refine ⟨⟨n, ?_⟩, endsTight_of_isNumeral isNumeral⟩
    rwa [strip_of_isNumeral isNumeral]
  · rintro ⟨⟨n, isNumeral⟩, tight⟩
    rw [dropFinalNewline_of_endsTight tight isNumeral]
    refine ⟨?_, n, isNumeral⟩
    rcases tight with same | same
    · rwa [← same]
    · rw [same, String.toList_append, List.head?_append] at dashed
      cases first : (Text.strip token).toList.head? with
      | none =>
        rw [first] at dashed
        exact absurd dashed (by decide)
      | some c =>
        rw [first] at dashed
        exact dashed

theorem role_eq_option_iff (place : Place) :
    place.role = .option ↔ isOption place.token = true := by
  unfold Place.role
  cases isOption place.token with
  | true => simp
  | false => cases place.before.any takesValue <;> simp

/-- The two views of what is a negative number agree but for blanks. Of the tokens that start with a
dash, a dash alone apart, those are options wherever they stand that a rule for numbers does not
take, and besides these exactly the numbers that blanks follow, more than one line feed. -/
theorem recognizers_agree_iff (rule : Rule) (unrefined : rule.integer = false) (token : String)
    (dashed : token.toList.head? = some '-') (further : token ≠ "-") :
    ((∃ d, rule.coerceNumber (.text token) = .ok d) →
      (isOption token = false ↔ EndsTight token)) ∧
    ((¬ ∃ d, rule.coerceNumber (.text token) = .ok d) → isOption token = true) ∧
    ∀ place : Place, place.token = token →
      (place.role = .option ↔
        ¬ ((∃ d, rule.coerceNumber (.text token) = .ok d) ∧ EndsTight token)) := by
  have views := isOption_eq_false_iff unrefined dashed further
  refine ⟨?_, ?_, ?_⟩
  · intro taken
    rw [views]
    exact and_iff_right taken
  · intro refused
    rw [← Bool.not_eq_false, views]
    exact fun both => refused both.1
  · rintro place rfl
    rw [role_eq_option_iff, ← views, Bool.not_eq_false]

/-- A rule for numbers, without refinement. -/
def numberRule : Rule :=
  { kind := .number, name := .text "n" }

/-- A negative number is a value, with a line feed behind it as well, and letters are options. -/
theorem recognizers_agree_lineFeed :
    isOption "-٣.5e+٠2\n" = false ∧ isOption "-5x" = true ∧
      (∀ place : Place, place.token = "-٣.5e+٠2\n" → place.role ≠ .option) := by
  have taken : ∃ d, numberRule.coerceNumber (.text "-٣.5e+٠2\n") = .ok d :=
    (Rule.takes_iff rfl).mpr (by decide +kernel)
  have refused : ¬ ∃ d, numberRule.coerceNumber (.text "-5x") = .ok d := by
    rw [Rule.takes_iff rfl]
    decide +kernel
  have tight : EndsTight "-٣.5e+٠2\n" := by decide +kernel
  obtain ⟨value, -, role⟩ :=
    recognizers_agree_iff numberRule rfl "-٣.5e+٠2\n" (by decide) (by decide)
  obtain ⟨-, option, -⟩ := recognizers_agree_iff numberRule rfl "-5x" (by decide) (by decide)
  refine ⟨(value taken).mpr tight, option refused, fun place same => ?_⟩
  exact fun isOption => (role place same).mp isOption ⟨taken, tight⟩

/-- A number with a blank behind it is taken by a rule for numbers, and yet turned into options. -/
theorem number_turned_into_options :
    "-5 ".toList.head? = some '-' ∧ (∃ d, numberRule.coerceNumber (.text "-5 ") = .ok d) ∧
      isOption "-5 " = true ∧
      splitOptions ["-5 "] = ([], [("5", .flag true), (" ", .flag true)]) := by
  refine ⟨by decide, ?_, by decide +kernel, by decide +kernel⟩
  exact (Rule.takes_iff rfl).mpr (by decide +kernel)

end Line
end Switchboard
