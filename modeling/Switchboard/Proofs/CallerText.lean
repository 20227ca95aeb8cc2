import Switchboard.Console.Session
import Switchboard.Proofs.NegativeNumber

/-!
The ids that texts spell. What is taken for a number is more than what can be read as one: a second
minus sign, a digit that is only a mark and a row of too many digits are refused, and a session is
not started for them.
-/
namespace Switchboard

/-! ### Digits in the wide sense -/

namespace Text

variable {c : Char}

theorem isWhiteSpace_of_isDigitMark (mark : isDigitMark c = true) : isWhiteSpace c = false := by
  have apart : ∀ range ∈ markedDigits, range.2 < range.1 + 11 ∧
      ∀ k < 11, isWhiteSpace (Char.ofNat (range.1 + k)) = false := by
    decide +kernel
  rcases (Bool.or_eq_true _ _).mp mark with decimal | marked
  · obtain ⟨digit, value⟩ := Option.isSome_iff_exists.mp decimal
    have solid := isBlank_of_digitValue? value
    exact (Bool.or_eq_false_iff.mp solid).1
  · obtain ⟨range, member, bounds⟩ := List.any_eq_true.mp marked
    simp only [Bool.and_eq_true, decide_eq_true_eq] at bounds
    obtain ⟨short, solid⟩ := apart range member
    have here := solid (c.toNat - range.1) (by omega)
    rwa [Nat.add_sub_cancel' bounds.1, Char.ofNat_toNat] at here

theorem not_sign_of_isDigitMark (mark : isDigitMark c = true) : c ≠ '+' ∧ c ≠ '-' := by
  constructor
  · rintro rfl
    exact absurd mark (by decide)
  · rintro rfl
    exact absurd mark (by decide)

theorem isDigitMark_of_isDecimalDigit (decimal : isDecimalDigit c = true) :
    isDigitMark c = true := by
  simp [isDigitMark, decimal]

end Text

/-! ### What a text is taken for -/

namespace CallerId

/-- How a whole number is written as an id: a row of digits, with at most one minus sign. -/
inductive IsPlain : List Char → Int → Prop where
  | unsigned (filled : row ≠ []) (isRow : IsRow row digits) : IsPlain row (digitsValue digits)
  | negative (filled : row ≠ []) (isRow : IsRow row digits) :
      IsPlain ('-' :: row) (-(digitsValue digits : Int))

/-- The id that a text stands for: the number that it is written as, else the text itself. -/
inductive Spells (s : String) : CallerId → Prop where
  | number (plain : IsPlain s.toList n) : Spells s (.number n)
  | name (other : ∀ n, ¬ IsPlain s.toList n) : Spells s (.name s)

/-- Minus signs with a row of digits in the wide sense behind them. -/
structure LooksNumeric (s : String) (signs : Nat) (row : List Char) : Prop where
  parts : s.toList = List.replicate signs '-' ++ row
  filled : row ≠ []
  marks : ∀ c ∈ row, Text.isDigitMark c = true

/-- Whether a text looks like a number and cannot be read as one: it has a second minus sign, a
digit that is only a mark, or more digits than a number may have. -/
def IsMistaken (s : String) : Prop :=
  ∃ signs row, LooksNumeric s signs row ∧
    (2 ≤ signs ∨ (∃ c ∈ row, Text.isDecimalDigit c = false) ∨ wholeNumberDigits < row.length)

variable {s : String} {signs : Nat} {row : List Char} {digits : List Nat} {n : Int} {id : CallerId}

theorem LooksNumeric.dropWhile (looks : LooksNumeric s signs row) :
    s.toList.dropWhile (· = '-') = row := by
  rw [looks.parts, List.dropWhile_append_of_pos (by simp)]
  apply Text.dropWhile_of_head?
  intro c first
  simpa using (Text.not_sign_of_isDigitMark (looks.marks c (List.mem_of_mem_head? first))).2

theorem exists_looksNumeric_iff :
    (∃ signs row, LooksNumeric s signs row) ↔
      s.toList.dropWhile (· = '-') ≠ [] ∧
        (s.toList.dropWhile (· = '-')).all Text.isDigitMark = true := by
  constructor
  · rintro ⟨signs, row, looks⟩
    rw [looks.dropWhile, List.all_eq_true]
    exact ⟨looks.filled, looks.marks⟩
  · rintro ⟨filled, marks⟩
    have front : s.toList.takeWhile (· = '-') =
        List.replicate (s.toList.takeWhile (· = '-')).length '-' := by
      rw [List.eq_replicate_iff]
      refine ⟨rfl, fun c member => ?_⟩
      simpa using List.all_eq_true.mp List.all_takeWhile c member
    refine ⟨(s.toList.takeWhile (· = '-')).length, _, ?_, filled, List.all_eq_true.mp marks⟩
    rw [← front, List.takeWhile_append_dropWhile]

theorem ofText_of_looksNumeric (looks : LooksNumeric s signs row) :
    ofText s = match readWholeNumber s with
      | .ok n => .ok (.number n)
      | .error fault => .error (.invalidValue (numberMessage s fault)) :=
  if_pos (exists_looksNumeric_iff.mp ⟨signs, row, looks⟩)

theorem ofText_of_not_looksNumeric (other : ¬ ∃ signs row, LooksNumeric s signs row) :
    ofText s = .ok (.name s) :=
  if_neg (mt exists_looksNumeric_iff.mpr other)

/-! ### Reading what looks like a number -/

theorem LooksNumeric.trimWhiteSpace (looks : LooksNumeric s signs row) :
    Text.trimWhiteSpace s.toList = s.toList := by
  have solid : ∀ c ∈ s.toList, Text.isWhiteSpace c = false := by
    rw [looks.parts]
    simp only [List.forall_mem_append]
    refine ⟨?_, fun c member => Text.isWhiteSpace_of_isDigitMark (looks.marks c member)⟩
    intro c member
    rw [List.eq_of_mem_replicate member]
    decide
  apply Text.trimWhiteSpace_eq_self
  · exact fun c first => solid c (List.mem_of_mem_head? first)
  · exact fun c last => solid c (List.mem_of_getLast? last)

/-- What is read of it: one minus sign at most, then a row of digits. -/
theorem LooksNumeric.readSign (looks : LooksNumeric s signs row) :
    Switchboard.readSign s.toList = (decide (signs ≠ 0), List.replicate (signs - 1) '-' ++ row) := by
  rw [looks.parts]
  cases signs with
  | zero =>
    have unsigned : ∀ c ∈ row.head?, c ≠ '+' ∧ c ≠ '-' := fun c first =>
      Text.not_sign_of_isDigitMark (looks.marks c (List.mem_of_mem_head? first))
    exact readSign_append .absent unsigned
  | succ signs => rfl

/-- Nothing is read to its end but a row of digits with one minus sign at most. -/
theorem LooksNumeric.isRow (looks : LooksNumeric s signs row)
    (read : readGrouped? (List.replicate (signs - 1) '-' ++ row) = some (digits, [])) :
    signs ≤ 1 ∧ IsRow row digits := by
  have single : signs ≤ 1 := by
    apply Nat.le_of_not_lt
    intro second
    obtain ⟨others, rfl⟩ := Nat.exists_eq_add_of_le' second
    have stops : readGrouped? (List.replicate (others + 1) '-' ++ row) = none :=
      readGrouped?_none (by simp [List.replicate_succ, digitValue?_mark])
    cases stops.symm.trans read
  have alone : signs - 1 = 0 := by omega
  have ungrouped : '_' ∉ row := fun member => absurd (looks.marks '_' member) (by decide)
  rw [alone, List.replicate_zero, List.nil_append] at read
  exact ⟨single, isRow_of_readGrouped? ungrouped read⟩

theorem readWholeNumber_of_isMistaken (mistaken : IsMistaken s) :
    ∃ fault, Switchboard.readWholeNumber s = .error fault := by
  obtain ⟨signs, row, looks, wrong⟩ := mistaken
  unfold Switchboard.readWholeNumber
  rw [looks.trimWhiteSpace, looks.readSign]
  dsimp only
  cases read : readGrouped? (List.replicate (signs - 1) '-' ++ row) with
  | none => exact ⟨_, rfl⟩
  | some result =>
    obtain ⟨values, after⟩ := result
    dsimp only
    by_cases long : wholeNumberDigits < values.length
    · exact ⟨_, if_pos long⟩
    by_cases more : after ≠ []
    · exact ⟨.malformed, by rw [if_neg long, if_pos more]⟩
    obtain rfl := Decidable.not_not.mp more
    obtain ⟨single, isRow⟩ := looks.isRow read
    rw [isRow.length_eq] at long
    rcases wrong with second | ⟨c, member, mark⟩ | tooLong
    · omega
    · rw [isRow.isDecimalDigit c member] at mark
      cases mark
    · exact absurd tooLong long

/-- A number that is not too long is read as it is written. -/
theorem LooksNumeric.readWholeNumber (looks : LooksNumeric s signs row) (single : signs ≤ 1)
    (isRow : IsRow row digits) (short : row.length ≤ wholeNumberDigits) :
    Switchboard.readWholeNumber s =
      .ok (if signs ≠ 0 then -(digitsValue digits : Int) else digitsValue digits) := by
  have alone : signs - 1 = 0 := by omega
  have fits : ¬ wholeNumberDigits < digits.length := by
    rw [isRow.length_eq]
    exact Nat.not_lt.mpr short
  unfold Switchboard.readWholeNumber
  rw [looks.trimWhiteSpace, looks.readSign, alone]
  simp [readGrouped?_row isRow looks.filled, fits]

/-! ### The ids -/

theorem IsPlain.looksNumeric (plain : IsPlain s.toList n) :
    ∃ signs row digits, LooksNumeric s signs row ∧ signs ≤ 1 ∧ IsRow row digits ∧
      n = if signs ≠ 0 then -(digitsValue digits : Int) else digitsValue digits := by
  have marks {row : List Char} {digits : List Nat} (isRow : IsRow row digits) :
      ∀ c ∈ row, Text.isDigitMark c = true := fun c member =>
    Text.isDigitMark_of_isDecimalDigit (isRow.isDecimalDigit c member)
  generalize spelled : s.toList = cs at plain
  cases plain with
  | unsigned filled isRow =>
    exact ⟨0, _, _, ⟨spelled, filled, marks isRow⟩, by decide, isRow, rfl⟩
  | negative filled isRow =>
    exact ⟨1, _, _, ⟨spelled, filled, marks isRow⟩, by decide, isRow, rfl⟩

theorem LooksNumeric.isPlain (looks : LooksNumeric s signs row) (single : signs ≤ 1)
    (isRow : IsRow row digits) : ∃ n, IsPlain s.toList n := by
  rw [looks.parts]
  obtain rfl | rfl : signs = 0 ∨ signs = 1 := by omega
  · exact ⟨_, .unsigned looks.filled isRow⟩
  · exact ⟨_, .negative looks.filled isRow⟩

theorem ofText_of_isMistaken (mistaken : IsMistaken s) :
    ∃ fault, ofText s = .error (.invalidValue (numberMessage s fault)) := by
  obtain ⟨fault, read⟩ := readWholeNumber_of_isMistaken mistaken
  obtain ⟨signs, row, looks, -⟩ := mistaken
  exact ⟨fault, by rw [ofText_of_looksNumeric looks, read]⟩

/-- A text gives the id that it stands for, unless it is mistaken for a number. -/
theorem ofText_of_spells (spells : Spells s id) (fine : ¬ IsMistaken s) : ofText s = .ok id := by
  cases spells with
  | number plain =>
    obtain ⟨signs, row, digits, looks, single, isRow, rfl⟩ := plain.looksNumeric
    have short : row.length ≤ wholeNumberDigits := by
      apply Nat.le_of_not_lt
      exact fun long => fine ⟨signs, row, looks, .inr (.inr long)⟩
    rw [ofText_of_looksNumeric looks, looks.readWholeNumber single isRow short]
  | name other =>
    apply ofText_of_not_looksNumeric
    rintro ⟨signs, row, looks⟩
    have single : ¬ 2 ≤ signs := fun second => fine ⟨signs, row, looks, .inl second⟩
    have decimals : ∀ c ∈ row, Text.isDecimalDigit c = true := by
      intro c member
      apply Decidable.byContradiction
      intro mark
      exact fine ⟨signs, row, looks, .inr (.inl ⟨c, member, by simpa using mark⟩)⟩
    obtain ⟨digits, isRow⟩ := exists_isRow decimals
    obtain ⟨n, plain⟩ := looks.isPlain (by omega) isRow
    exact other n plain

theorem exists_spells (s : String) : ∃ id, Spells s id := by
  by_cases plain : ∃ n, IsPlain s.toList n
  · obtain ⟨n, plain⟩ := plain
    exact ⟨.number n, .number plain⟩
  · exact ⟨.name s, .name (not_exists.mp plain)⟩

end CallerId

/-! ### The command line -/

namespace Console

variable {options : Options} {path : String}

theorem word?_caller (s : String) :
    word? ("--caller=" ++ s) =
      some (.uses [{ switch := .caller, value := some (.ofAttached s.toList) }]) := by
  have named : Switch.ofStart ['c', 'a', 'l', 'l', 'e', 'r'] = [.caller] := by decide
  simp [word?, Text.cut, named, wordOfLong, Switch.takesValue]

/-- What is attached to the switch is what the caller is read from, whatever it is. -/
theorem ofArguments_caller (s : String) :
    Request.ofArguments ["--caller=" ++ s] = .session { caller := .ofAttached s.toList } := by
  have goesOn : "--caller=" ++ s ≠ "--" := by
    intro same
    have spelled := congrArg String.toList same
    rw [String.toList_append] at spelled
    simp at spelled
  unfold Request.ofArguments words?
  rw [if_neg goesOn, word?_caller]
  rfl

theorem Options.start_of_callerId (named : options.configText = .ok path) :
    options.start = options.callerId.map fun caller => (path, caller) := by
  unfold Options.start
  rw [named]
  cases options.callerId <;> rfl

theorem Options.callerId_attached (s : String) :
    ({ caller := .ofAttached s.toList } : Options).callerId =
      if s = "--" then .error (.noAttribute "'list' object has no attribute 'lstrip'")
      else CallerId.ofText s := by
  by_cases dashes : s = "--"
  · subst dashes
    rfl
  · have other : s.toList ≠ ['-', '-'] := fun same => dashes (String.toList_injective same)
    simp [Options.callerId, Value.ofAttached, dashes, other]

end Console

namespace CallerId

open Console

/-- Every text is parsed as the id that it stands for, except for those that look like a number and
are none. These are refused, and the program that is given one as its caller does not start but
ends with what is said about the number; two dashes alone end it as well. -/
theorem ofText_eq_ok_iff (s : String) :
    (∀ id, ofText s = .ok id ↔ Spells s id ∧ ¬ IsMistaken s) ∧
    (IsMistaken s → ∃ fault, ofText s = .error (.invalidValue (numberMessage s fault))) ∧
    ∃ options path, Request.ofArguments ["--caller=" ++ s] = .session options ∧
      options.configText = .ok path ∧
      (¬ IsMistaken s ∧ s ≠ "--" → ∃ id, options.start = .ok (path, id) ∧ Spells s id) ∧
      (IsMistaken s ∨ s = "--" → ∃ failure, options.start = .error failure ∧
        refusal failure = (failure.description ++ "\n", 1)) := by
  refine ⟨fun id => ⟨fun parsed => ?_, fun both => ofText_of_spells both.1 both.2⟩,
    ofText_of_isMistaken, _, _, ofArguments_caller s, rfl, ?_, ?_⟩
  · have fine : ¬ IsMistaken s := by
      intro mistaken
      obtain ⟨fault, refused⟩ := ofText_of_isMistaken mistaken
      rw [refused] at parsed
      cases parsed
    obtain ⟨other, spells⟩ := exists_spells s
    have same := ofText_of_spells spells fine
    rw [parsed] at same
    obtain rfl := Except.ok.inj same
    exact ⟨spells, fine⟩
  · rintro ⟨fine, goesOn⟩
    obtain ⟨id, spells⟩ := exists_spells s
    refine ⟨id, ?_, spells⟩
    rw [Options.start_of_callerId rfl, Options.callerId_attached, if_neg goesOn,
      ofText_of_spells spells fine]
    rfl
  · intro ends
    rw [Options.start_of_callerId rfl, Options.callerId_attached]
    by_cases dashes : s = "--"
    · rw [if_pos dashes]
      exact ⟨_, rfl, rfl⟩
    · obtain ⟨fault, refused⟩ := ofText_of_isMistaken (ends.resolve_right dashes)
      rw [if_neg dashes, refused]
      exact ⟨_, rfl, rfl⟩

/-- A raised two is no number and stands for itself, and yet it is refused as a number. -/
theorem raised_digit_refused :
    Spells "²" (.name "²") ∧
      ofText "²" =
        .error (.invalidValue "invalid literal for int() with base 10: '²'") ∧
      ∃ options failure, Request.ofArguments ["--caller=²"] = .session options ∧
        options.start = .error failure ∧
        refusal failure = ("invalid literal for int() with base 10: '²'\n", 1) := by
  have alone : ∀ n, ¬ IsPlain "²".toList n := by
    intro n plain
    obtain ⟨signs, row, digits, looks, -, isRow, -⟩ := plain.looksNumeric
    have decimal := isRow.isDecimalDigit '²' (by rw [← looks.dropWhile]; decide)
    exact absurd decimal (by decide)
  have looks : LooksNumeric "²" 0 ['²'] :=
    ⟨rfl, by simp, List.forall_mem_singleton.mpr (by decide)⟩
  have read : readWholeNumber "²" = .error .malformed := rfl
  have said : numberMessage "²" .malformed =
      "invalid literal for int() with base 10: '²'" := by decide +kernel
  have refused := ofText_of_looksNumeric looks
  simp only [read, said] at refused
  have ended : ({ caller := .text "²" } : Options).start = .error (.invalidValue
      "invalid literal for int() with base 10: '²'") := by
    rw [Options.start_of_callerId rfl]
    exact congrArg (Except.map _) refused
  exact ⟨.name alone, refused, _, _, ofArguments_caller "²", ended, by decide⟩

end CallerId
end Switchboard
