import Switchboard.Number.Numeral

/-!
The form of decimal numbers: rows of digits, signs and powers of ten. A text is read as a numeral
exactly if it has this form.
-/
namespace Switchboard

/-- A row of decimal digits of any script, with the values of the digits. -/
def IsRow (row : List Char) (digits : List Nat) : Prop :=
  row.map Text.digitValue? = digits.map some

/-- An optional sign, of which only a minus makes a number negative. -/
inductive IsSign : List Char → Bool → Prop where
  | absent : IsSign [] false
  | plus : IsSign ['+'] false
  | minus : IsSign ['-'] true

/-- The digits of a number, those in front of the point and those behind it: a row alone, a row with
a point and perhaps further digits behind it, or a point with a row behind it. -/
inductive IsMantissa : List Char → List Nat → List Nat → Prop where
  | plain (filled : row ≠ []) (digits : IsRow row whole) : IsMantissa row whole []
  | pointed (filled : row ≠ []) (digits : IsRow row whole) (places : IsRow others fraction) :
      IsMantissa (row ++ '.' :: others) whole fraction
  | leading (filled : row ≠ []) (places : IsRow row fraction) : IsMantissa ('.' :: row) [] fraction

/-- An optional power of ten: a letter, an optional sign and a row of digits. -/
inductive IsExponent : List Char → Int → Prop where
  | absent : IsExponent [] 0
  | written (letter : e = 'e' ∨ e = 'E') (sign : IsSign mark negative) (filled : row ≠ [])
      (digits : IsRow row size) :
      IsExponent (e :: (mark ++ row))
        (if negative then -(digitsValue size : Int) else digitsValue size)

/-- How a numeral is written: with an optional sign, digits and an optional power of ten. -/
inductive IsNumeral : List Char → Numeral → Prop where
  | mk (sign : IsSign mark negative) (mantissa : IsMantissa digits whole fraction)
      (power : IsExponent tail exponent) :
      IsNumeral (mark ++ (digits ++ tail)) { negative, whole, fraction, exponent }

/-! ### Rows of digits -/

section Rows

variable {row rest cs : List Char} {digits : List Nat} {c : Char}

@[simp] theorem isRow_nil : IsRow [] digits ↔ digits = [] := by
  cases digits <;> simp [IsRow]

@[simp] theorem isRow_cons :
    IsRow (c :: row) digits ↔
      ∃ digit others, Text.digitValue? c = some digit ∧ IsRow row others ∧
        digits = digit :: others := by
  cases digits with
  | nil => simp [IsRow]
  | cons digit others =>
    simp only [IsRow, List.map_cons, List.cons.injEq]
    constructor
    · rintro ⟨first, further⟩
      exact ⟨digit, others, first, further, rfl, rfl⟩
    · rintro ⟨_, _, first, further, rfl, rfl⟩
      exact ⟨first, further⟩

theorem IsRow.ne_nil_iff (isRow : IsRow row digits) : digits ≠ [] ↔ row ≠ [] := by
  cases row with
  | nil => simpa using isRow
  | cons c row =>
    obtain ⟨digit, others, -, -, rfl⟩ := isRow_cons.mp isRow
    simp

theorem IsRow.exists_cons (isRow : IsRow row digits) (filled : row ≠ []) :
    ∃ first others, digits = first :: others :=
  List.exists_cons_of_ne_nil (isRow.ne_nil_iff.mpr filled)

theorem IsRow.isDecimalDigit (isRow : IsRow row digits) :
    ∀ c ∈ row, Text.isDecimalDigit c = true := by
  induction row generalizing digits with
  | nil => simp
  | cons c row ih =>
    obtain ⟨digit, others, value, further, -⟩ := isRow_cons.mp isRow
    simp only [List.forall_mem_cons]
    exact ⟨by simp [Text.isDecimalDigit, value], ih further⟩

theorem IsRow.length_eq (isRow : IsRow row digits) : digits.length = row.length := by
  have lengths := congrArg List.length isRow
  rw [List.length_map, List.length_map] at lengths
  exact lengths.symm

/-- Decimal digits are a row. -/
theorem exists_isRow (all : ∀ c ∈ row, Text.isDecimalDigit c = true) :
    ∃ digits, IsRow row digits := by
  induction row with
  | nil => exact ⟨[], rfl⟩
  | cons c row ih =>
    obtain ⟨decimal, further⟩ := List.forall_mem_cons.mp all
    obtain ⟨digit, value⟩ := Option.isSome_iff_exists.mp decimal
    obtain ⟨others, isRow⟩ := ih further
    exact ⟨digit :: others, isRow_cons.mpr ⟨digit, others, value, isRow, rfl⟩⟩

/-- The characters that have a meaning of their own beside digits are none themselves. -/
theorem digitValue?_mark (mark : c ∈ ['.', 'e', 'E', '+', '-', '_']) :
    Text.digitValue? c = none := by
  simp only [List.mem_cons, List.not_mem_nil, or_false] at mark
  rcases mark with rfl | rfl | rfl | rfl | rfl | rfl <;> rfl

theorem IsRow.unmarked (isRow : IsRow row digits) :
    ∀ c ∈ row.head?, c ∉ ['.', 'e', 'E', '+', '-', '_'] := by
  intro c here mark
  cases row with
  | nil => cases here
  | cons first row =>
    obtain rfl := Option.some.inj here
    simp [digitValue?_mark mark] at isRow

theorem IsRow.unsigned (isRow : IsRow row digits) : ∀ c ∈ row.head?, c ≠ '+' ∧ c ≠ '-' := by
  intro c here
  constructor
  · rintro rfl
    exact isRow.unmarked '+' here (by decide)
  · rintro rfl
    exact isRow.unmarked '-' here (by decide)

theorem IsRow.append_ne_point (isRow : IsRow row digits) (filled : row ≠ [])
    (inner : List Char) : row ++ rest ≠ '.' :: inner := by
  intro same
  obtain ⟨first, others, rfl⟩ := List.exists_cons_of_ne_nil filled
  obtain ⟨rfl, -⟩ := List.cons.inj same
  exact isRow.unmarked '.' rfl List.mem_cons_self

/-- A row of digits is read up to what is no digit. -/
theorem readDigits_append (isRow : IsRow row digits)
    (stops : ∀ c ∈ rest.head?, Text.digitValue? c = none) :
    readDigits (row ++ rest) = (digits, rest) := by
  induction row generalizing digits with
  | nil =>
    obtain rfl := isRow_nil.mp isRow
    cases rest with
    | nil => rfl
    | cons c rest => simp [readDigits, stops c rfl]
  | cons c row ih =>
    obtain ⟨digit, others, first, further, rfl⟩ := isRow_cons.mp isRow
    simp [readDigits, first, ih further]

theorem readDigits_row (isRow : IsRow row digits) : readDigits row = (digits, []) := by
  have whole : readDigits (row ++ []) = (digits, []) := readDigits_append isRow (by simp)
  simpa using whole

/-- What is read is a row of digits that the text starts with. -/
theorem exists_row (cs : List Char) :
    ∃ row, IsRow row (readDigits cs).1 ∧ row ++ (readDigits cs).2 = cs := by
  induction cs with
  | nil => exact ⟨[], rfl, rfl⟩
  | cons c cs ih =>
    obtain ⟨row, isRow, parts⟩ := ih
    cases first : Text.digitValue? c with
    | none => exact ⟨[], by simp [readDigits, first]⟩
    | some digit => exact ⟨c :: row, by simp [readDigits, first, isRow, parts]⟩

theorem exists_row_of_eq (read : readDigits cs = (digits, rest)) :
    ∃ row, IsRow row digits ∧ row ++ rest = cs := by
  simpa [read] using exists_row cs

theorem readGrouped?_cons {digit : Nat} (value : Text.digitValue? c = some digit)
    (ungrouped : ∀ next ∈ rest.head?, next ≠ '_') :
    readGrouped? (c :: rest) =
      if rest.head?.any Text.isDecimalDigit then
        (readGrouped? rest).map fun (others, after) => (digit :: others, after)
      else some ([digit], rest) := by
  cases rest with
  | nil => simp [readGrouped?, value]
  | cons next rest =>
    simp [readGrouped?, value, ungrouped next rfl]
    rfl

/-- A row of digits without underscores is read up to what is no digit. -/
theorem readGrouped?_append (isRow : IsRow row digits) (filled : row ≠ [])
    (stops : ∀ c ∈ rest.head?, Text.digitValue? c = none ∧ c ≠ '_') :
    readGrouped? (row ++ rest) = some (digits, rest) := by
  induction row generalizing digits with
  | nil => exact absurd rfl filled
  | cons c row ih =>
    obtain ⟨digit, others, value, further, rfl⟩ := isRow_cons.mp isRow
    cases row with
    | nil =>
      obtain rfl := isRow_nil.mp further
      have ends : rest.head?.any Text.isDecimalDigit = false := by
        cases rest with
        | nil => rfl
        | cons next rest => simp [Text.isDecimalDigit, (stops next rfl).1]
      rw [List.singleton_append, readGrouped?_cons value fun next here => (stops next here).2]
      simp [ends]
    | cons second row =>
      obtain ⟨_, _, secondValue, -⟩ := isRow_cons.mp further
      have ungrouped : ∀ next ∈ (second :: row ++ rest).head?, next ≠ '_' := by
        rintro _ ⟨⟩ rfl
        exact further.unmarked '_' rfl (by decide)
      have later := ih further (List.cons_ne_nil _ _)
      rw [List.cons_append, readGrouped?_cons value ungrouped, later]
      simp [Text.isDecimalDigit, secondValue]

theorem readGrouped?_row (isRow : IsRow row digits) (filled : row ≠ []) :
    readGrouped? row = some (digits, []) := by
  have whole : readGrouped? (row ++ []) = some (digits, []) :=
    readGrouped?_append isRow filled (by simp)
  simpa using whole

theorem readGrouped?_none (stops : ∀ c ∈ cs.head?, Text.digitValue? c = none) :
    readGrouped? cs = none := by
  cases cs with
  | nil => rfl
  | cons c rest =>
    unfold readGrouped?
    split <;> simp_all

/-- What is read to its end as a row of digits is one, if no underscores are in it. -/
theorem isRow_of_readGrouped? (ungrouped : '_' ∉ row)
    (read : readGrouped? row = some (digits, [])) : IsRow row digits := by
  by_cases decimals : ∀ c ∈ row, Text.isDecimalDigit c = true
  · obtain ⟨values, isRow⟩ := exists_isRow decimals
    have filled : row ≠ [] := by
      rintro rfl
      cases read
    rw [readGrouped?_row isRow filled] at read
    cases read
    exact isRow
  -- The first character that is no digit would be left over.
  obtain ⟨c, first⟩ : ∃ c, row.find? (! Text.isDecimalDigit ·) = some c := by
    rw [← Option.isSome_iff_exists, List.find?_isSome]
    simpa using decimals
  obtain ⟨mark, front, rest, rfl, before⟩ := List.find?_eq_some_iff_append.mp first
  have stops : Text.digitValue? c = none := by simpa [Text.isDecimalDigit] using mark
  exfalso
  by_cases filled : front = []
  · subst filled
    rw [List.nil_append, readGrouped?_none (by simpa using stops)] at read
    cases read
  · have front : ∀ d ∈ front, Text.isDecimalDigit d = true := by simpa using before
    obtain ⟨values, isRow⟩ := exists_isRow front
    have further : ∀ d ∈ (c :: rest).head?, Text.digitValue? d = none ∧ d ≠ '_' := by
      rintro _ ⟨⟩
      refine ⟨stops, ?_⟩
      rintro rfl
      exact ungrouped (by simp)
    rw [readGrouped?_append isRow filled further] at read
    cases read

theorem readSign_append {mark : List Char} {negative : Bool} (sign : IsSign mark negative)
    (unsigned : ∀ c ∈ rest.head?, c ≠ '+' ∧ c ≠ '-') :
    readSign (mark ++ rest) = (negative, rest) := by
  cases sign with
  | absent =>
    cases rest with
    | nil => rfl
    | cons c rest => simp [readSign, unsigned c rfl]
  | plus => rfl
  | minus => rfl

theorem exists_sign (cs : List Char) :
    ∃ mark negative rest, IsSign mark negative ∧ readSign cs = (negative, rest) ∧
      mark ++ rest = cs := by
  unfold readSign
  split
  · exact ⟨['-'], true, _, .minus, rfl, rfl⟩
  · exact ⟨['+'], false, _, .plus, rfl, rfl⟩
  · exact ⟨[], false, _, .absent, rfl, rfl⟩

end Rows

/-! ### Reading what is written -/

/-- A text with which the digits of a number do not go on, not even behind a point or an
underscore. -/
def StopsDigits (rest : List Char) : Prop :=
  ∀ c ∈ rest.head?, Text.digitValue? c = none ∧ c ≠ '.' ∧ c ≠ '_'

section Reading

open Numeral

variable {cs rest digits tail : List Char} {whole fraction : List Nat} {exponent : Int}

theorem readMantissa?_append (mantissa : IsMantissa digits whole fraction)
    (stops : StopsDigits rest) : readMantissa? (digits ++ rest) = some (whole, fraction, rest) := by
  have noDigit : ∀ c ∈ rest.head?, Text.digitValue? c = none := fun c here => (stops c here).1
  cases mantissa with
  | plain filled isRow =>
    obtain ⟨first, others, rfl⟩ := isRow.exists_cons filled
    rw [readMantissa?, readDigits_append isRow noDigit]
    cases rest with
    | nil => rfl
    | cons c rest => simp [(stops c rfl).2.1]
  | @pointed row _ others _ filled isRow places =>
    obtain ⟨first, further, rfl⟩ := isRow.exists_cons filled
    have point : ∀ c ∈ ('.' :: (others ++ rest)).head?, Text.digitValue? c = none := by
      simp [digitValue?_mark]
    simp [readMantissa?, readDigits_append isRow point, readDigits_append places noDigit]
  | @leading row _ filled places =>
    obtain ⟨first, further, rfl⟩ := places.exists_cons filled
    have point : readDigits ('.' :: (row ++ rest)) = ([], '.' :: (row ++ rest)) := by
      simp [readDigits, digitValue?_mark]
    simp [readMantissa?, point, readDigits_append places noDigit]

theorem exists_mantissa (read : readMantissa? cs = some (whole, fraction, rest)) :
    ∃ digits, IsMantissa digits whole fraction ∧ digits ++ rest = cs := by
  unfold readMantissa? at read
  split at read
  · rename_i others before
    obtain ⟨row, isRow, rfl⟩ := exists_row_of_eq before
    obtain rfl : row = [] := Decidable.not_not.mp fun filled => isRow.ne_nil_iff.mpr filled rfl
    split at read
    · cases read
    · rename_i places after filled behind
      obtain ⟨row, isRow, rfl⟩ := exists_row_of_eq behind
      cases read
      exact ⟨'.' :: row, .leading (isRow.ne_nil_iff.mp filled) isRow, rfl⟩
  · cases read
  · rename_i front others filled before
    obtain ⟨row, isRow, rfl⟩ := exists_row_of_eq before
    obtain ⟨places, isPlaces, parts⟩ := exists_row others
    cases read
    refine ⟨row ++ '.' :: places, .pointed (isRow.ne_nil_iff.mp filled) isRow isPlaces, ?_⟩
    simp [parts]
  · rename_i front after filled _ before
    obtain ⟨row, isRow, rfl⟩ := exists_row_of_eq before
    cases read
    exact ⟨row, .plain (isRow.ne_nil_iff.mp filled) isRow, rfl⟩

theorem exponent?_eq_some_iff : exponent? cs = some exponent ↔ IsExponent cs exponent := by
  constructor
  · intro read
    cases cs with
    | nil =>
      cases read
      exact .absent
    | cons e cs =>
      obtain ⟨mark, negative, unsigned, sign, split, rfl⟩ := exists_sign cs
      simp only [exponent?, split] at read
      split at read
      · rename_i letter
        split at read
        · cases read
        · rename_i size filled whole
          obtain ⟨row, isRow, rfl⟩ := exists_row_of_eq whole
          cases read
          rw [List.append_nil]
          exact .written letter sign (isRow.ne_nil_iff.mp filled) isRow
        · cases read
      · cases read
  · intro isExponent
    cases isExponent with
    | absent => rfl
    | @written e mark negative row size letter sign filled isRow =>
      obtain ⟨first, further, rfl⟩ := isRow.exists_cons filled
      simp [exponent?, letter, readSign_append sign isRow.unsigned, readDigits_row isRow]

theorem IsExponent.stops (power : IsExponent cs exponent) : StopsDigits cs := by
  cases power with
  | absent => simp [StopsDigits]
  | written letter sign filled isRow =>
    rcases letter with rfl | rfl <;> simp [StopsDigits, digitValue?_mark]

theorem IsMantissa.unsigned (mantissa : IsMantissa digits whole fraction) :
    ∀ c ∈ (digits ++ rest).head?, c ≠ '+' ∧ c ≠ '-' := by
  cases mantissa with
  | plain filled isRow =>
    obtain ⟨first, others, rfl⟩ := List.exists_cons_of_ne_nil filled
    exact isRow.unsigned
  | pointed filled isRow places =>
    obtain ⟨first, others, rfl⟩ := List.exists_cons_of_ne_nil filled
    exact isRow.unsigned
  | leading filled places => simp

theorem unsigned?_append (mantissa : IsMantissa digits whole fraction)
    (power : IsExponent tail exponent) :
    unsigned? (digits ++ tail) = some { whole, fraction, exponent } := by
  simp [unsigned?, readMantissa?_append mantissa power.stops, exponent?_eq_some_iff.mpr power]

theorem exists_unsigned {n : Numeral} (read : unsigned? cs = some n) :
    n.negative = false ∧ ∃ digits tail, IsMantissa digits n.whole n.fraction ∧
      IsExponent tail n.exponent ∧ digits ++ tail = cs := by
  unfold unsigned? at read
  split at read
  · cases read
  · rename_i whole fraction rest mantissa
    obtain ⟨digits, isMantissa, rfl⟩ := exists_mantissa mantissa
    obtain ⟨exponent, power, rfl⟩ := Option.map_eq_some_iff.mp read
    exact ⟨rfl, digits, rest, isMantissa, exponent?_eq_some_iff.mp power, rfl⟩

/-- A text is read as a numeral exactly if it is how the numeral is written. -/
theorem signed?_eq_some_iff {n : Numeral} : signed? cs = some n ↔ IsNumeral cs n := by
  constructor
  · intro read
    obtain ⟨mark, negative, rest, sign, split, rfl⟩ := exists_sign cs
    simp only [signed?, split] at read
    obtain ⟨n, unsigned, rfl⟩ := Option.map_eq_some_iff.mp read
    obtain ⟨-, digits, tail, mantissa, power, rfl⟩ := exists_unsigned unsigned
    exact .mk sign mantissa power
  · intro isNumeral
    cases isNumeral with
    | mk sign mantissa power =>
      simp [signed?, readSign_append sign mantissa.unsigned, unsigned?_append mantissa power]

end Reading

end Switchboard
