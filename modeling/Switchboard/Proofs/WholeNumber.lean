import Switchboard.Proofs.JsonNumber
import Switchboard.Proofs.NumberForm

/-!
Whole numbers as texts: an integer that has few enough digits to be written is read as itself.
-/
namespace Switchboard

namespace Text

theorem toNat_of_isDigit {c : Char} (digit : c.isDigit = true) : 48 ≤ c.toNat ∧ c.toNat ≤ 57 :=
  Char.isDigit_iff_toNat.mp digit

theorem digitValue?_of_isDigit {c : Char} (digit : c.isDigit = true) :
    digitValue? c = some (c.toNat - 48) := by
  obtain ⟨least, most⟩ := toNat_of_isDigit digit
  have here : (decide (0x30 ≤ c.toNat) && decide (c.toNat < 0x30 + 10)) = true := by
    rw [Bool.and_eq_true, decide_eq_true_eq, decide_eq_true_eq]
    omega
  obtain ⟨others, first⟩ : ∃ others, zeroDigits = 0x30 :: others := ⟨_, rfl⟩
  simp only [digitValue?, first, List.find?_cons, here, Option.map_some]

theorem isWhiteSpace_of_isDigit {c : Char} (digit : c.isDigit = true) : isWhiteSpace c = false := by
  obtain ⟨least, most⟩ := toNat_of_isDigit digit
  simp only [isWhiteSpace, Bool.or_eq_false_iff, Bool.and_eq_false_iff, decide_eq_false_iff_not,
    beq_eq_false_iff_ne]
  omega

end Text

theorem isRow_digits {digits : List Char} (all : ∀ c ∈ digits, c.isDigit = true) :
    IsRow digits (Json.digitValues digits) := by
  rw [IsRow, Json.digitValues, List.map_map]
  apply List.map_congr_left
  intro c member
  exact Text.digitValue?_of_isDigit (all c member)

/-- The characters that an integer is written with: its sign, if it has one, and its digits. -/
theorem toList_toString (n : Int) :
    (toString n).toList =
      (if decide (n < 0) = true then ['-'] else []) ++ Nat.toDigits 10 n.natAbs := by
  rw [← Json.Spelling.text_ofInt]
  exact congrArg _ (List.append_nil _)

theorem isDigit_of_mem_natAbs {n : Int} {c : Char} (member : c ∈ Nat.toDigits 10 n.natAbs) :
    c.isDigit = true :=
  Nat.isDigit_of_mem_toDigits (by decide) (by decide) member

theorem mem_toString {n : Int} {c : Char} (member : c ∈ (toString n).toList) :
    c = '-' ∨ c.isDigit = true := by
  rw [toList_toString] at member
  rcases List.mem_append.mp member with sign | digit
  · split at sign
    · exact .inl (List.mem_singleton.mp sign)
    · cases sign
  · exact .inr (isDigit_of_mem_natAbs digit)

theorem trimWhiteSpace_toString (n : Int) :
    Text.trimWhiteSpace (toString n).toList = (toString n).toList := by
  have solid {c : Char} (member : c ∈ (toString n).toList) : Text.isWhiteSpace c = false := by
    rcases mem_toString member with rfl | digit
    · decide
    · exact Text.isWhiteSpace_of_isDigit digit
  apply Text.trimWhiteSpace_eq_self
  · exact fun c first => solid (List.mem_of_head? first)
  · exact fun c last => solid (List.mem_of_getLast? last)

theorem isRow_natAbs (n : Int) :
    IsRow (Nat.toDigits 10 n.natAbs) (Json.digitValues (Nat.toDigits 10 n.natAbs)) :=
  isRow_digits fun _ => isDigit_of_mem_natAbs

theorem readSign_toString (n : Int) :
    readSign (toString n).toList = (decide (n < 0), Nat.toDigits 10 n.natAbs) := by
  rw [toList_toString]
  apply readSign_append
  · cases decide (n < 0) with
    | true => exact .minus
    | false => exact .absent
  · exact (isRow_natAbs n).unsigned

/-- An integer that can be written is read as itself. -/
theorem wholeNumber?_toString {n : Int} (writable : hasWritableDigits n = true) :
    wholeNumber? (toString n) = some n := by
  have read : readGrouped? (Nat.toDigits 10 n.natAbs) =
      some (Json.digitValues (Nat.toDigits 10 n.natAbs), []) :=
    readGrouped?_row (isRow_natAbs n) Nat.toDigits_ne_nil
  have size : digitsValue (Json.digitValues (Nat.toDigits 10 n.natAbs)) = n.natAbs := by
    rw [Json.digitsValue_digitValues, Nat.ofDigitChars_ten_toDigits]
  have fits : ¬ wholeNumberDigits < (Json.digitValues (Nat.toDigits 10 n.natAbs)).length := by
    rw [Json.digitValues, List.length_map]
    exact not_lt.mpr (hasWritableDigits_iff.mp writable)
  unfold wholeNumber? readWholeNumber
  rw [trimWhiteSpace_toString, readSign_toString]
  dsimp only
  rw [read]
  dsimp only
  rw [if_neg fits, if_neg (not_not.mpr rfl), size, Json.Spelling.signed_natAbs]
  rfl

end Switchboard
