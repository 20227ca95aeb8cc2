import Mathlib.Data.List.Basic
import Switchboard.Data.Json.Reader
import Switchboard.Data.Json.Writer

/-!
Texts in JSON: whatever is written between quotes is read as the text that it was written for.
-/
namespace Switchboard.Json

/-! ### Escapes -/

theorem hexValue?_digitChar : ∀ d < 16, hexValue? d.digitChar = some d := by
  decide

theorem hexText_succ {width : Nat} (some : 0 < width) (n : Nat) :
    Text.hexText (width + 1) n = Text.hexText width (n / 16) ++ [(n % 16).digitChar] := by
  unfold Text.hexText
  dsimp only
  rcases Nat.lt_or_ge n 16 with small | large
  · obtain ⟨zeros, rfl⟩ := Nat.exists_eq_succ_of_ne_zero (Nat.ne_of_gt some)
    rw [Nat.div_eq_of_lt small, Nat.mod_eq_of_lt small, Nat.toDigits_of_lt_base small,
      Nat.toDigits_zero]
    exact congrArg (· ++ [n.digitChar]) List.replicate_succ'
  · rw [Nat.toDigits_of_base_le (by decide) large, List.length_append, List.length_singleton,
      Nat.add_sub_add_right, List.append_assoc]

/-- The four hexadecimal digits of a code unit. -/
theorem hexText_four {n : Nat} (small : n < 0x10000) :
    Text.hexText 4 n = [(n / 16 / 16 / 16).digitChar, (n / 16 / 16 % 16).digitChar,
      (n / 16 % 16).digitChar, (n % 16).digitChar] := by
  have first : Text.hexText 1 (n / 16 / 16 / 16) = [(n / 16 / 16 / 16).digitChar] := by
    unfold Text.hexText
    dsimp only
    rw [Nat.toDigits_of_lt_base (by omega)]
    rfl
  rw [hexText_succ (by decide), hexText_succ (by decide), hexText_succ (by decide), first]
  rfl

theorem unitValue?_digitChars {n : Nat} (small : n < 0x10000) :
    unitValue? (n / 16 / 16 / 16).digitChar (n / 16 / 16 % 16).digitChar (n / 16 % 16).digitChar
      (n % 16).digitChar = some n := by
  have value : (((n / 16 / 16 / 16) * 16 + n / 16 / 16 % 16) * 16 + n / 16 % 16) * 16 + n % 16 =
      n := by
    omega
  rw [unitValue?, hexValue?_digitChar _ (by omega), hexValue?_digitChar _ (by omega),
    hexValue?_digitChar _ (by omega), hexValue?_digitChar _ (by omega)]
  exact congrArg some value

/-- An escape is read as its code unit. -/
theorem readPieces_unitEscape {n : Nat} (small : n < 0x10000) (rest : List Char) :
    readPieces (unitEscape n ++ rest) =
      (readPieces rest).map fun read => (.unit n :: read.1, read.2) := by
  rw [unitEscape, hexText_four small]
  simp only [List.cons_append, List.nil_append]
  rw [readPieces, unitValue?_digitChars small]

/-! ### Characters -/

/-- An escape of one letter is read as its character. -/
theorem readPieces_escape {e c : Char} (other : e ≠ 'u') (escaped : escapedChar? e = some c)
    (rest : List Char) :
    readPieces ('\\' :: e :: rest) =
      (readPieces rest).map fun read => (.char c :: read.1, read.2) := by
  rw [readPieces, escaped]
  intro _ _ _ _ _ same _
  exact other same

theorem readPieces_plain {c : Char} (noQuote : c ≠ '"') (noEscape : c ≠ '\\')
    (noControl : 0x20 ≤ c.toNat) (rest : List Char) :
    readPieces (c :: rest) =
      (readPieces rest).map fun read => (.char c :: read.1, read.2) := by
  have plain : ¬ (c.toNat < 0x20 ∨ c = '\\') := not_or.mpr ⟨Nat.not_lt.mpr noControl, noEscape⟩
  rw [readPieces, if_neg plain]
  · exact noQuote
  · intro _ _ _ _ _ same _
    exact noEscape same
  · intro _ _ same _
    exact noEscape same

/-- How a character is written: behind a backslash by a letter, as it is, or by its code units. -/
theorem encodeChar_cases (c : Char) :
    (∃ e, e ≠ 'u' ∧ escapedChar? e = some c ∧ encodeChar c = ['\\', e]) ∨
      (c ≠ '"' ∧ c ≠ '\\' ∧ 0x20 ≤ c.toNat ∧ encodeChar c = [c]) ∨
      (c.toNat < 0x10000 ∧ encodeChar c = unitEscape c.toNat) ∨
      (0x10000 ≤ c.toNat ∧ encodeChar c =
        unitEscape (0xD800 + (c.toNat - 0x10000) / 0x400) ++
          unitEscape (0xDC00 + (c.toNat - 0x10000) % 0x400)) := by
  unfold encodeChar
  split_ifs with mark line back tab feed erase plain unit
  · rcases mark with rfl | rfl
    · exact .inl ⟨'"', by decide, rfl, rfl⟩
    · exact .inl ⟨'\\', by decide, rfl, rfl⟩
  · exact .inl ⟨'n', by decide, by rw [line]; rfl, rfl⟩
  · exact .inl ⟨'r', by decide, by rw [back]; rfl, rfl⟩
  · exact .inl ⟨'t', by decide, by rw [tab]; rfl, rfl⟩
  · exact .inl ⟨'f', by decide, by rw [feed]; rfl, rfl⟩
  · exact .inl ⟨'b', by decide, by rw [erase]; rfl, rfl⟩
  · obtain ⟨noQuote, noEscape⟩ := not_or.mp mark
    exact .inr (.inl ⟨noQuote, noEscape, plain.1, rfl⟩)
  · exact .inr (.inr (.inl ⟨unit, rfl⟩))
  · exact .inr (.inr (.inr ⟨Nat.le_of_not_lt unit, rfl⟩))

theorem toNat_valid (c : Char) : c.toNat < 0xD800 ∨ 0xDFFF < c.toNat ∧ c.toNat < 0x110000 :=
  c.valid

theorem joinPieces_alone {pieces : List Piece} (n : Nat)
    (alone : ∀ low rest, pieces = .unit low :: rest → False) :
    joinPieces (.unit n :: pieces) = joinPieces.unitChar n :: joinPieces pieces := by
  rw [joinPieces]
  exact alone

/-- A code unit that is a character of its own is not taken for half of a pair. -/
theorem joinPieces_unit (c : Char) (pieces : List Piece) :
    joinPieces (.unit c.toNat :: pieces) = c :: joinPieces pieces := by
  have scalar : ¬ (0xD800 ≤ c.toNat ∧ c.toNat < 0xE000) := by
    have valid := toNat_valid c
    omega
  have value : joinPieces.unitChar c.toNat = c := by
    rw [joinPieces.unitChar, if_neg scalar, Char.ofNat_toNat]
  cases pieces with
  | nil => rw [joinPieces_alone _ (by rintro _ _ ⟨⟩), value]
  | cons piece rest =>
    cases piece with
    | char d => rw [joinPieces_alone _ (by rintro _ _ ⟨⟩), value]
    | unit low =>
      rw [joinPieces, if_neg fun pair => scalar ⟨pair.1, by omega⟩, value]

theorem joinPieces_pair {c : Char} (large : 0x10000 ≤ c.toNat) (pieces : List Piece) :
    joinPieces (.unit (0xD800 + (c.toNat - 0x10000) / 0x400) ::
      .unit (0xDC00 + (c.toNat - 0x10000) % 0x400) :: pieces) = c :: joinPieces pieces := by
  have valid := toNat_valid c
  have whole : 0x10000 + (0xD800 + (c.toNat - 0x10000) / 0x400 - 0xD800) * 0x400 +
      (0xDC00 + (c.toNat - 0x10000) % 0x400 - 0xDC00) = c.toNat := by
    omega
  rw [joinPieces, if_pos (by omega), whole, Char.ofNat_toNat]

/-- What a character is written as spells that character, whatever follows. -/
theorem exists_pieces (c : Char) :
    ∃ pieces : List Piece,
      (∀ rest, readPieces (encodeChar c ++ rest) =
        (readPieces rest).map fun read => (pieces ++ read.1, read.2)) ∧
      ∀ more, joinPieces (pieces ++ more) = c :: joinPieces more := by
  rcases encodeChar_cases c with ⟨e, other, escaped, written⟩ |
    ⟨noQuote, noEscape, noControl, written⟩ | ⟨small, written⟩ | ⟨large, written⟩
  · refine ⟨[.char c], fun rest => ?_, fun more => rfl⟩
    rw [written]
    exact readPieces_escape other escaped rest
  · refine ⟨[.char c], fun rest => ?_, fun more => rfl⟩
    rw [written]
    exact readPieces_plain noQuote noEscape noControl rest
  · refine ⟨[.unit c.toNat], fun rest => ?_, joinPieces_unit c⟩
    rw [written]
    exact readPieces_unitEscape small rest
  · have valid := toNat_valid c
    refine ⟨[.unit (0xD800 + (c.toNat - 0x10000) / 0x400),
      .unit (0xDC00 + (c.toNat - 0x10000) % 0x400)], fun rest => ?_, joinPieces_pair large⟩
    rw [written, List.append_assoc, readPieces_unitEscape (by omega),
      readPieces_unitEscape (by omega), Option.map_map]
    rfl

/-- Characters up to the closing quote are read as themselves. -/
theorem readPieces_encodeChars (cs : List Char) (rest : List Char) :
    ∃ pieces, readPieces (cs.flatMap encodeChar ++ '"' :: rest) = some (pieces, rest) ∧
      joinPieces pieces = cs := by
  induction cs with
  | nil => exact ⟨[], rfl, rfl⟩
  | cons c cs ih =>
    obtain ⟨later, read, joined⟩ := ih
    obtain ⟨pieces, readsOn, spells⟩ := exists_pieces c
    refine ⟨pieces ++ later, ?_, ?_⟩
    · rw [List.flatMap_cons, List.append_assoc, readsOn, read]
      rfl
    · rw [spells, joined]

/-- A text between quotes is read as itself. -/
theorem readText_encodeText (s : String) (rest : List Char) :
    ∃ body, encodeText s ++ rest = '"' :: body ∧ readText body = some (s, rest) := by
  obtain ⟨pieces, read, joined⟩ := readPieces_encodeChars s.toList rest
  refine ⟨s.toList.flatMap encodeChar ++ '"' :: rest, ?_, ?_⟩
  · rw [encodeText, List.cons_append, List.cons_append, List.append_assoc]
    rfl
  · rw [readText, read, Option.map_some]
    dsimp only
    rw [joined, String.ofList_toList]

end Switchboard.Json
