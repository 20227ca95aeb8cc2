import Switchboard.Proofs.JsonDocument

/-!
Every document that is read from a text can be spelled: its numbers can be written and its tables
have each key once.
-/
namespace Switchboard.Json

/-! ### Numbers -/

theorem toNat_sub_zero_le {c : Char} (digit : c.isDigit = true) : c.toNat - '0'.toNat ≤ 9 := by
  have most : c.toNat ≤ 57 := (Char.isDigit_iff_toNat.mp digit).2
  exact Nat.sub_le_sub_right most 48

theorem ofDigitChars_lt {digits : List Char} (all : ∀ c ∈ digits, c.isDigit = true) :
    Nat.ofDigitChars 10 digits 0 < 10 ^ digits.length := by
  induction digits with
  | nil => exact Nat.one_pos
  | cons c digits ih =>
    obtain ⟨digit, later⟩ := List.forall_mem_cons.mp all
    have first := Nat.mul_le_mul_left (10 ^ digits.length) (toNat_sub_zero_le digit)
    have rest := ih later
    rw [Nat.ofDigitChars_cons, Nat.ofDigitChars_eq_ofDigitChars_zero, Nat.mul_zero, Nat.zero_add,
      List.length_cons, Nat.pow_succ]
    omega

theorem hasWritableDigits_of_length {digits : List Char} (some : digits ≠ [])
    (all : ∀ c ∈ digits, c.isDigit = true) (short : digits.length ≤ wholeNumberDigits)
    (negative : Bool) :
    hasWritableDigits (if negative then -(Nat.ofDigitChars 10 digits 0 : Int)
      else (Nat.ofDigitChars 10 digits 0 : Int)) = true := by
  have size : (if negative then -(Nat.ofDigitChars 10 digits 0 : Int)
      else (Nat.ofDigitChars 10 digits 0 : Int)).natAbs = Nat.ofDigitChars 10 digits 0 := by
    cases negative with
    | true => exact Int.natAbs_neg _
    | false => rfl
  have row : (Nat.toDigits 10 (Nat.ofDigitChars 10 digits 0)).length ≤ digits.length :=
    (Nat.length_toDigits_le_iff (by decide) (List.length_pos_of_ne_nil some)).mpr
      (ofDigitChars_lt all)
  rw [hasWritableDigits_iff, size]
  exact row.trans short

theorem isDigit_of_mem_readWhole {cs : List Char} {c : Char} (member : c ∈ (readWhole cs).1) :
    c.isDigit = true := by
  unfold readWhole at member
  split at member
  · rw [List.mem_singleton.mp member]
    rfl
  · exact List.all_eq_true.mp List.all_takeWhile c member

theorem spellable_of_readUnsigned {negative : Bool} {cs rest : List Char} {d : Document}
    (read : readUnsigned negative cs = some (d, rest)) : Spellable d := by
  unfold readUnsigned at read
  split at read
  · cases read
  · rename_i whole afterWhole nonempty split
    have digits : ∀ c ∈ whole, c.isDigit = true := fun c member =>
      isDigit_of_mem_readWhole (by rw [split]; exact member)
    dsimp only at read
    split at read
    · split at read
      · rename_i short
        obtain ⟨rfl, -⟩ := Prod.mk.inj (Option.some.inj read)
        rw [digitsValue_digitValues]
        exact .int (hasWritableDigits_of_length nonempty digits short negative)
      · cases read
    · obtain ⟨rfl, -⟩ := Prod.mk.inj (Option.some.inj read)
      exact .real (Binary64.isCanonical_ofNumeral _)

theorem spellable_of_readNumber {cs rest : List Char} {d : Document}
    (read : readNumber cs = some (d, rest)) : Spellable d := by
  unfold readNumber at read
  split at read
  · exact spellable_of_readUnsigned read
  · exact spellable_of_readUnsigned read

/-! ### Documents -/

/-- What is read with so much fuel can be spelled. -/
structure ReadsSpellable (fuel : Nat) : Prop where
  value : ∀ {cs d rest}, readValue fuel cs = some (d, rest) → Spellable d
  items : ∀ {cs items rest}, readItems fuel cs = some (items, rest) →
    ∀ item ∈ items, Spellable item
  fields : ∀ {cs fields rest}, readFields fuel cs = some (fields, rest) →
    ∀ field ∈ fields, Spellable field.2

theorem ReadsSpellable.zero : ReadsSpellable 0 where
  value read := by
    unfold readValue at read
    cases read
  items read := by
    unfold readItems at read
    cases read
  fields read := by
    unfold readFields at read
    cases read

theorem ReadsSpellable.succ {fuel : Nat} (ih : ReadsSpellable fuel) :
    ReadsSpellable (fuel + 1) where
  value {cs d rest} read := by
    unfold readValue at read
    split at read
    · cases read
    · cases read
      exact .null
    · cases read
      exact .bool true
    · cases read
      exact .bool false
    · cases read
      exact .real trivial
    · cases read
      exact .real trivial
    · cases read
      exact .real trivial
    · obtain ⟨⟨s, after⟩, -, made⟩ := Option.map_eq_some_iff.mp read
      cases made
      exact .text s
    · rename_i same
      obtain rfl := Nat.succ.inj same
      split at read
      · cases read
        exact .list fun item member => absurd member List.not_mem_nil
      · obtain ⟨⟨items, after⟩, inner, made⟩ := Option.map_eq_some_iff.mp read
        cases made
        exact .list (ih.items inner)
    · rename_i same
      obtain rfl := Nat.succ.inj same
      split at read
      · cases read
        exact .table List.nodup_nil fun field member => absurd member List.not_mem_nil
      · obtain ⟨⟨fields, after⟩, inner, made⟩ := Option.map_eq_some_iff.mp read
        cases made
        refine .table (Table.nodup_keys_ofList fields) fun field member => ?_
        exact ih.fields inner field (Table.mem_of_mem_ofList member)
    · exact spellable_of_readNumber read
  items {cs items rest} read := by
    unfold readItems at read
    dsimp only at read
    split at read
    · cases read
    · rename_i first after value
      split at read
      · cases read
        intro item member
        rw [List.mem_singleton.mp member]
        exact ih.value value
      · obtain ⟨⟨later, last⟩, inner, made⟩ := Option.map_eq_some_iff.mp read
        cases made
        exact List.forall_mem_cons.mpr ⟨ih.value value, ih.items inner⟩
      · cases read
  fields {cs fields rest} read := by
    unfold readFields at read
    split at read
    · rename_i same
      obtain rfl := Nat.succ.inj same
      split at read
      · cases read
      split at read
      · split at read
        · cases read
        rename_i value after first
        split at read
        · cases read
          intro field member
          rw [List.mem_singleton.mp member]
          exact ih.value first
        · obtain ⟨⟨later, last⟩, inner, made⟩ := Option.map_eq_some_iff.mp read
          cases made
          exact List.forall_mem_cons.mpr ⟨ih.value first, ih.fields inner⟩
        · cases read
      · cases read
    · cases read

theorem readsSpellable : ∀ fuel, ReadsSpellable fuel
  | 0 => .zero
  | fuel + 1 => (readsSpellable fuel).succ

theorem spellable_of_parse? {s : String} {d : Document} (read : parse? s = some d) :
    Spellable d := by
  unfold parse? at read
  split at read
  · rename_i value
    split at read
    · cases read
      exact (readsSpellable _).value value
    · cases read
  · cases read

end Switchboard.Json
