import Switchboard.Line.Token

/-!
The ways in which a scan goes on, one law for each. A character that none of the other laws is
about stands for itself.
-/
namespace Switchboard.Line

open Text (isBlank isWhiteSpace isSeparator)

/-- Whether a backslash takes the character behind it literally. -/
def takesEscape : Option Quote → Char → Bool
  | none, _ => true
  | some .double, e => isDoubleEscape e
  | some .single, _ => false

/-- A character that stands for itself where it is: it separates no words, opens or closes no quote,
and starts no escape and no reference. -/
structure IsPlain (quote : Option Quote) (c : Char) (rest : List Char) : Prop where
  inWord : quote = none → isBlank c = false
  unmarked : ∀ other : Quote, c = other.mark → quote ≠ none ∧ quote ≠ some other
  unescaping : ∀ e after, c = '\\' → rest = e :: after → takesEscape quote e = false
  unreferring : c = '$' → quote ≠ some .single → reference? rest = none

variable {env : Table String} {scan : Scan} {c : Char} {rest : List Char}

@[simp] theorem Scan.quote_finish (scan : Scan) : scan.finish.quote = scan.quote := by
  unfold Scan.finish
  split <;> rfl

theorem scanFrom_nil : scanFrom env scan [] = scan := by
  rw [scanFrom.eq_def]

theorem scanFrom_blank (unquoted : scan.quote = none) (blank : isBlank c = true) :
    scanFrom env scan (c :: rest) = scanFrom env scan.finish rest := by
  rw [scanFrom.eq_def]
  simp only [unquoted, blank, if_true]

theorem scanFrom_opening (quote : Quote) (unquoted : scan.quote = none) :
    scanFrom env scan (quote.mark :: rest) = scanFrom env (scan.openQuote quote) rest := by
  rw [scanFrom.eq_def]
  cases quote with
  | double => simp [unquoted, Quote.mark, isBlank, isWhiteSpace, isSeparator]
  | single => simp [unquoted, Quote.mark, isBlank, isWhiteSpace, isSeparator]

theorem scanFrom_closing {quote : Quote} (quoted : scan.quote = some quote) :
    scanFrom env scan (quote.mark :: rest) = scanFrom env scan.closeQuote rest := by
  rw [scanFrom.eq_def]
  cases quote with
  | double => simp only [quoted, Quote.mark, if_true]
  | single => simp only [quoted, Quote.mark, if_true]

theorem scanFrom_escaped {e : Char} (taken : takesEscape scan.quote e = true) :
    scanFrom env scan ('\\' :: e :: rest) = scanFrom env (scan.push [e]) rest := by
  rw [scanFrom.eq_def]
  cases quoted : scan.quote with
  | none => simp [isBlank, isWhiteSpace, isSeparator]
  | some quote =>
    rw [quoted] at taken
    cases quote with
    | double =>
      have literal : isDoubleEscape e = true := taken
      simp [literal]
    | single => cases taken

-- A scan matches with a proof of what it found, for its termination, so nothing can be rewritten
-- there.
theorem afterDollar_some {expand : String → List Char → Scan} {kept : Scan} {name : String}
    {after : List Char} (found : reference? rest = some (name, after)) :
    (match _here : reference? rest with
      | some (name, after) => expand name after
      | none => kept) = expand name after := by
  split
  · rename_i here
    obtain ⟨rfl, rfl⟩ := Prod.mk.inj (Option.some.inj (found.symm.trans here))
    rfl
  · rename_i missing
    rw [found] at missing
    cases missing

theorem afterDollar_none {expand : String → List Char → Scan} {kept : Scan}
    (missing : reference? rest = none) :
    (match _here : reference? rest with
      | some (name, after) => expand name after
      | none => kept) = kept := by
  split
  · rename_i found
    rw [missing] at found
    cases found
  · rfl

theorem scanFrom_variable (expanding : scan.quote ≠ some .single) {name : String}
    {after : List Char} (found : reference? rest = some (name, after)) :
    scanFrom env scan ('$' :: rest) =
      scanFrom env (scan.pushValue ((env.get? name).getD "")) after := by
  rw [scanFrom.eq_def]
  cases quoted : scan.quote with
  | none =>
    have inWord : isBlank '$' = false := by decide
    simp only [inWord, Bool.false_eq_true, if_false, if_true, Char.reduceEq]
    exact afterDollar_some found
  | some quote =>
    cases quote with
    | double =>
      simp only [if_false, if_true, Char.reduceEq]
      exact afterDollar_some found
    | single => exact absurd quoted expanding

theorem scanFrom_plain (plain : IsPlain scan.quote c rest) :
    scanFrom env scan (c :: rest) = scanFrom env (scan.push [c]) rest := by
  rw [scanFrom.eq_def]
  cases quoted : scan.quote with
  | none =>
    rw [quoted] at plain
    have inWord : isBlank c = false := plain.inWord rfl
    have noDouble : c ≠ '"' := fun same => (plain.unmarked .double same).1 rfl
    have noSingle : c ≠ '\'' := fun same => (plain.unmarked .single same).1 rfl
    simp only [inWord, Bool.false_eq_true, if_false, noDouble, noSingle]
    split
    · rename_i backslash
      cases rest with
      | nil => exact scanFrom_nil.symm
      | cons e after => cases plain.unescaping e after backslash rfl
    · split
      · rename_i dollar
        exact afterDollar_none (plain.unreferring dollar (by decide))
      · rfl
  | some quote =>
    rw [quoted] at plain
    have unmarked : c ≠ quote.mark := fun same => (plain.unmarked quote same).2 rfl
    cases quote with
    | double =>
      simp only [show c ≠ '"' from unmarked, if_false]
      split
      · rename_i backslash
        cases rest with
        | nil => exact scanFrom_nil.symm
        | cons e after =>
          have kept : isDoubleEscape e = false := plain.unescaping e after backslash rfl
          simp only [kept, Bool.false_eq_true, if_false]
      · split
        · rename_i dollar
          exact afterDollar_none (plain.unreferring dollar (by decide))
        · rfl
    | single => simp only [show c ≠ '\'' from unmarked, if_false]

end Switchboard.Line
