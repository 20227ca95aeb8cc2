import Switchboard.Proofs.Scan

/-!
What a line says before its variables have values: words made of literal texts and references, and
the quotes that it leaves open. The tokens of the line are these words with the values filled in. So
no value takes part in the reading, whatever characters it holds.
-/
namespace Switchboard.Line

/-- A part of a word. -/
inductive Part where
  /-- Characters that stand for themselves; there are none where a quote opens. -/
  | text (cs : List Char)
  | reference (name : String) (quoted : Bool)
deriving DecidableEq, Repr

abbrev Word := List Part

/-- The rules by which a line is read. A quote may be open in front of the characters; the word
there goes on with `word`, others follow it, and at the end `last` is open. -/
inductive Reads : Option Quote → List Char → Word → List Word → Option Quote → Prop where
  | done (quote : Option Quote) : Reads quote [] [] [] quote
  | blank (separates : Text.isBlank c = true) (rest : Reads none cs word words last) :
      Reads none (c :: cs) [] (word :: words) last
  | opening (quote : Quote) (rest : Reads (some quote) cs word words last) :
      Reads none (quote.mark :: cs) (.text [] :: word) words last
  | closing (quote : Quote) (rest : Reads none cs word words last) :
      Reads (some quote) (quote.mark :: cs) word words last
  | escaped (taken : takesEscape quote e = true) (rest : Reads quote cs word words last) :
      Reads quote ('\\' :: e :: cs) (.text [e] :: word) words last
  | referring (expanding : quote ≠ some .single) (found : reference? cs = some (name, after))
      (rest : Reads quote after word words last) :
      Reads quote ('$' :: cs) (.reference name quote.isSome :: word) words last
  | plain (plain : IsPlain quote c cs) (rest : Reads quote cs word words last) :
      Reads quote (c :: cs) (.text [c] :: word) words last

/-- Every line can be read, from every state of quotes. -/
theorem exists_reads (quote : Option Quote) (cs : List Char) :
    ∃ word words last, Reads quote cs word words last := by
  -- A reference takes many characters at once, so the induction is on the length.
  induction size : cs.length using Nat.strongRecOn generalizing quote cs with
  | ind size ih =>
    subst size
    cases cs with
    | nil => exact ⟨[], [], quote, .done quote⟩
    | cons c rest =>
      have shorter : ∀ other after, after.length < (c :: rest).length →
          ∃ word words last, Reads other after word words last :=
        fun other after less => ih after.length less other after rfl
      have next := fun other => shorter other rest (Nat.lt_succ_self _)
      by_cases separates : quote = none ∧ Text.isBlank c = true
      · obtain ⟨rfl, blank⟩ := separates
        obtain ⟨word, words, last, reads⟩ := next none
        exact ⟨[], word :: words, last, .blank blank reads⟩
      by_cases opens : ∃ mark : Quote, c = mark.mark ∧ quote = none
      · obtain ⟨mark, rfl, rfl⟩ := opens
        obtain ⟨word, words, last, reads⟩ := next (some mark)
        exact ⟨_, words, last, .opening mark reads⟩
      by_cases closes : ∃ mark : Quote, c = mark.mark ∧ quote = some mark
      · obtain ⟨mark, rfl, rfl⟩ := closes
        obtain ⟨word, words, last, reads⟩ := next none
        exact ⟨word, words, last, .closing mark reads⟩
      by_cases escapes : ∃ e after, c = '\\' ∧ rest = e :: after ∧ takesEscape quote e = true
      · obtain ⟨e, after, rfl, rfl, taken⟩ := escapes
        obtain ⟨word, words, last, reads⟩ :=
          shorter quote after (Nat.lt_succ_of_lt (Nat.lt_succ_self _))
        exact ⟨_, words, last, .escaped taken reads⟩
      by_cases refers : ∃ name after, c = '$' ∧ quote ≠ some .single ∧
          reference? rest = some (name, after)
      · obtain ⟨name, after, rfl, expanding, found⟩ := refers
        have less := reference?_length found
        obtain ⟨word, words, last, reads⟩ := shorter quote after (Nat.lt_succ_of_lt less)
        exact ⟨_, words, last, .referring expanding found reads⟩
      have plain : IsPlain quote c rest := by
        refine ⟨?_, ?_, ?_, ?_⟩
        · intro unquoted
          exact Bool.eq_false_iff.mpr fun blank => separates ⟨unquoted, blank⟩
        · intro mark same
          exact ⟨fun unquoted => opens ⟨mark, same, unquoted⟩,
            fun quoted => closes ⟨mark, same, quoted⟩⟩
        · intro e after backslash split
          exact Bool.eq_false_iff.mpr fun taken => escapes ⟨e, after, backslash, split, taken⟩
        · intro dollar expanding
          exact Option.eq_none_iff_forall_ne_some.mpr fun found here =>
            refers ⟨found.1, found.2, dollar, expanding, here⟩
      obtain ⟨word, words, last, reads⟩ := next quote
      exact ⟨_, words, last, .plain plain reads⟩

/-! ### Filling in the values -/

/-- What a part stands for; a name without a value stands for the empty text. -/
def Part.value (env : Table String) : Part → List Char
  | .text cs => cs
  | .reference name _ => ((env.get? name).getD "").toList

/-- Whether a part leaves no trace: an empty value outside of quotes. -/
def Part.vanishes (env : Table String) : Part → Bool
  | .text _ => false
  | .reference name quoted => ! quoted && (env.get? name).getD "" == ""

/-- What a word with the values filled in is, unless it vanishes. -/
def Word.filled? (env : Table String) (word : Word) : Option (List Char) :=
  if word.all (Part.vanishes env) then none else some (word.flatMap (Part.value env))

variable {env : Table String}

theorem Part.value_of_vanishes {part : Part} (vanishing : part.vanishes env = true) :
    part.value env = [] := by
  cases part with
  | text cs => cases vanishing
  | reference name quoted =>
    simp only [vanishes, Bool.and_eq_true, beq_iff_eq] at vanishing
    simp only [value, vanishing.2, String.toList_empty]

theorem Word.value_of_vanishing {word : Word} (vanishing : word.all (Part.vanishes env) = true) :
    word.flatMap (Part.value env) = [] := by
  rw [List.flatMap_eq_nil_iff]
  intro part member
  exact Part.value_of_vanishes (List.all_eq_true.mp vanishing part member)

theorem Word.filled?_nil : Word.filled? env [] = none := rfl

/-- What stands in front of a word and the word itself make one token. -/
theorem Word.merge_filled? (open? : Option (List Char)) (part : Part) (word : Word) :
    (open?.merge (· ++ ·) (Word.filled? env [part])).merge (· ++ ·) (Word.filled? env word) =
      open?.merge (· ++ ·) (Word.filled? env (part :: word)) := by
  unfold filled?
  by_cases first : part.vanishes env = true
  · simp [first, Part.value_of_vanishes first]
  · by_cases others : word.all (Part.vanishes env) = true
    · simp [first, others, Word.value_of_vanishing others]
    · cases open? <;> simp [first, others]

theorem Scan.word?_push_text (scan : Scan) (cs : List Char) :
    (scan.push cs).word? = scan.word?.merge (· ++ ·) (Word.filled? env [.text cs]) := by
  rw [Scan.word?_push]
  cases scan.word? <;> simp [Word.filled?, Part.vanishes, Part.value]

theorem Scan.word?_pushValue (scan : Scan) (name : String) :
    (scan.pushValue ((env.get? name).getD "")).word? =
      scan.word?.merge (· ++ ·) (Word.filled? env [.reference name scan.quote.isSome]) := by
  unfold Scan.pushValue
  by_cases vanishing : (env.get? name).getD "" = "" ∧ scan.quote = none
  · rw [if_pos vanishing]
    simp [Word.filled?, Part.vanishes, vanishing]
  · rw [if_neg vanishing, Scan.word?_push]
    have kept : Part.vanishes env (.reference name scan.quote.isSome) = false := by
      cases quoted : scan.quote <;> simp_all [Part.vanishes]
    cases scan.word? <;> simp [Word.filled?, kept, Part.value]

@[simp] theorem Scan.quote_pushValue (scan : Scan) (value : String) :
    (scan.pushValue value).quote = scan.quote := by
  unfold Scan.pushValue
  split <;> rfl

@[simp] theorem Scan.tokens_pushValue (scan : Scan) (value : String) :
    (scan.pushValue value).tokens = scan.tokens := by
  unfold Scan.pushValue
  split <;> rfl

/-- The tokens that words make with the values filled in. -/
def tokensOf (env : Table String) (words : List Word) : List String :=
  (words.filterMap (Word.filled? env)).map String.ofList

theorem tokensOf_nil : tokensOf env [] = [] := rfl

theorem tokensOf_cons (word : Word) (words : List Word) :
    tokensOf env (word :: words) =
      ((Word.filled? env word).map String.ofList).toList ++ tokensOf env words := by
  unfold tokensOf
  cases filled : Word.filled? env word <;> simp [filled]

/-- A scan gives what is read, with the values filled in: the word that is read first goes on with
the token that is open. -/
theorem scanFrom_of_reads (env : Table String) {quote last : Option Quote} {cs : List Char}
    {word : Word} {words : List Word} (reads : Reads quote cs word words last) (scan : Scan)
    (same : scan.quote = quote) :
    (scanFrom env scan cs).quote = last ∧
      (scanFrom env scan cs).finish.tokens = scan.tokens ++
        ((scan.word?.merge (· ++ ·) (Word.filled? env word)).map String.ofList).toList ++
          tokensOf env words := by
  induction reads generalizing scan with
  | done quote =>
    rw [scanFrom_nil]
    refine ⟨same, ?_⟩
    rw [Scan.tokens_finish, Word.filled?_nil, Option.merge_none_right, tokensOf_nil,
      List.append_nil]
  | blank separates rest ih =>
    rw [scanFrom_blank same separates]
    obtain ⟨ends, tokens⟩ := ih scan.finish (by rw [Scan.quote_finish, same])
    refine ⟨ends, ?_⟩
    rw [tokens, Scan.tokens_finish, Scan.word?_finish, Option.merge_none_left,
      Word.filled?_nil, Option.merge_none_right, tokensOf_cons, ← List.append_assoc]
  | opening quote rest ih =>
    rw [scanFrom_opening quote same]
    obtain ⟨ends, tokens⟩ := ih (scan.openQuote quote) rfl
    refine ⟨ends, ?_⟩
    have opened : (scan.openQuote quote).word? = (scan.push []).word? := rfl
    rw [tokens, opened, Scan.word?_push_text, Word.merge_filled?]
    rfl
  | closing quote rest ih =>
    rw [scanFrom_closing same]
    exact ih scan.closeQuote rfl
  | escaped taken rest ih =>
    rw [scanFrom_escaped (same ▸ taken)]
    obtain ⟨ends, tokens⟩ := ih (scan.push _) same
    refine ⟨ends, ?_⟩
    rw [tokens, Scan.word?_push_text, Word.merge_filled?, Scan.tokens_push]
  | @referring _ _ name _ _ _ _ expanding found rest ih =>
    rw [scanFrom_variable (same ▸ expanding) found]
    obtain ⟨ends, tokens⟩ := ih (scan.pushValue ((env.get? name).getD "")) (by simp [same])
    refine ⟨ends, ?_⟩
    rw [tokens, Scan.word?_pushValue, same, Word.merge_filled?, Scan.tokens_pushValue]
  | plain plain rest ih =>
    rw [scanFrom_plain (same ▸ plain)]
    obtain ⟨ends, tokens⟩ := ih (scan.push _) same
    refine ⟨ends, ?_⟩
    rw [tokens, Scan.word?_push_text, Word.merge_filled?, Scan.tokens_push]

/-! ### Outlines -/

/-- What a line says while its variables have no values. -/
structure Outline where
  words : List Word
  flags : QuoteFlags

/-- The flag of a quote that is open. -/
def flagsOf (quote : Option Quote) : QuoteFlags :=
  { double := quote = some .double, single := quote = some .single }

/-- Whether an outline is read from a line. Between two blanks there is no word. -/
def Outline.IsOf (outline : Outline) (line : String) : Prop :=
  ∃ word words last, Reads none line.toList word words last ∧
    outline.words = (word :: words).filter (· ≠ []) ∧ outline.flags = flagsOf last

/-- The tokens of an outline. A word that is made of nothing but unquoted references to empty values
is left out. -/
def Outline.tokens (outline : Outline) (env : Table String) : List String :=
  (outline.words.filter fun word => ¬ word.all (Part.vanishes env)).map fun word =>
    String.ofList (word.flatMap (Part.value env))

/-- Words without parts make no tokens. -/
theorem tokensOf_filter (words : List Word) :
    tokensOf env (words.filter (· ≠ [])) = tokensOf env words := by
  induction words with
  | nil => rfl
  | cons word words ih =>
    by_cases empty : word = []
    · subst empty
      rw [List.filter_cons_of_neg (by simp), ih, tokensOf_cons, Word.filled?_nil]
      rfl
    · rw [List.filter_cons_of_pos (by simpa using empty), tokensOf_cons, tokensOf_cons, ih]

theorem Outline.tokens_eq (outline : Outline) :
    outline.tokens env = tokensOf env outline.words := by
  unfold Outline.tokens
  induction outline.words with
  | nil => rfl
  | cons word words ih =>
    rw [tokensOf_cons, ← ih]
    by_cases vanishing : word.all (Part.vanishes env) = true
    · rw [List.filter_cons_of_neg (by simpa using vanishing), Word.filled?, if_pos vanishing]
      rfl
    · rw [List.filter_cons_of_pos (by simpa using vanishing), Word.filled?, if_neg vanishing]
      rfl

/-- A line makes the tokens of the words that it reads. -/
theorem tokenize_of_reads {line : String} {word : Word} {words : List Word} {last : Option Quote}
    (reads : Reads none line.toList word words last) :
    tokenize env line = (tokensOf env (word :: words), flagsOf last) := by
  obtain ⟨ends, tokens⟩ := scanFrom_of_reads env reads {} rfl
  have none : ({} : Scan).word? = none := rfl
  rw [none, Option.merge_none_left, List.append_assoc, ← tokensOf_cons] at tokens
  simp only [tokenize, tokens]
  rw [Scan.flags, ends]
  rfl

/-- Variables take part in a line by their values only. -/
theorem tokenize_congr {known other : Table String}
    (same : ∀ name, known.get? name = other.get? name) (line : String) :
    tokenize known line = tokenize other line := by
  have value : Part.value known = Part.value other := by
    funext part
    cases part with
    | text cs => rfl
    | reference name quoted => simp only [Part.value, same]
  have vanishes : Part.vanishes known = Part.vanishes other := by
    funext part
    cases part with
    | text cs => rfl
    | reference name quoted => simp only [Part.vanishes, same]
  have filled : Word.filled? known = Word.filled? other := by
    funext word
    simp only [Word.filled?, value, vanishes]
  obtain ⟨word, words, last, reads⟩ := exists_reads none line.toList
  rw [tokenize_of_reads reads, tokenize_of_reads reads, tokensOf, tokensOf, filled]

/-- The tokens of a line follow its outline, which no variable has a part in: whatever the values
are, they only stand where the outline refers to them. -/
theorem tokens_follow_outline (line : String) :
    ∃ outline : Outline, outline.IsOf line ∧ (∀ word ∈ outline.words, word ≠ []) ∧
      ∀ env : Table String, tokenize env line = (outline.tokens env, outline.flags) := by
  obtain ⟨word, words, last, reads⟩ := exists_reads none line.toList
  refine ⟨⟨(word :: words).filter (· ≠ []), flagsOf last⟩,
    ⟨word, words, last, reads, rfl, rfl⟩, ?_, ?_⟩
  · intro word member
    exact of_decide_eq_true (List.mem_filter.mp member).2
  · intro env
    rw [tokenize_of_reads reads, ← tokensOf_filter, Outline.tokens_eq]

example : tokenize [("A", "\" '$A \\")] "x$A '$A'" = (["x\" '$A \\", "$A"], {}) := by
  decide +kernel

end Switchboard.Line
