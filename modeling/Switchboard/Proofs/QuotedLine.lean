import Switchboard.Proofs.Quoting

/-!
Lines of a plain command. A word of ordinary characters stands for itself, and so does any text that
follows such a word between double quotes.
-/
namespace Switchboard.Line

open Text (isBlank)

/-- A character that stands for itself outside of quotes, whatever follows it. -/
def isOrdinary (c : Char) : Bool :=
  ! (isBlank c || c == '"' || c == '\'' || c == '\\' || c == '$')

theorem isPlain_of_isOrdinary {c : Char} {rest : List Char} (ordinary : isOrdinary c = true) :
    IsPlain none c rest := by
  simp only [isOrdinary, Bool.not_eq_true', Bool.or_eq_false_iff, beq_eq_false_iff_ne] at ordinary
  obtain ⟨⟨⟨⟨inWord, noDouble⟩, noSingle⟩, noEscape⟩, noDollar⟩ := ordinary
  refine ⟨fun _ => inWord, ?_, ?_, ?_⟩
  · intro other same
    cases other with
    | double => exact absurd same noDouble
    | single => exact absurd same noSingle
  · intro e after backslash
    exact absurd backslash noEscape
  · intro dollar
    exact absurd dollar noDollar

variable {env : Table String} {scan : Scan}

theorem scanFrom_ordinary (unquoted : scan.quote = none) (said : List Char) {cs : List Char}
    (ordinary : ∀ c ∈ cs, isOrdinary c = true) (rest : List Char) :
    scanFrom env (scan.push said) (cs ++ rest) = scanFrom env (scan.push (said ++ cs)) rest := by
  induction cs generalizing said with
  | nil => rw [List.nil_append, List.append_nil]
  | cons c cs ih =>
    have plain : IsPlain (scan.push said).quote c (cs ++ rest) := by
      rw [Scan.quote_push, unquoted]
      exact isPlain_of_isOrdinary (ordinary c List.mem_cons_self)
    rw [List.append_cons said c cs, ← ih _ fun other member =>
      ordinary other (List.mem_cons_of_mem c member), ← Scan.push_push]
    exact scanFrom_plain plain

/-- A word of ordinary characters. -/
structure IsWord (word : String) : Prop where
  filled : word.toList ≠ []
  ordinary : word.toList.all isOrdinary = true

theorem scanFrom_isWord (unquoted : scan.quote = none) {word : String} (isWord : IsWord word)
    (rest : List Char) :
    scanFrom env scan (word.toList ++ rest) = scanFrom env (scan.push word.toList) rest := by
  obtain ⟨filled, ordinary⟩ := isWord
  cases letters : word.toList with
  | nil => exact absurd letters filled
  | cons c cs =>
    rw [letters, List.all_cons, Bool.and_eq_true, List.all_eq_true] at ordinary
    have plain : IsPlain scan.quote c (cs ++ rest) := by
      rw [unquoted]
      exact isPlain_of_isOrdinary ordinary.1
    exact (scanFrom_plain plain).trans (scanFrom_ordinary unquoted [c] ordinary.2 rest)

theorem Scan.tokens_finish_push {scan : Scan} (between : scan.word? = none) (word : String) :
    (scan.push word.toList).finish.tokens = scan.tokens ++ [word] := by
  simp [between]

/-- A word of ordinary characters is the only token of its line. -/
theorem tokenize_word (env : Table String) {word : String} (isWord : IsWord word) :
    tokenize env word = ([word], {}) := by
  have scanned : scanFrom env {} word.toList = Scan.push {} word.toList := by
    have read : scanFrom env {} (word.toList ++ []) =
        scanFrom env (Scan.push {} word.toList) [] := scanFrom_isWord rfl isWord []
    rwa [List.append_nil, scanFrom_nil] at read
  rw [tokenize, scanned]
  exact Prod.ext (Scan.tokens_finish_push rfl word) rfl

/-! ### Quoted arguments -/

/-- A text between double quotes. -/
def quoted (word : String) : WrittenWord :=
  ⟨[.double word.toList], List.cons_ne_nil _ _⟩

theorem text_quoted (word : String) : (quoted word).text = word.toList :=
  List.append_nil _

/-- Arguments between double quotes, each after a blank. -/
def quotedAll (words : List String) : List Char :=
  words.flatMap fun word => ' ' :: (quoted word).written

/-- The line of a command with quoted arguments, none of which counts as an option. -/
def quotedLine (command : String) (words : List String) : String :=
  String.ofList (command.toList ++ (' ' :: ("--".toList ++ quotedAll words)))

theorem scanFrom_quotedAll (unquoted : scan.quote = none) (words : List String) :
    (scanFrom env scan (quotedAll words)).finish.tokens = scan.finish.tokens ++ words ∧
      (scanFrom env scan (quotedAll words)).quote = none := by
  induction words generalizing scan with
  | nil =>
    rw [quotedAll, List.flatMap_nil, scanFrom_nil, List.append_nil]
    exact ⟨rfl, unquoted⟩
  | cons word words ih =>
    have still : scan.finish.quote = none := by rw [Scan.quote_finish, unquoted]
    have read : scanFrom env scan (quotedAll (word :: words)) =
        scanFrom env (scan.finish.push word.toList) (quotedAll words) := by
      rw [quotedAll, List.flatMap_cons, List.cons_append, scanFrom_blank unquoted (by decide),
        scanFrom_word still, text_quoted]
      rfl
    have between : (scan.finish.push word.toList).quote = none := still
    obtain ⟨tokens, closed⟩ := ih between
    rw [read]
    refine ⟨?_, closed⟩
    rw [tokens, Scan.tokens_finish_push (Scan.word?_finish scan), ← List.append_cons]

/-- The arguments are the texts that were quoted, whatever variables the caller has. -/
theorem tokenize_quotedLine (env : Table String) {command : String} (isWord : IsWord command)
    (words : List String) :
    tokenize env (quotedLine command words) = (command :: "--" :: words, {}) := by
  let start : Scan := Scan.push {} command.toList
  have dashes : IsWord "--" := ⟨by decide, by decide⟩
  have read : scanFrom env {} (quotedLine command words).toList =
      scanFrom env (start.finish.push "--".toList) (quotedAll words) := by
    rw [quotedLine, String.toList_ofList, scanFrom_isWord rfl isWord,
      scanFrom_blank rfl (by decide), scanFrom_isWord (Scan.quote_finish start) dashes]
  have unquoted : (start.finish.push "--".toList).quote = none := rfl
  obtain ⟨tokens, closed⟩ := scanFrom_quotedAll unquoted words
  have named : start.finish.tokens = [command] := Scan.tokens_finish_push rfl command
  rw [Scan.tokens_finish_push (Scan.word?_finish start), named] at tokens
  rw [tokenize, read]
  refine Prod.ext tokens ?_
  rw [Scan.flags, closed]
  rfl

end Switchboard.Line
