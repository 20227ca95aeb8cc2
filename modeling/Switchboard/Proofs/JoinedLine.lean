import Switchboard.Proofs.Outline

/-!
Lines that go on. Where a line leaves no quote open, what a blank separates from it is read as a line
of its own. A quote mark behind a line closes its own quote, belongs to the text of the other one,
and opens a quote where none is open.
-/
namespace Switchboard.Line

open Text (isBlank isWhiteSpace isSeparator)

/-- A text with which no name and no reference in front of it goes on. -/
def StopsReference (rest : List Char) : Prop :=
  ∀ c ∈ rest.head?, isNameChar c = false ∧ c ≠ '{' ∧ c ≠ '}'

variable {env : Table String} {cs rest after : List Char} {name : String}

/-! ### References -/

theorem isNameStart_eq_false {c : Char} (other : isNameChar c = false) : isNameStart c = false := by
  simp only [isNameChar, Char.isAlphanum, Bool.or_eq_false_iff] at other
  simp [isNameStart, other]

theorem readName?_append (stops : ∀ c ∈ rest.head?, isNameChar c = false) (cs : List Char) :
    readName? (cs ++ rest) = (readName? cs).map fun (name, after) => (name, after ++ rest) := by
  have none := Text.takeWhile_of_head? stops
  have whole := Text.dropWhile_of_head? stops
  cases cs with
  | nil =>
    cases rest with
    | nil => rfl
    | cons c rest => simp [readName?, isNameStart_eq_false (stops c rfl)]
  | cons c cs =>
    by_cases starts : isNameStart c = true
    · have name : (cs ++ rest).takeWhile isNameChar = cs.takeWhile isNameChar := by
        simp only [List.takeWhile_append, none, List.append_nil]
        split
        · rename_i all
          exact ((List.takeWhile_prefix _).eq_of_length all).symm
        · rfl
      have after : (cs ++ rest).dropWhile isNameChar = cs.dropWhile isNameChar ++ rest := by
        simp only [List.dropWhile_append, whole]
        split
        · rename_i all
          simp [List.isEmpty_iff.mp all]
        · rfl
      simp [readName?, starts, name, after]
    · simp [readName?, starts]

/-- What follows a reference that ends takes no part in it. -/
theorem reference?_append (stops : StopsReference rest) (cs : List Char) :
    reference? (cs ++ rest) = (reference? cs).map fun (name, after) => (name, after ++ rest) := by
  have unnamed : ∀ c ∈ rest.head?, isNameChar c = false := fun c first => (stops c first).1
  have plain : ∀ cs, (∀ inner, cs ≠ '{' :: inner) → reference? cs = readName? cs := by
    intro cs unbraced
    unfold reference?
    split
    · rename_i inner
      exact absurd rfl (unbraced inner)
    · rfl
  by_cases braced : ∃ inner, cs = '{' :: inner
  · obtain ⟨inner, rfl⟩ := braced
    simp only [List.cons_append, reference?, readName?_append unnamed]
    cases found : readName? inner with
    | none => rfl
    | some reading =>
      obtain ⟨name, after⟩ := reading
      cases after with
      | cons c after =>
        by_cases closes : c = '}'
        · simp [closes]
        · simp [closes]
      | nil =>
        cases rest with
        | nil => rfl
        | cons c rest =>
          have open? : c ≠ '}' := (stops c rfl).2.2
          simp [open?]
  · have unbraced : ∀ inner, cs ≠ '{' :: inner := fun inner same => braced ⟨inner, same⟩
    rw [plain cs unbraced, ← readName?_append unnamed]
    apply plain
    intro inner same
    cases cs with
    | nil => exact (stops '{' (by simp_all)).2.1 rfl
    | cons c cs => exact unbraced cs (by simp_all)

theorem readName?_suffix (found : readName? cs = some (name, after)) : after <:+ cs := by
  cases cs with
  | nil => cases found
  | cons c cs =>
    simp only [readName?] at found
    split at found
    · obtain ⟨-, rfl⟩ := Prod.mk.inj (Option.some.inj found)
      exact (List.dropWhile_suffix _).trans (List.suffix_cons c cs)
    · cases found

theorem reference?_suffix (found : reference? cs = some (name, after)) : after <:+ cs := by
  unfold reference? at found
  split at found
  · rename_i inner
    split at found
    · rename_i closed
      obtain ⟨-, rfl⟩ := Prod.mk.inj (Option.some.inj found)
      exact ((List.suffix_cons '}' _).trans (readName?_suffix closed)).trans
        (List.suffix_cons '{' inner)
    · cases found
  · exact readName?_suffix found

/-! ### Going on with a scan -/

theorem IsPlain.append {quote : Option Quote} {c : Char} (plain : IsPlain quote c cs)
    (stops : StopsReference rest) (unescaped : ¬ ['\\'] <:+ c :: cs) :
    IsPlain quote c (cs ++ rest) := by
  refine ⟨plain.inWord, plain.unmarked, ?_, ?_⟩
  · intro e after backslash behind
    cases cs with
    | nil =>
      subst backslash
      exact absurd (List.suffix_refl _) unescaped
    | cons first others =>
      obtain ⟨rfl, -⟩ := List.cons.inj behind
      exact plain.unescaping first others backslash rfl
  · intro dollar expanding
    rw [reference?_append stops, plain.unreferring dollar expanding]
    rfl

theorem unescaped_tail {c : Char} (unescaped : ¬ ['\\'] <:+ c :: cs) : ¬ ['\\'] <:+ cs :=
  fun ends => unescaped (ends.trans (List.suffix_cons c cs))

theorem scanFrom_append_of_reads {quote last : Option Quote} {word : Word} {words : List Word}
    (reads : Reads quote cs word words last) (stops : StopsReference rest)
    (unescaped : ¬ ['\\'] <:+ cs) (scan : Scan) (same : scan.quote = quote) :
    scanFrom env scan (cs ++ rest) = scanFrom env (scanFrom env scan cs) rest := by
  -- An escape takes what follows it, and so might the last character; all else is read from within.
  induction reads generalizing scan with
  | done quote => rw [List.nil_append, scanFrom_nil]
  | blank separates read ih =>
    rw [List.cons_append, scanFrom_blank same separates, scanFrom_blank same separates]
    apply ih
    · exact unescaped_tail unescaped
    · rw [Scan.quote_finish, same]
  | opening quote read ih =>
    rw [List.cons_append, scanFrom_opening quote same, scanFrom_opening quote same]
    apply ih
    · exact unescaped_tail unescaped
    · rfl
  | closing quote read ih =>
    rw [List.cons_append, scanFrom_closing same, scanFrom_closing same]
    apply ih
    · exact unescaped_tail unescaped
    · rfl
  | escaped taken read ih =>
    rw [List.cons_append, List.cons_append, scanFrom_escaped (same ▸ taken),
      scanFrom_escaped (same ▸ taken)]
    apply ih
    · exact unescaped_tail (unescaped_tail unescaped)
    · exact same
  | referring expanding found read ih =>
    have further := reference?_append stops _ ▸ congrArg (Option.map _) found
    rw [List.cons_append, scanFrom_variable (same ▸ expanding) found,
      scanFrom_variable (same ▸ expanding) further]
    apply ih
    · exact fun ends => unescaped_tail unescaped (ends.trans (reference?_suffix found))
    · rw [Scan.quote_pushValue, same]
  | plain plain read ih =>
    rw [List.cons_append, scanFrom_plain (same ▸ plain.append stops unescaped),
      scanFrom_plain (same ▸ plain)]
    apply ih
    · exact unescaped_tail unescaped
    · exact same

/-- A scan of a line that goes on is a scan of what it goes on with, from where the line ends. -/
theorem scanFrom_append (stops : StopsReference rest) (unescaped : cs.getLast? ≠ some '\\')
    (scan : Scan) : scanFrom env scan (cs ++ rest) = scanFrom env (scanFrom env scan cs) rest := by
  obtain ⟨word, words, last, reads⟩ := exists_reads scan.quote cs
  apply scanFrom_append_of_reads reads stops _ scan rfl
  rwa [List.singleton_suffix_iff_getLast?_eq_some]

/-- Between two words a scan goes on as one that starts. -/
theorem scanFrom_afresh (env : Table String) {scan : Scan} (unquoted : scan.quote = none)
    (between : scan.word? = none) (cs : List Char) :
    (scanFrom env scan cs).flags = (scanFrom env {} cs).flags ∧
      (scanFrom env scan cs).finish.tokens =
        scan.tokens ++ (scanFrom env {} cs).finish.tokens := by
  obtain ⟨word, words, last, reads⟩ := exists_reads none cs
  obtain ⟨ends, tokens⟩ := scanFrom_of_reads env reads scan unquoted
  obtain ⟨endsAfresh, tokensAfresh⟩ := scanFrom_of_reads env reads {} rfl
  have nothing : ({} : Scan).word? = none := rfl
  have noTokens : ({} : Scan).tokens = [] := rfl
  constructor
  · simp [Scan.flags, ends, endsAfresh]
  · simp [tokens, tokensAfresh, between, nothing, noTokens]

/-! ### Two lines with a blank between them -/

theorem quote_eq_none {scan : Scan} (closed : scan.flags = {}) : scan.quote = none := by
  cases open? : scan.quote with
  | none => rfl
  | some quote => cases quote <;> simp [Scan.flags, open?] at closed

theorem toNat_of_isNameChar {c : Char} (named : isNameChar c = true) :
    48 ≤ c.toNat ∧ c.toNat ≤ 122 := by
  rcases Bool.or_eq_true_iff.mp named with letter | line
  · rcases Bool.or_eq_true_iff.mp letter with letter | digit
    · rcases Bool.or_eq_true_iff.mp letter with upper | lower
      · obtain ⟨least, most⟩ : 'A'.val ≤ c.val ∧ c.val ≤ 'Z'.val := of_decide_eq_true upper
        exact ⟨Nat.le_trans (by decide) least, Nat.le_trans most (by decide)⟩
      · obtain ⟨least, most⟩ := Bool.and_eq_true_iff.mp lower
        exact ⟨Nat.le_trans (by decide) (of_decide_eq_true least),
          Nat.le_trans (of_decide_eq_true most) (by decide)⟩
    · obtain ⟨least, most⟩ := Bool.and_eq_true_iff.mp digit
      exact ⟨of_decide_eq_true least, Nat.le_trans (of_decide_eq_true most) (by decide)⟩
  · obtain rfl := eq_of_beq line
    decide

theorem stopsReference_blank {c : Char} (blank : isBlank c = true) (rest : List Char) :
    StopsReference (c :: rest) := by
  have range : c.toNat ≤ 32 ∨ 133 ≤ c.toNat := by
    simp [isBlank, isWhiteSpace, isSeparator] at blank
    omega
  intro first here
  obtain rfl := Option.some.inj here
  refine ⟨?_, ?_, ?_⟩
  · apply Bool.eq_false_iff.mpr
    intro named
    have := toNat_of_isNameChar named
    omega
  · rintro rfl
    simp at range
  · rintro rfl
    simp at range

/-- A blank separates what follows it from a line that leaves no quote open: the tokens are those of
the one line and of the other, and the quotes that are left open are those of the other. -/
theorem tokenize_joined (env : Table String) {first : String} {gap : Char}
    (unescaped : first.toList.getLast? ≠ some '\\') (closed : (tokenize env first).2 = {})
    (blank : isBlank gap = true) (second : String) :
    tokenize env (first.push gap ++ second) =
      ((tokenize env first).1 ++ (tokenize env second).1, (tokenize env second).2) := by
  have unquoted : (scanFrom env {} first.toList).quote = none := quote_eq_none closed
  have still : (scanFrom env {} first.toList).finish.quote = none := by
    rw [Scan.quote_finish, unquoted]
  have scanned : scanFrom env {} (first.push gap ++ second).toList =
      scanFrom env (scanFrom env {} first.toList).finish second.toList := by
    rw [String.toList_append, String.toList_push, List.append_assoc, List.singleton_append,
      scanFrom_append (stopsReference_blank blank _) unescaped, scanFrom_blank unquoted blank]
  obtain ⟨flags, tokens⟩ := scanFrom_afresh env still (Scan.word?_finish _) second.toList
  simp only [tokenize, scanned, flags, tokens]

theorem tokenize_joined_reference :
    "say \"x\"$".toList.getLast? ≠ some '\\' ∧
      (tokenize [("A", "a b")] "say \"x\"$").2 = {} ∧ isBlank '\x1c' = true ∧
      tokenize [("A", "a b")] ("say \"x\"$".push '\x1c' ++ "A '$A") =
        (["say", "x$", "A", "$A"], { single := true }) := by
  have unescaped : "say \"x\"$".toList.getLast? ≠ some '\\' := by decide
  have closed : (tokenize [("A", "a b")] "say \"x\"$").2 = {} := by decide +kernel
  have blank : isBlank '\x1c' = true := by decide
  refine ⟨unescaped, closed, blank, (tokenize_joined _ unescaped closed blank "A '$A").trans ?_⟩
  decide +kernel

/-! ### A quote mark behind a line -/

/-- Whether the flag of a quote is set. -/
def isDangling (flags : QuoteFlags) : Quote → Bool
  | .double => flags.double
  | .single => flags.single

theorem isDangling_flags {scan : Scan} {quote : Quote} :
    isDangling scan.flags quote = true ↔ scan.quote = some quote := by
  cases quote <;> simp [isDangling, Scan.flags]

theorem stopsReference_mark (quote : Quote) : StopsReference [quote.mark] := by
  intro c here
  obtain rfl := Option.some.inj here
  cases quote <;> decide

theorem mark_inj {one other : Quote} : one.mark = other.mark ↔ one = other := by
  cases one <;> cases other <;> decide

/-- A quote mark belongs to the text of the other quote. -/
theorem isPlain_mark {quote other : Quote} (different : other ≠ quote) :
    IsPlain (some quote) other.mark [] := by
  refine ⟨nofun, ?_, ?_, ?_⟩
  · intro marked same
    refine ⟨nofun, ?_⟩
    rintro ⟨⟩
    exact different (mark_inj.mp same)
  · intro e after _ behind
    cases behind
  · intro _ _
    rfl

variable {line : String}

theorem tokenize_push (unescaped : line.toList.getLast? ≠ some '\\') (quote : Quote) :
    tokenize env (line.push quote.mark) =
      ((scanFrom env (scanFrom env {} line.toList) [quote.mark]).finish.tokens,
        (scanFrom env (scanFrom env {} line.toList) [quote.mark]).flags) := by
  simp only [tokenize, String.toList_push,
    scanFrom_append (stopsReference_mark quote) unescaped]

theorem scanFrom_ownMark {scan : Scan} {quote : Quote} (quoted : scan.quote = some quote) :
    scanFrom env scan [quote.mark] = scan.closeQuote := by
  rw [scanFrom_closing quoted, scanFrom_nil]

theorem scanFrom_otherMark {scan : Scan} {quote other : Quote} (quoted : scan.quote = some quote)
    (different : other ≠ quote) : scanFrom env scan [other.mark] = scan.push [other.mark] := by
  rw [scanFrom_plain (quoted ▸ isPlain_mark different), scanFrom_nil]

theorem scanFrom_openingMark {scan : Scan} (unquoted : scan.quote = none) (quote : Quote) :
    scanFrom env scan [quote.mark] = scan.openQuote quote := by
  rw [scanFrom_opening quote unquoted, scanFrom_nil]

theorem Scan.tokens_finish_closeQuote (scan : Scan) :
    scan.closeQuote.finish.tokens = scan.finish.tokens := by
  rw [Scan.tokens_finish, Scan.tokens_finish]
  rfl

theorem Scan.flags_eq (scan : Scan) : scan.flags = flagsOf scan.quote := rfl

/-- The quotes that are left open are told exactly. No more than one is; its mark closes it and
leaves the tokens as they are, while the other mark leaves it open; and where none is open, either
mark opens its own. -/
theorem dangling_flags_exact (env : Table String)
    (unescaped : line.toList.getLast? ≠ some '\\') :
    (∀ one other, isDangling (tokenize env line).2 one = true →
        isDangling (tokenize env line).2 other = true → one = other) ∧
      (∀ quote, isDangling (tokenize env line).2 quote = true →
        tokenize env (line.push quote.mark) = ((tokenize env line).1, {}) ∧
          ∀ other ≠ quote, (tokenize env (line.push other.mark)).2 = flagsOf (some quote)) ∧
      ((tokenize env line).2 = {} →
        ∀ quote, (tokenize env (line.push quote.mark)).2 = flagsOf (some quote)) := by
  have flags : (tokenize env line).2 = (scanFrom env {} line.toList).flags := rfl
  simp only [flags, isDangling_flags]
  refine ⟨?_, ?_, ?_⟩
  · intro one other here there
    exact Option.some.inj (here.symm.trans there)
  · intro quote quoted
    constructor
    · rw [tokenize_push unescaped, scanFrom_ownMark quoted, Scan.tokens_finish_closeQuote]
      rfl
    · intro other different
      rw [tokenize_push unescaped, scanFrom_otherMark quoted different, Scan.flags_eq,
        Scan.quote_push, quoted]
  · intro closed quote
    rw [tokenize_push unescaped, scanFrom_openingMark (quote_eq_none closed)]
    rfl

theorem dangling_flags_exact_quoted :
    ("it's \"$\x7b".toList.getLast? ≠ some '\\' ∧
      isDangling (tokenize [] "it's \"$\x7b").2 .single = true ∧
      tokenize [] ("it's \"$\x7b".push '\'') = (["its \"$\x7b"], {}) ∧
      (tokenize [] ("it's \"$\x7b".push '"')).2 = { single := true }) ∧
    "say 'x\"'".toList.getLast? ≠ some '\\' ∧ (tokenize [] "say 'x\"'").2 = {} ∧
      (tokenize [] ("say 'x\"'".push '"')).2 = { double := true } := by
  have unescaped : "it's \"$\x7b".toList.getLast? ≠ some '\\' := by decide
  have dangling : isDangling (tokenize [] "it's \"$\x7b").2 .single = true := by decide +kernel
  have unescapedClosed : "say 'x\"'".toList.getLast? ≠ some '\\' := by decide
  have closed : (tokenize [] "say 'x\"'").2 = {} := by decide +kernel
  obtain ⟨closing, keeping⟩ := (dangling_flags_exact [] unescaped).2.1 .single dangling
  have opening := (dangling_flags_exact [] unescapedClosed).2.2 closed .double
  refine ⟨⟨unescaped, dangling, closing.trans ?_, keeping .double (by decide)⟩,
    unescapedClosed, closed, opening⟩
  decide +kernel

end Switchboard.Line
