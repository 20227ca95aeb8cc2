import Switchboard.Proofs.Scan

/-!
Writing words so that a line gives them back. A word is written in pieces without blanks between
them, each between double quotes, between single quotes or with a backslash before every character,
and blanks stand between the words.
-/
namespace Switchboard.Line

open Text (isBlank)

/-- A piece of a word, by the way in which it is written. -/
inductive Piece where
  | double (cs : List Char)
  | single (cs : List Char) (unmarked : '\'' ∉ cs)
  | bare (cs : List Char) (filled : cs ≠ [])

namespace Piece

def text : Piece → List Char
  | double cs | single cs _ | bare cs _ => cs

/-- A character between double quotes. -/
def escape (c : Char) : List Char :=
  if c = '"' ∨ c = '\\' ∨ c = '$' then ['\\', c] else [c]

def written : Piece → List Char
  | double cs => '"' :: cs.flatMap escape ++ ['"']
  | single cs _ => '\'' :: cs ++ ['\'']
  | bare cs _ => cs.flatMap fun c => ['\\', c]

end Piece

/-- A word as it is written: in one piece or more. -/
structure WrittenWord where
  pieces : List Piece
  nonempty : pieces ≠ []

namespace WrittenWord

def text (word : WrittenWord) : List Char :=
  word.pieces.flatMap Piece.text

def written (word : WrittenWord) : List Char :=
  word.pieces.flatMap Piece.written

end WrittenWord

/-- Blanks, or nothing. -/
structure Blanks where
  cs : List Char
  blank : ∀ c ∈ cs, isBlank c = true

/-- What separates two words. -/
structure Gap extends Blanks where
  nonempty : cs ≠ []

/-- A line of written words. -/
structure WrittenLine where
  before : Blanks
  /-- The words that a gap follows. -/
  inner : List (WrittenWord × Gap) := []
  /-- The word that ends the line, up to blanks. -/
  final : Option WrittenWord := none
  after : Blanks

namespace WrittenLine

def words (line : WrittenLine) : List String :=
  (line.inner.map Prod.fst ++ line.final.toList).map fun word => String.ofList word.text

def written (line : WrittenLine) : String :=
  String.ofList (line.before.cs ++ (line.inner.flatMap fun (word, gap) => word.written ++ gap.cs) ++
    (line.final.elim [] WrittenWord.written) ++ line.after.cs)

end WrittenLine

/-- Any words can be written. -/
theorem exists_words_eq (words : List String) : ∃ line : WrittenLine, line.words = words := by
  let quoted (word : String) : WrittenWord := ⟨[.double word.toList], List.cons_ne_nil _ _⟩
  let gap : Gap := ⟨⟨[' '], by simp [isBlank, Text.isWhiteSpace]⟩, List.cons_ne_nil _ _⟩
  let nothing : Blanks := ⟨[], by simp⟩
  refine ⟨⟨nothing, words.map fun word => (quoted word, gap), none, nothing⟩, ?_⟩
  simp [WrittenLine.words, WrittenWord.text, Piece.text, quoted, Function.comp_def]

/-! ### Scanning what is written -/

variable {env : Table String} {scan : Scan}

theorem Scan.push_push (scan : Scan) (first second : List Char) :
    (scan.push first).push second = scan.push (first ++ second) := by
  simp [Scan.push, List.reverseAux_eq]

/-- A scan inside of a quote that was opened with `scan`. -/
def Scan.within (scan : Scan) (quote : Quote) : Scan :=
  { scan with quote := some quote }

theorem scanFrom_leave (scan : Scan) (unquoted : scan.quote = none) (quote : Quote)
    (rest : List Char) :
    scanFrom env (scan.within quote) (quote.mark :: rest) = scanFrom env scan rest := by
  have left : (scan.within quote).closeQuote = scan := by
    rw [Scan.closeQuote, Scan.within, ← unquoted]
  rw [scanFrom_closing rfl, left]

theorem Scan.push_within (scan : Scan) (said : List Char) (quote : Quote) (c : Char) :
    ((scan.push said).within quote).push [c] = (scan.push (said ++ [c])).within quote := by
  rw [← Scan.push_push]
  rfl

theorem isPlain_double {c : Char} {rest : List Char}
    (ordinary : ¬ (c = '"' ∨ c = '\\' ∨ c = '$')) : IsPlain (some .double) c rest := by
  simp only [not_or] at ordinary
  obtain ⟨unmarked, unescaping, unreferring⟩ := ordinary
  refine ⟨nofun, ?_, ?_, ?_⟩
  · intro other same
    cases other with
    | double => exact absurd same unmarked
    | single => decide
  · intro e after backslash
    exact absurd backslash unescaping
  · intro dollar
    exact absurd dollar unreferring

theorem isPlain_single {c : Char} {rest : List Char} (unmarked : c ≠ '\'') :
    IsPlain (some .single) c rest := by
  refine ⟨nofun, ?_, ?_, ?_⟩
  · intro other same
    cases other with
    | double => decide
    | single => exact absurd same unmarked
  · intro e after backslash split
    rfl
  · intro dollar expanding
    exact absurd rfl expanding

theorem scanFrom_inDouble (unquoted : scan.quote = none) (said cs rest : List Char) :
    scanFrom env ((scan.push said).within .double) (cs.flatMap Piece.escape ++ '"' :: rest) =
      scanFrom env (scan.push (said ++ cs)) rest := by
  induction cs generalizing said with
  | nil =>
    rw [List.flatMap_nil, List.nil_append, List.append_nil]
    exact scanFrom_leave (scan.push said) unquoted .double rest
  | cons c cs ih =>
    rw [List.append_cons said c cs, ← ih, ← Scan.push_within, List.flatMap_cons,
      List.append_assoc]
    by_cases special : c = '"' ∨ c = '\\' ∨ c = '$'
    · rw [Piece.escape, if_pos special]
      exact scanFrom_escaped (by
        simpa [Scan.within, takesEscape, isDoubleEscape, or_assoc] using special)
    · rw [Piece.escape, if_neg special]
      exact scanFrom_plain (isPlain_double special)

theorem scanFrom_inSingle (unquoted : scan.quote = none) (said cs rest : List Char)
    (unmarked : '\'' ∉ cs) :
    scanFrom env ((scan.push said).within .single) (cs ++ '\'' :: rest) =
      scanFrom env (scan.push (said ++ cs)) rest := by
  induction cs generalizing said with
  | nil =>
    rw [List.nil_append, List.append_nil]
    exact scanFrom_leave (scan.push said) unquoted .single rest
  | cons c cs ih =>
    have other : c ≠ '\'' := fun same => unmarked (same ▸ List.mem_cons_self)
    rw [List.append_cons said c cs, ← ih _ fun member => unmarked (List.mem_cons_of_mem c member),
      ← Scan.push_within]
    exact scanFrom_plain (isPlain_single other)

theorem scanFrom_bare (unquoted : scan.quote = none) (said cs rest : List Char) :
    scanFrom env (scan.push said) ((cs.flatMap fun c => ['\\', c]) ++ rest) =
      scanFrom env (scan.push (said ++ cs)) rest := by
  induction cs generalizing said with
  | nil => rw [List.flatMap_nil, List.nil_append, List.append_nil]
  | cons c cs ih =>
    rw [List.append_cons said c cs, ← ih, ← Scan.push_push]
    exact scanFrom_escaped (by rw [Scan.quote_push, unquoted]; rfl)

/-- A piece adds its text to the open token; one is open then, even if the text is empty. -/
theorem scanFrom_piece (unquoted : scan.quote = none) (piece : Piece) (rest : List Char) :
    scanFrom env scan (piece.written ++ rest) = scanFrom env (scan.push piece.text) rest := by
  cases piece with
  | double cs =>
    rw [Piece.written, List.append_assoc]
    exact (scanFrom_opening .double unquoted).trans (scanFrom_inDouble unquoted [] cs rest)
  | single cs unmarked =>
    rw [Piece.written, List.append_assoc]
    exact (scanFrom_opening .single unquoted).trans
      (scanFrom_inSingle unquoted [] cs rest unmarked)
  | bare cs filled =>
    cases cs with
    | nil => exact absurd rfl filled
    | cons c cs =>
      have first : scanFrom env scan ('\\' :: c :: ((cs.flatMap fun c => ['\\', c]) ++ rest)) =
          scanFrom env (scan.push [c]) ((cs.flatMap fun c => ['\\', c]) ++ rest) :=
        scanFrom_escaped (by rw [unquoted]; rfl)
      exact first.trans (scanFrom_bare unquoted [c] cs rest)

theorem scanFrom_pieces (unquoted : scan.quote = none) (said : List Char) (pieces : List Piece)
    (rest : List Char) :
    scanFrom env (scan.push said) (pieces.flatMap Piece.written ++ rest) =
      scanFrom env (scan.push (said ++ pieces.flatMap Piece.text)) rest := by
  induction pieces generalizing said with
  | nil => rw [List.flatMap_nil, List.flatMap_nil, List.nil_append, List.append_nil]
  | cons piece pieces ih =>
    have still : (scan.push said).quote = none := unquoted
    rw [List.flatMap_cons, List.flatMap_cons, List.append_assoc, scanFrom_piece still,
      Scan.push_push, ih, List.append_assoc]

theorem scanFrom_word (unquoted : scan.quote = none) (word : WrittenWord) (rest : List Char) :
    scanFrom env scan (word.written ++ rest) = scanFrom env (scan.push word.text) rest := by
  obtain ⟨pieces, nonempty⟩ := word
  cases pieces with
  | nil => exact absurd rfl nonempty
  | cons piece pieces =>
    rw [WrittenWord.written, WrittenWord.text, List.flatMap_cons, List.flatMap_cons,
      List.append_assoc, scanFrom_piece unquoted, scanFrom_pieces unquoted]

/-! ### Words and blanks -/

/-- A scan between two words. -/
def Scan.between (tokens : List String) : Scan :=
  { finished := tokens.reverse }

@[simp] theorem Scan.tokens_between (tokens : List String) :
    (Scan.between tokens).tokens = tokens := List.reverse_reverse tokens

@[simp] theorem Scan.word?_between (tokens : List String) :
    (Scan.between tokens).word? = none := rfl

theorem Scan.finish_push_between (tokens : List String) (cs : List Char) :
    ((Scan.between tokens).push cs).finish = Scan.between (tokens ++ [String.ofList cs]) := by
  simp [Scan.between, Scan.push, Scan.finish, Scan.word?, List.reverseAux_eq]

theorem scanFrom_blanks (tokens : List String) {cs : List Char}
    (blank : ∀ c ∈ cs, isBlank c = true) (rest : List Char) :
    scanFrom env (Scan.between tokens) (cs ++ rest) = scanFrom env (Scan.between tokens) rest := by
  induction cs with
  | nil => rfl
  | cons c cs ih =>
    rw [List.cons_append, scanFrom_blank rfl (blank c List.mem_cons_self)]
    exact ih fun other member => blank other (List.mem_cons_of_mem c member)

theorem scanFrom_word_gap (tokens : List String) (word : WrittenWord) (gap : Gap)
    (rest : List Char) :
    scanFrom env (Scan.between tokens) (word.written ++ gap.cs ++ rest) =
      scanFrom env (Scan.between (tokens ++ [String.ofList word.text])) rest := by
  obtain ⟨⟨cs, blank⟩, nonempty⟩ := gap
  cases cs with
  | nil => exact absurd rfl nonempty
  | cons c cs =>
    have still : ((Scan.between tokens).push word.text).quote = none := rfl
    rw [List.append_assoc, scanFrom_word rfl, List.cons_append,
      scanFrom_blank still (blank c List.mem_cons_self), Scan.finish_push_between]
    exact scanFrom_blanks _ (fun other member => blank other (List.mem_cons_of_mem c member)) rest

theorem scanFrom_inner (tokens : List String) (inner : List (WrittenWord × Gap))
    (rest : List Char) :
    scanFrom env (Scan.between tokens)
        ((inner.flatMap fun (word, gap) => word.written ++ gap.cs) ++ rest) =
      scanFrom env
        (Scan.between (tokens ++ inner.map fun entry => String.ofList entry.1.text)) rest := by
  induction inner generalizing tokens with
  | nil => rw [List.flatMap_nil, List.map_nil, List.nil_append, List.append_nil]
  | cons entry inner ih =>
    rw [List.flatMap_cons, List.append_assoc, scanFrom_word_gap, ih, List.map_cons,
      ← List.append_cons]

theorem Scan.finish_finish (scan : Scan) : scan.finish.finish = scan.finish := by
  rw [Scan.finish, Scan.word?_finish]

theorem scanFrom_trailing (env : Table String) {cs : List Char}
    (blank : ∀ c ∈ cs, isBlank c = true) (unquoted : scan.quote = none) :
    (scanFrom env scan cs).finish = scan.finish ∧ (scanFrom env scan cs).quote = none := by
  induction cs generalizing scan with
  | nil =>
    rw [scanFrom_nil]
    exact ⟨rfl, unquoted⟩
  | cons c cs ih =>
    have still : scan.finish.quote = none := by rw [Scan.quote_finish, unquoted]
    obtain ⟨ends, closed⟩ :=
      ih (fun other member => blank other (List.mem_cons_of_mem c member)) still
    rw [scanFrom_blank unquoted (blank c List.mem_cons_self), ends, Scan.finish_finish]
    exact ⟨rfl, closed⟩

/-- A line gives back the words that were written in it, whatever the environment is, and leaves no
quote open. -/
theorem tokenize_written (line : WrittenLine) (env : Table String) :
    tokenize env line.written = (line.words, {}) := by
  obtain ⟨before, inner, final, after⟩ := line
  let tokens := inner.map fun entry => String.ofList entry.1.text
  have front (rest : List Char) : scanFrom env {} (before.cs ++
      ((inner.flatMap fun (word, gap) => word.written ++ gap.cs) ++ rest)) =
        scanFrom env (Scan.between tokens) rest :=
    (scanFrom_blanks [] before.blank _).trans (scanFrom_inner [] inner rest)
  have back : ∃ scan : Scan, scan.quote = none ∧
      scan.finish.tokens = tokens ++ final.toList.map (fun word => String.ofList word.text) ∧
      scanFrom env (Scan.between tokens) (final.elim [] WrittenWord.written ++ after.cs) =
        scanFrom env scan after.cs := by
    cases final with
    | none => exact ⟨Scan.between tokens, rfl, by simp, rfl⟩
    | some word =>
      refine ⟨(Scan.between tokens).push word.text, rfl, ?_, scanFrom_word rfl word after.cs⟩
      rw [Scan.finish_push_between, Scan.tokens_between]
      rfl
  obtain ⟨scan, unquoted, finished, scanned⟩ := back
  obtain ⟨ends, closed⟩ := scanFrom_trailing env after.blank unquoted
  have whole : scanFrom env {} (WrittenLine.written ⟨before, inner, final, after⟩).toList =
      scanFrom env scan after.cs := by
    rw [WrittenLine.written, String.toList_ofList, List.append_assoc, List.append_assoc, front,
      scanned]
  have words : scan.finish.tokens = WrittenLine.words ⟨before, inner, final, after⟩ := by
    rw [finished, WrittenLine.words, List.map_append, List.map_map]
    rfl
  have flags : (scanFrom env scan after.cs).flags = {} := by
    rw [Scan.flags, closed]
    rfl
  simp only [tokenize, whole, ends, words, flags]

end Switchboard.Line
