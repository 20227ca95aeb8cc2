import Switchboard.Proofs.JsonNumber
import Switchboard.Proofs.JsonText

/-!
Documents in JSON: the text of a document is read as that document, its fields in ascending order.
-/
namespace Switchboard

namespace Json

/-- The documents that JSON texts are read as: all numbers can be written, and no table has a key
twice. -/
inductive Spellable : Document → Prop where
  | null : Spellable .null
  | bool (b : Bool) : Spellable (.bool b)
  | int {n : Int} (writable : hasWritableDigits n = true) : Spellable (.int n)
  | real {x : Binary64} (canonical : x.IsCanonical) : Spellable (.real x)
  | text (s : String) : Spellable (.text s)
  | list {items : List Document} (all : ∀ item ∈ items, Spellable item) : Spellable (.list items)
  | table {fields : Table Document} (once : (Table.keys fields).Nodup)
      (all : ∀ field ∈ fields, Spellable field.2) : Spellable (.table fields)

theorem Spellable.noItems : Spellable (.list []) :=
  .list fun _ member => (List.not_mem_nil member).elim

theorem Spellable.noFields : Spellable (.table []) :=
  .table List.nodup_nil fun _ member => (List.not_mem_nil member).elim

/-! ### Values without parts -/

theorem readValue_digit {c : Char} (digit : c.isDigit = true) (fuel : Nat) (rest : List Char) :
    readValue (fuel + 1) (c :: rest) = readNumber (c :: rest) := by
  rw [readValue]
  all_goals
    rintro _ ⟨⟩
    exact absurd digit (by decide)

theorem readValue_minus {c : Char} (digit : c.isDigit = true) (fuel : Nat) (rest : List Char) :
    readValue (fuel + 1) ('-' :: c :: rest) = readNumber ('-' :: c :: rest) := by
  rw [readValue]
  all_goals rintro _ ⟨⟩
  exact absurd digit (by decide)

/-- A spelling is taken for a number. -/
theorem readValue_spelling {spelling : Spelling} (plain : spelling.IsPlain) (fuel : Nat)
    (rest : List Char) :
    readValue (fuel + 1) (spelling.text ++ rest) = readNumber (spelling.text ++ rest) := by
  obtain ⟨c, others, first, digit⟩ := plain.exists_cons
  rw [Spelling.text, first]
  cases spelling.negative with
  | true => exact readValue_minus digit fuel _
  | false => exact readValue_digit digit fuel _

variable {rest : List Char}

theorem readValue_int {n : Int} (writable : hasWritableDigits n = true) (ends : EndsNumber rest)
    (fuel : Nat) : readValue (fuel + 1) ((toString n).toList ++ rest) = some (.int n, rest) := by
  rw [← Spelling.text_ofInt, readValue_spelling (Spelling.isPlain_ofInt n), Spelling.text_ofInt,
    readNumber_int writable ends]

theorem readValue_real {x : Binary64} (canonical : x.IsCanonical) (ends : EndsNumber rest)
    (fuel : Nat) : readValue (fuel + 1) (encodeReal x ++ rest) = some (.real x, rest) := by
  cases x with
  | nan => rfl
  | infinity negative =>
    cases negative with
    | true => rfl
    | false => rfl
  | finite negative m e =>
    obtain ⟨spelling, text, plain, -⟩ := exists_spelling canonical negative
    have written : encodeReal (.finite negative m e) = spelling.text := text
    rw [written, readValue_spelling plain, ← text, readNumber_real canonical ends]

theorem readValue_text (s : String) (fuel : Nat) (rest : List Char) :
    readValue (fuel + 1) (encodeText s ++ rest) = some (.text s, rest) := by
  obtain ⟨body, written, read⟩ := readText_encodeText s rest
  rw [written, readValue, read]
  rfl

/-! ### Blanks -/

theorem skipSpace_of_head {c : Char} (solid : isSpace c = false) (rest : List Char) :
    skipSpace (c :: rest) = c :: rest :=
  List.dropWhile_cons_of_neg (by rw [solid]; decide)

theorem skipSpace_newLine (depth : Nat) (rest : List Char) :
    skipSpace (newLine depth ++ rest) = skipSpace rest := by
  have blanks : ∀ c ∈ newLine depth, isSpace c = true := by
    intro c member
    rcases List.mem_cons.mp member with rfl | blank
    · rfl
    · rw [List.eq_of_mem_replicate blank]
      rfl
  exact List.dropWhile_append_of_pos blanks

/-- How the text of a value starts: with no blank and no closing bracket. -/
def Starts (cs : List Char) : Prop :=
  ∃ c rest, cs = c :: rest ∧ isSpace c = false ∧ c ≠ ']'

theorem Starts.append {cs : List Char} (starts : Starts cs) (rest : List Char) :
    Starts (cs ++ rest) := by
  obtain ⟨c, others, rfl, start⟩ := starts
  exact ⟨c, others ++ rest, rfl, start⟩

theorem Starts.skipSpace_eq {cs : List Char} (starts : Starts cs) : skipSpace cs = cs := by
  obtain ⟨c, others, rfl, solid, -⟩ := starts
  exact skipSpace_of_head solid others

theorem starts_spelling {spelling : Spelling} (plain : spelling.IsPlain) :
    Starts spelling.text := by
  obtain ⟨c, others, first, digit⟩ := plain.exists_cons
  rw [Spelling.text, first]
  cases spelling.negative with
  | true => exact ⟨'-', _, rfl, by decide, by decide⟩
  | false =>
    refine ⟨c, _, rfl, ?_, ?_⟩
    · rw [← Bool.not_eq_true]
      intro blank
      simp only [isSpace, Bool.or_eq_true, beq_iff_eq] at blank
      rcases blank with ((rfl | rfl) | rfl) | rfl <;> exact absurd digit (by decide)
    · rintro rfl
      exact absurd digit (by decide)

theorem starts_write {d : Document} (spellable : Spellable d) (depth : Nat) :
    Starts (write depth d) := by
  cases spellable with
  | null => exact ⟨'n', _, rfl, by decide, by decide⟩
  | bool b =>
    cases b with
    | true => exact ⟨'t', _, rfl, by decide, by decide⟩
    | false => exact ⟨'f', _, rfl, by decide, by decide⟩
  | int writable =>
    rw [write, ← Spelling.text_ofInt]
    exact starts_spelling (Spelling.isPlain_ofInt _)
  | @real x canonical =>
    rw [write]
    cases x with
    | nan => exact ⟨'N', _, rfl, by decide, by decide⟩
    | infinity negative =>
      cases negative with
      | true => exact ⟨'-', _, rfl, by decide, by decide⟩
      | false => exact ⟨'I', _, rfl, by decide, by decide⟩
    | finite negative m e =>
      obtain ⟨spelling, text, plain, -⟩ := exists_spelling canonical negative
      have written : encodeReal (.finite negative m e) = spelling.text := text
      rw [written]
      exact starts_spelling plain
  | text s => exact ⟨'"', _, rfl, by decide, by decide⟩
  | @list items all =>
    cases items with
    | nil => exact ⟨'[', _, rfl, by decide, by decide⟩
    | cons item others =>
      rw [write]
      exact ⟨'[', _, rfl, by decide, by decide⟩
  | @table fields once all =>
    cases fields with
    | nil => exact ⟨'\x7b', _, rfl, by decide, by decide⟩
    | cons field others =>
      rw [write]
      exact ⟨'\x7b', _, rfl, by decide, by decide⟩

/-! ### Values with parts -/

theorem endsNumber_cons {c : Char} (other : c.isDigit = false ∧ c ≠ '.' ∧ c ≠ 'e' ∧ c ≠ 'E')
    (rest : List Char) : EndsNumber (c :: rest) := by
  intro d first
  rwa [← Option.some.inj first]

theorem endsNumber_newLine (depth : Nat) (rest : List Char) :
    EndsNumber (newLine depth ++ rest) :=
  endsNumber_cons (by decide) _

theorem endsNumber_comma (rest : List Char) : EndsNumber (',' :: rest) :=
  endsNumber_cons (by decide) _

/-- A document whose text is read as itself at a depth, with enough fuel. -/
def ReadsBack (depth : Nat) (d : Document) : Prop :=
  Starts (write depth d) ∧
    ∀ (fuel : Nat) (rest : List Char), (write depth d).length < fuel → EndsNumber rest →
      readValue fuel (write depth d ++ rest) = some (d, rest)

section Items

variable {fuel : Nat} {cs after : List Char} {item : Document}

theorem readItems_last (read : readValue fuel cs = some (item, after))
    (closed : skipSpace after = ']' :: rest) : readItems (fuel + 1) cs = some ([item], rest) := by
  rw [readItems, read]
  dsimp only
  rw [closed]
  rfl

theorem readItems_more (read : readValue fuel cs = some (item, after))
    (comma : skipSpace after = ',' :: rest) {items : List Document} {last : List Char}
    (later : readItems fuel (skipSpace rest) = some (items, last)) :
    readItems (fuel + 1) cs = some (item :: items, last) := by
  rw [readItems, read]
  dsimp only
  rw [comma]
  exact congrArg (Option.map _) later

/-- Items are read up to the closing bracket. -/
theorem readItems_write {depth outer : Nat} {items : List Document}
    (all : ∀ d ∈ item :: items, ReadsBack depth d)
    (enough : (write depth item ++ writeItems depth items).length + 1 < fuel) :
    readItems fuel
        (write depth item ++ (writeItems depth items ++ (newLine outer ++ ']' :: rest))) =
      some (item :: items, rest) := by
  obtain ⟨fuel, rfl⟩ := Nat.exists_eq_succ_of_ne_zero (by omega : fuel ≠ 0)
  obtain ⟨-, reads⟩ := all item List.mem_cons_self
  induction items generalizing item fuel with
  | nil =>
    rw [writeItems, List.append_nil] at enough
    have read := reads fuel _ (by omega) (endsNumber_newLine outer (']' :: rest))
    exact readItems_last read ((skipSpace_newLine outer _).trans (skipSpace_of_head rfl _))
  | cons next items ih =>
    obtain ⟨starts, readsNext⟩ := all next (List.mem_cons_of_mem _ List.mem_cons_self)
    have blanks : 0 < (newLine depth).length := List.length_pos_of_ne_nil (List.cons_ne_nil _ _)
    simp only [writeItems, List.length_append, List.length_cons] at enough
    obtain ⟨fuel, rfl⟩ := Nat.exists_eq_succ_of_ne_zero (by omega : fuel ≠ 0)
    have later := ih (fun d member => all d (List.mem_cons_of_mem _ member)) fuel
      (by simp only [List.length_append]; omega) readsNext
    have read := reads (fuel + 1) _ (by omega) (endsNumber_comma (newLine depth ++
      (write depth next ++ (writeItems depth items ++ (newLine outer ++ ']' :: rest)))))
    simp only [writeItems, List.append_assoc, List.cons_append]
    refine readItems_more read (skipSpace_of_head rfl _) ?_
    rw [skipSpace_newLine, (starts.append _).skipSpace_eq]
    exact later

end Items

/-! ### Fields -/

section Fields

variable {fuel : Nat} {body afterKey afterColon after : List Char} {key : String}
  {value : Document}

theorem readFields_last (readKey : readText body = some (key, afterKey))
    (colon : skipSpace afterKey = ':' :: afterColon)
    (read : readValue fuel (skipSpace afterColon) = some (value, after))
    (closed : skipSpace after = '\x7d' :: rest) :
    readFields (fuel + 1) ('"' :: body) = some ([(key, value)], rest) := by
  simp only [readFields, readKey, colon, read, closed]

theorem readFields_more (readKey : readText body = some (key, afterKey))
    (colon : skipSpace afterKey = ':' :: afterColon)
    (read : readValue fuel (skipSpace afterColon) = some (value, after))
    (comma : skipSpace after = ',' :: rest) {fields : List (String × Document)}
    {last : List Char} (later : readFields fuel (skipSpace rest) = some (fields, last)) :
    readFields (fuel + 1) ('"' :: body) = some ((key, value) :: fields, last) := by
  simp only [readFields, readKey, colon, read, comma, later, Option.map_some]

/-- The text of a field. -/
def fieldText (depth : Nat) (key : String) (value : Document) : List Char :=
  encodeText key ++ ([':', ' '] ++ write depth value)

/-- A field starts with its quoted key, which a colon and a blank follow. -/
theorem exists_key {depth : Nat} (reads : ReadsBack depth value) (key : String)
    (after : List Char) :
    ∃ body, fieldText depth key value ++ after = '"' :: body ∧
      readText body = some (key, ':' :: ' ' :: (write depth value ++ after)) ∧
      skipSpace (' ' :: (write depth value ++ after)) = write depth value ++ after := by
  obtain ⟨body, written, readKey⟩ :=
    readText_encodeText key (':' :: ' ' :: (write depth value ++ after))
  refine ⟨body, ?_, readKey, (reads.1.append after).skipSpace_eq⟩
  rw [← written, fieldText]
  simp only [List.append_assoc, List.cons_append, List.nil_append]

/-- Fields are read up to the closing brace. -/
theorem readFields_write {depth outer : Nat} {fields : List (String × Document)}
    (all : ∀ field ∈ (key, value) :: fields, ReadsBack depth field.2)
    (enough : (fieldText depth key value ++ writeFields depth fields).length + 1 < fuel) :
    readFields fuel (fieldText depth key value ++
        (writeFields depth fields ++ (newLine outer ++ '\x7d' :: rest))) =
      some ((key, value) :: fields, rest) := by
  obtain ⟨fuel, rfl⟩ := Nat.exists_eq_succ_of_ne_zero (by omega : fuel ≠ 0)
  have reads : ReadsBack depth value := all (key, value) List.mem_cons_self
  induction fields generalizing key value fuel with
  | nil =>
    simp only [writeFields, fieldText, List.append_nil, List.length_append, List.length_cons]
      at enough
    obtain ⟨body, text, readKey, blank⟩ := exists_key reads key (newLine outer ++ '\x7d' :: rest)
    have read := reads.2 fuel _ (by omega) (endsNumber_newLine outer ('\x7d' :: rest))
    rw [writeFields, List.nil_append, text]
    rw [← blank] at read
    exact readFields_last readKey (skipSpace_of_head rfl _) read
      ((skipSpace_newLine outer _).trans (skipSpace_of_head rfl _))
  | cons next fields ih =>
    obtain ⟨nextKey, nextValue⟩ := next
    have readsNext : ReadsBack depth nextValue :=
      all (nextKey, nextValue) (List.mem_cons_of_mem _ List.mem_cons_self)
    have blanks : 0 < (newLine depth).length := List.length_pos_of_ne_nil (List.cons_ne_nil _ _)
    simp only [writeFields, fieldText, List.length_append, List.length_cons] at enough
    obtain ⟨fuel, rfl⟩ := Nat.exists_eq_succ_of_ne_zero (by omega : fuel ≠ 0)
    have later := ih (fun field member => all field (List.mem_cons_of_mem _ member)) fuel
      (by simp only [fieldText, List.length_append, List.length_cons]; omega) readsNext
    have rewritten : writeFields depth ((nextKey, nextValue) :: fields) ++
        (newLine outer ++ '\x7d' :: rest) = ',' :: (newLine depth ++
          (fieldText depth nextKey nextValue ++
            (writeFields depth fields ++ (newLine outer ++ '\x7d' :: rest)))) := by
      simp only [writeFields, fieldText, List.append_assoc, List.cons_append, List.nil_append]
    have solid : skipSpace (fieldText depth nextKey nextValue ++
        (writeFields depth fields ++ (newLine outer ++ '\x7d' :: rest))) =
          fieldText depth nextKey nextValue ++
            (writeFields depth fields ++ (newLine outer ++ '\x7d' :: rest)) := by
      obtain ⟨body, text, -⟩ := exists_key readsNext nextKey
        (writeFields depth fields ++ (newLine outer ++ '\x7d' :: rest))
      rw [text, skipSpace_of_head rfl]
    rw [rewritten]
    generalize fieldText depth nextKey nextValue ++
      (writeFields depth fields ++ (newLine outer ++ '\x7d' :: rest)) = tail at later solid ⊢
    obtain ⟨body, text, readKey, blank⟩ := exists_key reads key (',' :: (newLine depth ++ tail))
    have read := reads.2 (fuel + 1) _ (by omega) (endsNumber_comma (newLine depth ++ tail))
    rw [← blank] at read
    rw [text]
    refine readFields_more readKey (skipSpace_of_head rfl _) read (skipSpace_of_head rfl _) ?_
    rw [skipSpace_newLine, solid]
    exact later

end Fields

/-! ### Documents -/

theorem readValue_list {fuel : Nat} {body solid : List Char} {items : List Document}
    (skipped : skipSpace body = solid) (starts : Starts solid)
    (read : readItems fuel solid = some (items, rest)) :
    readValue (fuel + 1) ('[' :: body) = some (.list items, rest) := by
  obtain ⟨c, cs, rfl, -, other⟩ := starts
  rw [readValue, skipped]
  split
  · rename_i same
    exact absurd (List.cons.inj same).1 other
  · rw [read]
    rfl

theorem readValue_table {fuel : Nat} {body solid : List Char} {fields : List (String × Document)}
    (skipped : skipSpace body = '"' :: solid)
    (read : readFields fuel ('"' :: solid) = some (fields, rest)) :
    readValue (fuel + 1) ('\x7b' :: body) = some (.table (Table.ofList fields), rest) := by
  rw [readValue, skipped]
  split
  · rename_i same
    exact absurd (List.cons.inj same).1 (by decide)
  · rw [read]
    rfl

theorem length_newLine_pos (depth : Nat) : 0 < (newLine depth).length :=
  List.length_pos_of_ne_nil (List.cons_ne_nil _ _)

theorem readsBack_list {depth : Nat} {items : List Document}
    (starts : Starts (write depth (.list items)))
    (all : ∀ item ∈ items, ReadsBack (depth + 1) item) : ReadsBack depth (.list items) := by
  refine ⟨starts, fun fuel rest enough _ => ?_⟩
  obtain ⟨fuel, rfl⟩ := Nat.exists_eq_succ_of_ne_zero (by omega : fuel ≠ 0)
  cases items with
  | nil => rfl
  | cons item others =>
    have first := (all item List.mem_cons_self).1
    have outer := length_newLine_pos depth
    have inner := length_newLine_pos (depth + 1)
    simp only [write, List.length_append, List.length_cons, List.length_nil] at enough
    have read : readItems fuel (write (depth + 1) item ++
        (writeItems (depth + 1) others ++ (newLine depth ++ ']' :: rest))) =
          some (item :: others, rest) := by
      refine readItems_write all ?_
      simp only [List.length_append]
      omega
    simp only [write, List.append_assoc, List.cons_append, List.nil_append]
    exact readValue_list (skipSpace_newLine _ _ |>.trans (first.append _).skipSpace_eq)
      (first.append _) read

theorem readsBack_table {depth : Nat} {fields : List (String × Document)}
    (starts : Starts (write depth (.table fields))) (once : (Table.keys fields).Nodup)
    (all : ∀ field ∈ fields, ReadsBack (depth + 1) field.2) : ReadsBack depth (.table fields) := by
  refine ⟨starts, fun fuel rest enough _ => ?_⟩
  obtain ⟨fuel, rfl⟩ := Nat.exists_eq_succ_of_ne_zero (by omega : fuel ≠ 0)
  cases fields with
  | nil => rfl
  | cons field others =>
    obtain ⟨key, value⟩ := field
    have first : ReadsBack (depth + 1) value := all (key, value) List.mem_cons_self
    have outer := length_newLine_pos depth
    have inner := length_newLine_pos (depth + 1)
    simp only [write, List.length_append, List.length_cons, List.length_nil] at enough
    have read : readFields fuel (fieldText (depth + 1) key value ++
        (writeFields (depth + 1) others ++ (newLine depth ++ '\x7d' :: rest))) =
          some ((key, value) :: others, rest) := by
      refine readFields_write all ?_
      simp only [fieldText, List.length_append, List.length_cons, List.length_nil]
      omega
    have text : write depth (.table ((key, value) :: others)) ++ rest = '\x7b' ::
        (newLine (depth + 1) ++ (fieldText (depth + 1) key value ++
          (writeFields (depth + 1) others ++ (newLine depth ++ '\x7d' :: rest)))) := by
      simp only [write, fieldText, List.append_assoc, List.cons_append, List.nil_append]
    obtain ⟨body, quoted, -⟩ := exists_key first key
      (writeFields (depth + 1) others ++ (newLine depth ++ '\x7d' :: rest))
    rw [quoted] at read
    have whole := readValue_table
      ((skipSpace_newLine (depth + 1) _).trans (skipSpace_of_head rfl body)) read
    rw [text, quoted, whole, Table.ofList_of_nodup once]

/-- A document that can be spelled is read as itself. -/
theorem readsBack {d : Document} (spellable : Spellable d) (depth : Nat) : ReadsBack depth d := by
  induction spellable generalizing depth with
  | null =>
    refine ⟨starts_write .null depth, fun fuel rest enough _ => ?_⟩
    obtain ⟨fuel, rfl⟩ := Nat.exists_eq_succ_of_ne_zero (by omega : fuel ≠ 0)
    rfl
  | bool b =>
    refine ⟨starts_write (.bool b) depth, fun fuel rest enough _ => ?_⟩
    obtain ⟨fuel, rfl⟩ := Nat.exists_eq_succ_of_ne_zero (by omega : fuel ≠ 0)
    cases b with
    | true => rfl
    | false => rfl
  | int writable =>
    refine ⟨starts_write (.int writable) depth, fun fuel rest enough ends => ?_⟩
    obtain ⟨fuel, rfl⟩ := Nat.exists_eq_succ_of_ne_zero (by omega : fuel ≠ 0)
    exact readValue_int writable ends fuel
  | real canonical =>
    refine ⟨starts_write (.real canonical) depth, fun fuel rest enough ends => ?_⟩
    obtain ⟨fuel, rfl⟩ := Nat.exists_eq_succ_of_ne_zero (by omega : fuel ≠ 0)
    exact readValue_real canonical ends fuel
  | text s =>
    refine ⟨starts_write (.text s) depth, fun fuel rest enough _ => ?_⟩
    obtain ⟨fuel, rfl⟩ := Nat.exists_eq_succ_of_ne_zero (by omega : fuel ≠ 0)
    exact readValue_text s fuel rest
  | list all ih =>
    exact readsBack_list (starts_write (.list all) depth) fun item member => ih item member _
  | table once all ih =>
    exact readsBack_table (starts_write (.table once all) depth) once
      fun field member => ih field member _

theorem parse?_write {d : Document} (spellable : Spellable d) :
    parse? (String.ofList (write 0 d)) = some d := by
  obtain ⟨starts, reads⟩ := readsBack spellable 0
  have read := reads ((write 0 d).length + 1) [] (Nat.lt_succ_self _) nofun
  rw [List.append_nil] at read
  rw [parse?, String.toList_ofList, String.length_ofList, starts.skipSpace_eq, read]
  rfl

/-- The text of a document is read as the document with its fields in ascending order. -/
theorem parse?_render {d : Document} (spellable : Spellable (sortFields d)) :
    parse? (render d) = some (sortFields d) :=
  parse?_write spellable

end Json
end Switchboard
