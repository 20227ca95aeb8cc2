/-!
Cutting a text at a separator: at every occurrence, or at the first one only.
-/
namespace Switchboard.Text

/-- The stretches between the occurrences of `separator`; never empty, since a text without the
separator is one stretch. -/
def stretches (separator : Char) : List Char → List (List Char)
  | [] => [[]]
  | c :: rest =>
    if c = separator then [] :: stretches separator rest
    else
      match stretches separator rest with
      | [] => [[c]]
      | first :: others => (c :: first) :: others

/-- The parts of a text between the occurrences of `separator`. -/
def segments (separator : Char) (s : String) : List String :=
  (stretches separator s.toList).map String.ofList

theorem stretches_ne_nil (separator : Char) (cs : List Char) : stretches separator cs ≠ [] := by
  cases cs with
  | nil => simp [stretches]
  | cons c rest =>
    unfold stretches
    split
    · simp
    · split <;> simp

theorem stretches_of_notMem {separator : Char} {cs : List Char} (absent : separator ∉ cs) :
    stretches separator cs = [cs] := by
  induction cs with
  | nil => rfl
  | cons c rest ih =>
    obtain ⟨other, later⟩ := not_or.mp (mt List.mem_cons.mpr absent)
    simp [stretches, Ne.symm other, ih later]

theorem stretches_append (separator : Char) (before rest : List Char) :
    stretches separator (before ++ separator :: rest) =
      stretches separator before ++ stretches separator rest := by
  induction before with
  | nil => simp [stretches]
  | cons c before ih =>
    by_cases here : c = separator
    · simp [stretches, here, ih]
    · obtain ⟨first, others, same⟩ :=
        List.exists_cons_of_ne_nil (stretches_ne_nil separator before)
      simp [stretches, here, ih, same]

theorem exists_segments (separator : Char) (s : String) :
    ∃ first rest, segments separator s = first :: rest := by
  obtain ⟨first, rest, same⟩ := List.exists_cons_of_ne_nil (stretches_ne_nil separator s.toList)
  exact ⟨String.ofList first, rest.map String.ofList, by simp [segments, same]⟩

/-- Texts that are joined by a separator which none of them has can be told apart again. -/
theorem segments_intercalate {separator : Char} {parts : List String} (nonempty : parts ≠ [])
    (absent : ∀ part ∈ parts, separator ∉ part.toList) :
    segments separator ((String.singleton separator).intercalate parts) = parts := by
  induction parts with
  | nil => exact absurd rfl nonempty
  | cons part rest ih =>
    have here := absent part List.mem_cons_self
    cases rest with
    | nil => simp [segments, stretches_of_notMem here]
    | cons next others =>
      have later := ih (List.cons_ne_nil _ _) fun part member =>
        absent part (List.mem_cons_of_mem _ member)
      simp only [segments, String.intercalate_cons_cons, String.toList_append,
        String.toList_singleton] at later ⊢
      rw [List.append_assoc, List.singleton_append, stretches_append, stretches_of_notMem here,
        List.singleton_append, List.map_cons, later, String.ofList_toList]

theorem segments_append (separator : Char) (before after : String) :
    segments separator (before ++ String.singleton separator ++ after) =
      segments separator before ++ segments separator after := by
  simp [segments, stretches_append]

/-- What stands before the first `separator` and, if there is one, what stands after it. -/
def cut (separator : Char) : List Char → List Char × Option (List Char)
  | [] => ([], none)
  | c :: rest =>
    if c = separator then ([], some rest)
    else
      let (before, after) := cut separator rest
      (c :: before, after)

/-- `cut` on texts. -/
def cutText (separator : Char) (s : String) : String × Option String :=
  let (before, after) := cut separator s.toList
  (String.ofList before, after.map String.ofList)

theorem cut_of_not_mem {separator : Char} {cs : List Char} (absent : separator ∉ cs) :
    cut separator cs = (cs, none) := by
  induction cs with
  | nil => rfl
  | cons c cs ih =>
    simp only [List.mem_cons, not_or] at absent
    rw [cut, if_neg (Ne.symm absent.1), ih absent.2]

theorem cut_append {separator : Char} {cs : List Char} (absent : separator ∉ cs)
    (after : List Char) : cut separator (cs ++ separator :: after) = (cs, some after) := by
  induction cs with
  | nil => simp [cut]
  | cons c cs ih =>
    simp only [List.mem_cons, not_or] at absent
    rw [List.cons_append, cut, if_neg (Ne.symm absent.1), ih absent.2]

theorem cutText_append {separator : Char} {before : String} (absent : separator ∉ before.toList)
    (after : String) :
    cutText separator (before ++ String.singleton separator ++ after) = (before, some after) := by
  simp [cutText, cut_append absent]

/-- The lines of a text, each without its line feed; a text that ends in a line feed has no further
empty line after it. -/
def lines (s : String) : List String :=
  match (segments '\n' s).reverse with
  | "" :: before => before.reverse
  | parts => parts.reverse

/-- A text without a last line that is not ended by a line feed. -/
def EndsLine (s : String) : Prop :=
  ∀ c ∈ s.toList.getLast?, c = '\n'

theorem lines_of_segments {s rest : String} {before : List String}
    (same : segments '\n' s = before ++ segments '\n' rest) : lines s = before ++ lines rest := by
  obtain ⟨first, others, parts⟩ := exists_segments '\n' rest
  have some : (segments '\n' rest).reverse ≠ [] := by
    rw [parts]
    exact List.reverse_ne_nil_iff.mpr (List.cons_ne_nil first others)
  obtain ⟨last, earlier, split⟩ := List.exists_cons_of_ne_nil some
  unfold lines
  rw [same, List.reverse_append, split, List.cons_append]
  by_cases blank : last = ""
  · simp [blank]
  · simp [blank]

/-- The lines of a text in which all lines are ended, and of what follows it. -/
theorem lines_append {s : String} (ends : EndsLine s) (rest : String) :
    lines (s ++ rest) = lines s ++ lines rest := by
  rcases List.eq_nil_or_concat s.toList with none | ⟨before, c, same⟩
  · have empty : s = "" := String.toList_injective none
    rw [empty, String.empty_append]
    rfl
  · rw [List.concat_eq_append] at same
    have feed : c = '\n' := ends c (by rw [same, List.getLast?_concat]; rfl)
    have parts (rest : String) : segments '\n' (s ++ rest) =
        (stretches '\n' before).map String.ofList ++ segments '\n' rest := by
      rw [segments, String.toList_append, same, feed, List.append_assoc, List.singleton_append,
        stretches_append, List.map_append]
      rfl
    have alone := lines_of_segments (parts "")
    rw [String.append_empty] at alone
    have none : lines "" = [] := rfl
    rw [lines_of_segments (parts rest), alone, none, List.append_nil]

/-- Carriage returns, alone or before a line feed, read as line feeds. -/
def unifyNewlines : List Char → List Char
  | [] => []
  | '\r' :: '\n' :: rest => '\n' :: unifyNewlines rest
  | '\r' :: rest => '\n' :: unifyNewlines rest
  | c :: rest => c :: unifyNewlines rest

/-- Without its last character, if that is a line feed. -/
def dropFinalNewline (cs : List Char) : List Char :=
  if cs.getLast? = some '\n' then cs.dropLast else cs

theorem dropFinalNewline_append (cs : List Char) : dropFinalNewline (cs ++ ['\n']) = cs := by
  simp [dropFinalNewline]

/-- A final line feed is dropped, and nothing else is. -/
theorem dropFinalNewline_cases (cs : List Char) :
    dropFinalNewline cs = cs ∨ cs = dropFinalNewline cs ++ ['\n'] := by
  by_cases feed : cs.getLast? = some '\n'
  · right
    obtain ⟨before, rfl⟩ := List.getLast?_eq_some_iff.mp feed
    rw [dropFinalNewline_append]
  · left
    exact if_neg feed

end Switchboard.Text
