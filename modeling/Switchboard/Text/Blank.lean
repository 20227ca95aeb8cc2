/-!
Blank characters: what separates the words of a line and what is trimmed from the ends of a text.
-/
namespace Switchboard.Text

/-- The white space of every script. Around a whole number nothing else is passed over. -/
def isWhiteSpace (c : Char) : Bool :=
  let n := c.toNat
  (0x09 ≤ n && n ≤ 0x0D) || n == 0x20 || n == 0x85 || n == 0xA0 || n == 0x1680 ||
    (0x2000 ≤ n && n ≤ 0x200A) || n == 0x2028 || n == 0x2029 || n == 0x202F || n == 0x205F ||
    n == 0x3000

/-- The four information separators: file, group, record and unit. -/
def isSeparator (c : Char) : Bool :=
  0x1C ≤ c.toNat && c.toNat ≤ 0x1F

/-- The characters that separate words. -/
def isBlank (c : Char) : Bool :=
  isWhiteSpace c || isSeparator c

def trimLeft (cs : List Char) : List Char :=
  cs.dropWhile isBlank

/-- What is left before the trailing blanks. -/
def trimRight (cs : List Char) : List Char :=
  (cs.reverse.dropWhile isBlank).reverse

/-- The characters between the leading and the trailing blanks. -/
def trim (cs : List Char) : List Char :=
  trimRight (trimLeft cs)

/-- The characters between the leading and the trailing white space. -/
def trimWhiteSpace (cs : List Char) : List Char :=
  ((cs.dropWhile isWhiteSpace).reverse.dropWhile isWhiteSpace).reverse

/-- A text without the blanks at its two ends. -/
def strip (s : String) : String :=
  String.ofList (trim s.toList)

def stripLeft (s : String) : String :=
  String.ofList (trimLeft s.toList)

/-- The first run of characters that are not blank; empty for a text of blanks. -/
def firstWord (s : String) : String :=
  String.ofList ((trimLeft s.toList).takeWhile (! isBlank ·))

section Laws

variable {cs : List Char} {p : Char → Bool}

theorem takeWhile_of_head? (other : ∀ c ∈ cs.head?, p c = false) : cs.takeWhile p = [] := by
  cases cs with
  | nil => rfl
  | cons c rest => simp [other c rfl]

theorem dropWhile_of_head? (other : ∀ c ∈ cs.head?, p c = false) : cs.dropWhile p = cs := by
  cases cs with
  | nil => rfl
  | cons c rest => simp [other c rfl]

/-- Nothing is trimmed where neither end is white space. -/
theorem trimWhiteSpace_eq_self (first : ∀ c ∈ cs.head?, isWhiteSpace c = false)
    (last : ∀ c ∈ cs.getLast?, isWhiteSpace c = false) : trimWhiteSpace cs = cs := by
  have reversed : cs.reverse.dropWhile isWhiteSpace = cs.reverse := by
    apply dropWhile_of_head?
    rwa [List.head?_reverse]
  rw [trimWhiteSpace, dropWhile_of_head? first, reversed, List.reverse_reverse]

theorem head?_dropWhile_isBlank (cs : List Char) :
    ∀ c ∈ (cs.dropWhile isBlank).head?, isWhiteSpace c = false := by
  intro c first
  have unblank := List.head?_dropWhile_not isBlank cs
  rw [Option.mem_def.mp first] at unblank
  simp [isBlank] at unblank
  exact unblank.1

/-- What is left between blanks has no white space at its ends. -/
theorem trimWhiteSpace_trim (cs : List Char) : trimWhiteSpace (trim cs) = trim cs := by
  apply trimWhiteSpace_eq_self
  · obtain ⟨blanks, parts⟩ : trim cs <+: trimLeft cs := by
      rw [← List.reverse_suffix, trim, trimRight, List.reverse_reverse]
      exact List.dropWhile_suffix _
    intro c here
    apply head?_dropWhile_isBlank cs
    rw [← trimLeft, ← parts, List.head?_append, Option.mem_def.mp here]
    rfl
  · rw [trim, trimRight, List.getLast?_reverse]
    exact head?_dropWhile_isBlank _

/-- Blanks behind a text without blanks are trimmed, and nothing else is. -/
theorem trim_append {blanks : List Char} (solid : ∀ c ∈ cs, isBlank c = false)
    (behind : ∀ c ∈ blanks, isBlank c = true) : trim (cs ++ blanks) = cs := by
  have right : trimRight (cs ++ blanks) = cs := by
    have dropped : (blanks.reverse ++ cs.reverse).dropWhile isBlank =
        cs.reverse.dropWhile isBlank := by
      apply List.dropWhile_append_of_pos
      simpa using behind
    have kept : cs.reverse.dropWhile isBlank = cs.reverse := by
      apply dropWhile_of_head?
      intro c first
      exact solid c (List.mem_reverse.mp (List.mem_of_mem_head? first))
    rw [trimRight, List.reverse_append, dropped, kept, List.reverse_reverse]
  cases cs with
  | nil =>
    have nothing : (blanks ++ []).dropWhile isBlank = [] := List.dropWhile_append_of_pos behind
    rw [List.append_nil] at nothing
    simp [trim, trimLeft, trimRight, nothing]
  | cons c cs =>
    have left : trimLeft (c :: cs ++ blanks) = c :: cs ++ blanks := by
      apply dropWhile_of_head?
      intro d first
      rw [← Option.some.inj first]
      exact solid c List.mem_cons_self
    rw [trim, left, right]

end Laws

end Switchboard.Text
