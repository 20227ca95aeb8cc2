/-!
Shell patterns over a whole name: `*` stands for any characters, `?` for one, `[...]` for one of a
set and `[!...]` for one outside of it.

A hyphen inside brackets makes a range of the characters around it, unless it is the first or the
last character of the set or directly follows a range. A range that runs backwards holds nothing and
vanishes together with its two ends. A bracket that is never closed stands for itself.
-/
namespace Switchboard.Text.Glob

/-- What one part of a pattern stands for. -/
inductive Part where
  /-- Any characters, also none. -/
  | anything
  /-- Any one character. -/
  | anyChar
  /-- This character. -/
  | char (c : Char)
  /-- One character of the ranges, or of their complement. -/
  | set (negated : Bool) (ranges : List (Char × Char))
deriving DecidableEq, Repr

/-- Cuts the text of a bracket at the hyphens that make ranges. `skip` characters cannot be such a
hyphen, and `chunk` is what was read since the last one. -/
def cutRanges : Nat → List Char → List Char → List (List Char)
  | _, chunk, [] => [chunk]
  | 0, chunk, '-' :: rest => chunk :: cutRanges 2 [] rest
  | skip, chunk, c :: rest => cutRanges (skip - 1) (chunk ++ [c]) rest

/-- A hyphen that closes the bracket stands for itself. -/
def closeHyphen : List (List Char) → List (List Char)
  | [] => []
  | [chunk, []] => [chunk ++ ['-']]
  | chunk :: others => chunk :: closeHyphen others

/-- Drops the ranges that run backwards, from the last to the first. -/
def dropEmptyRanges : List (List Char) → List (List Char)
  | [] => []
  | chunk :: others =>
    match dropEmptyRanges others with
    | [] => [chunk]
    | next :: later =>
      match chunk.getLast?, next with
      | some low, high :: after =>
        if high < low then (chunk.dropLast ++ after) :: later else chunk :: next :: later
      | _, _ => chunk :: next :: later

/-- The ranges of a bracket: one for each pair of neighbouring chunks and one for each character. -/
def rangesOf : List (List Char) → List (Char × Char)
  | [] => []
  | [chunk] => chunk.map fun c => (c, c)
  | chunk :: next :: later =>
    chunk.map (fun c => (c, c)) ++
      (match chunk.getLast?, next.head? with
        | some low, some high => [(low, high)]
        | _, _ => [('-', '-')]) ++
      rangesOf (next :: later)

/-- The chunks of a bracket's text: one chunk if it has no hyphen that makes a range. -/
def chunksOf (body : List Char) : List (List Char) :=
  if '-' ∈ body then
    dropEmptyRanges (closeHyphen (cutRanges (if body.head? = some '!' then 2 else 1) [] body))
  else [body]

/-- What the text between two brackets stands for. -/
def setOf (body : List Char) : Part :=
  match chunksOf body with
  | ['!'] :: [] => .anyChar
  | ('!' :: chunk) :: others => .set true (rangesOf (chunk :: others))
  | chunks => .set false (rangesOf chunks)

/-- What stands before the first closing bracket and what follows it. -/
def closing? : List Char → Option (List Char × List Char)
  | [] => none
  | ']' :: rest => some ([], rest)
  | c :: rest => (closing? rest).map fun (body, after) => (c :: body, after)

/-- The text of a bracket and what follows its end. The first character, after a leading `!`,
belongs to the text even if it is a closing bracket. -/
def bracket? : List Char → Option (List Char × List Char)
  | '!' :: ']' :: rest => (closing? rest).map fun (body, after) => ('!' :: ']' :: body, after)
  | ']' :: rest => (closing? rest).map fun (body, after) => (']' :: body, after)
  | cs => closing? cs

theorem closing?_length {cs body after : List Char} (found : closing? cs = some (body, after)) :
    after.length < cs.length := by
  induction cs generalizing body with
  | nil => simp [closing?] at found
  | cons c rest ih =>
    by_cases closes : c = ']'
    · subst closes
      simp only [closing?, Option.some.injEq, Prod.mk.injEq] at found
      simp [← found.2]
    · obtain ⟨⟨inner, tail⟩, foundInner, same⟩ := Option.map_eq_some_iff.1
        (show (closing? rest).map (fun (b, r) => (c :: b, r)) = some (body, after) by
          simpa [closing?, closes] using found)
      simp only [Prod.mk.injEq] at same
      have := ih (same.2 ▸ foundInner)
      simp only [List.length_cons]
      omega

theorem bracket?_length {cs body after : List Char} (found : bracket? cs = some (body, after)) :
    after.length < cs.length := by
  unfold bracket? at found
  split at found
  · obtain ⟨⟨inner, tail⟩, foundInner, same⟩ := Option.map_eq_some_iff.1 found
    have := closing?_length foundInner
    grind
  · obtain ⟨⟨inner, tail⟩, foundInner, same⟩ := Option.map_eq_some_iff.1 found
    have := closing?_length foundInner
    grind
  · exact closing?_length found

def parse (pattern : List Char) : List Part :=
  match pattern with
  | [] => []
  | '*' :: rest => .anything :: parse rest
  | '?' :: rest => .anyChar :: parse rest
  | '[' :: rest =>
    match _ : bracket? rest with
    | none => .char '[' :: parse rest
    | some (body, after) => setOf body :: parse after
  | c :: rest => .char c :: parse rest
termination_by pattern.length
decreasing_by
  all_goals simp_wf
  have := bracket?_length ‹_›
  omega

/-- Whether one character is what a part, other than `anything`, stands for. -/
def Part.holds (part : Part) (c : Char) : Bool :=
  match part with
  | .anything => false
  | .anyChar => true
  | .char d => c == d
  | .set negated ranges => (ranges.any fun (low, high) => low ≤ c && c ≤ high) != negated

/-- Which ends of a name stand for a part followed by others, longest end first, from which of them
stand for the others alone. -/
def endsWith (part : Part) : List Char → List Bool → List Bool
  | c :: cs, here :: later =>
    let ends := endsWith part cs later
    let fits := match part with
      | .anything => here || ends.headD false
      | part => part.holds c && later.headD false
    fits :: ends
  | _, row =>
    match part with
    | .anything => row
    | _ => row.map fun _ => false

/-- Which ends of a name the parts stand for, longest end first. Each part is tried once at each
character. -/
def fittingEnds (parts : List Part) (cs : List Char) : List Bool :=
  parts.foldr (fun part row => endsWith part cs row) (cs.map (fun _ => false) ++ [true])

/-- Whether the parts stand for the whole of a name. -/
def fits (parts : List Part) (cs : List Char) : Bool :=
  (fittingEnds parts cs).headD false

end Switchboard.Text.Glob

namespace Switchboard.Text

/-- Whether a name is one of those that a pattern stands for; letter case counts. -/
def globMatches (pattern name : String) : Bool :=
  Glob.fits (Glob.parse pattern.toList) name.toList

end Switchboard.Text
