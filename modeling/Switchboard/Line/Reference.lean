import Switchboard.Data.Table

/-!
References to the caller's variables inside a line: `$NAME` and `${NAME}`.
-/
namespace Switchboard.Line

def isNameStart (c : Char) : Bool :=
  c.isAlpha || c == '_'

/-- The characters that a variable name goes on with. -/
def isNameChar (c : Char) : Bool :=
  c.isAlphanum || c == '_'

def isVariableName : List Char → Bool
  | [] => false
  | c :: rest => isNameStart c && rest.all isNameChar

/-- The variable name that starts a text, and what follows it. -/
def readName? : List Char → Option (String × List Char)
  | [] => none
  | c :: rest =>
    if isNameStart c then
      some (String.ofList (c :: rest.takeWhile isNameChar), rest.dropWhile isNameChar)
    else none

/-- The name that a dollar sign in front of the text refers to, and what follows the reference.
Braces must hold exactly a name. -/
def reference? : List Char → Option (String × List Char)
  | '{' :: rest =>
    match readName? rest with
    | some (name, '}' :: after) => some (name, after)
    | _ => none
  | cs => readName? cs

theorem readName?_length {cs after : List Char} {name : String}
    (found : readName? cs = some (name, after)) : after.length < cs.length := by
  cases cs with
  | nil => cases found
  | cons c rest =>
    by_cases starts : isNameStart c = true
    · simp only [readName?, starts, if_true, Option.some.injEq, Prod.mk.injEq] at found
      have := (List.dropWhile_suffix (p := isNameChar) (l := rest)).length_le
      simp only [← found.2, List.length_cons]
      omega
    · simp only [readName?, starts] at found
      cases found

theorem reference?_length {cs after : List Char} {name : String}
    (found : reference? cs = some (name, after)) : after.length < cs.length := by
  unfold reference? at found
  split at found
  · split at found
    · rename_i inner
      have := readName?_length inner
      obtain ⟨-, rfl⟩ := Prod.mk.inj (Option.some.inj found)
      simp only [List.length_cons] at this ⊢
      omega
    · simp at found
  · exact readName?_length found

end Switchboard.Line
