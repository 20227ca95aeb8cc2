import Switchboard.Line.Option

/-!
Options that are written with two dashes. In front of the token that ends the options each is read
back as the binding that it was written for, whatever option follows it.
-/
namespace Switchboard.Line

/-- A binding that can be written as an option of its own. -/
inductive WrittenOption where
  | text (name value : String) (unsigned : '=' ∉ name.toList)
  /-- A name that `no-` begins would be read as the negation of what comes after it. -/
  | on (name : String) (named : name ≠ "") (unsigned : '=' ∉ name.toList)
    (positive : ∀ negated, name = "no-" ++ negated → negated = "")
  | off (name : String) (named : name ≠ "") (unsigned : '=' ∉ name.toList)

namespace WrittenOption

def token : WrittenOption → String
  | text name value _ => "--" ++ name ++ "=" ++ value
  | on name .. => "--" ++ name
  | off name .. => "--no-" ++ name

def binding : WrittenOption → String × OptionValue
  | text name value _ => (name, .text value)
  | on name .. => (name, .flag true)
  | off name .. => (name, .flag false)

end WrittenOption

theorem isOption_of_dashes {token : String} {cs : List Char}
    (dashes : token.toList = '-' :: '-' :: cs) : isOption token = true := by
  have kept : ∃ rest, Text.dropFinalNewline ('-' :: '-' :: cs) = '-' :: '-' :: rest := by
    unfold Text.dropFinalNewline
    cases cs with
    | nil => exact ⟨[], rfl⟩
    | cons c cs =>
      split
      · exact ⟨(c :: cs).dropLast, rfl⟩
      · exact ⟨c :: cs, rfl⟩
  obtain ⟨rest, kept⟩ := kept
  -- No numeral has a second minus sign.
  have noNumber : Numeral.unsigned? ('-' :: rest) = none := rfl
  simp [isOption, dashes, isNegativeNumber, kept, noNumber]

/-- What an option says that takes no value from the token after it. -/
def OptionToken.said : OptionToken → List (String × OptionValue)
  | .bound name value => [(name, value)]
  | .flags names last => (names ++ [last]).map fun name => (name, .flag true)

theorem readArguments_option {token next : String} (rest : List String)
    (goesOn : token ≠ "--") (option : isOption token = true) (followed : isOption next = true) :
    readArguments (token :: next :: rest) =
      ((readArguments (next :: rest)).1,
        (optionToken token).said ++ (readArguments (next :: rest)).2) := by
  rw [readArguments, if_neg goesOn, if_pos option]
  cases optionToken token with
  | bound name value => rfl
  | flags names last =>
    simp only [followed, if_true, OptionToken.said, List.map_append, List.map_cons, List.map_nil,
      List.append_assoc, List.cons_append, List.nil_append]

namespace WrittenOption

/-- What stands behind the dashes. -/
def body : WrittenOption → List Char
  | text name value _ => name.toList ++ '=' :: value.toList
  | on name .. => name.toList
  | off name .. => 'n' :: 'o' :: '-' :: name.toList

theorem toList_token (option : WrittenOption) :
    option.token.toList = '-' :: '-' :: option.body := by
  cases option <;> simp [token, body]

theorem body_ne_nil (option : WrittenOption) : option.body ≠ [] := by
  cases option with
  | text name value unsigned => simp [body]
  | on name named unsigned positive => simpa [body] using named
  | off name named unsigned => simp [body]

theorem token_ne_dashes (option : WrittenOption) : option.token ≠ "--" := by
  intro same
  have spelled := option.toList_token
  rw [same] at spelled
  exact option.body_ne_nil (List.cons.inj (List.cons.inj spelled).2).2.symm

theorem said_longOption (option : WrittenOption) :
    (longOption option.body).said = [option.binding] := by
  cases option with
  | text name value unsigned =>
    simp only [longOption, body, Text.cut_append unsigned, String.ofList_toList]
    rfl
  | on name named unsigned positive =>
    simp only [longOption, body, Text.cut_of_not_mem unsigned]
    split
    · rename_i valued
      cases (Prod.mk.inj valued).2
    · rename_i c rest negated
      have spelled : name = "no-" ++ String.ofList (c :: rest) := by
        rw [← String.toList_inj, (Prod.mk.inj negated).1]
        simp
      have nothing := positive _ spelled
      simp at nothing
    · rename_i other whole
      rw [← (Prod.mk.inj whole).1, String.ofList_toList]
      rfl
  | off name named unsigned =>
    have filled : name.toList ≠ [] := fun empty => named (String.toList_eq_nil_iff.mp empty)
    obtain ⟨c, rest, spelled⟩ := List.exists_cons_of_ne_nil filled
    have absent : '=' ∉ 'n' :: 'o' :: '-' :: c :: rest := by
      rw [← spelled]
      simpa using unsigned
    simp only [longOption, body, spelled, Text.cut_of_not_mem absent]
    rw [← spelled, String.ofList_toList]
    rfl

theorem said_optionToken (option : WrittenOption) :
    (optionToken option.token).said = [option.binding] := by
  rw [optionToken, option.toList_token]
  exact option.said_longOption

end WrittenOption

/-- Options in front of the token that ends them are read one by one. -/
theorem readArguments_written (options : List WrittenOption) (positional : List String) :
    readArguments (options.map WrittenOption.token ++ "--" :: positional) =
      (positional, options.map WrittenOption.binding) := by
  induction options with
  | nil => rw [List.map_nil, List.nil_append, readArguments, if_pos rfl, List.map_nil]
  | cons option options ih =>
    -- Whatever comes next is an option or ends them, so it is no value of this one.
    have next : ∃ token rest, isOption token = true ∧
        options.map WrittenOption.token ++ "--" :: positional = token :: rest := by
      cases options with
      | nil => exact ⟨"--", positional, by decide, rfl⟩
      | cons second others => exact ⟨_, _, isOption_of_dashes second.toList_token, rfl⟩
    obtain ⟨token, rest, followed, split⟩ := next
    have step := readArguments_option rest option.token_ne_dashes
      (isOption_of_dashes option.toList_token) followed
    rw [← split, ih, option.said_optionToken] at step
    exact step

/-- Bindings that are written as options are read back in full, and what follows the token that ends
the options stays as it is. A name that is bound again keeps its first place and takes its last
value. -/
theorem splitOptions_written (options : List WrittenOption) (positional : List String) :
    let bindings := options.map WrittenOption.binding
    let named := Table.ofList bindings
    splitOptions (options.map WrittenOption.token ++ "--" :: positional) = (positional, named) ∧
      Table.keys named = (bindings.map Prod.fst).eraseDups ∧
      ∀ name, Table.get? named name = Table.get? bindings.reverse name := by
  intro bindings named
  refine ⟨?_, Table.keys_ofList bindings, Table.get?_ofList bindings⟩
  rw [splitOptions, readArguments_written]

end Switchboard.Line
