import Switchboard.Proofs.WrittenOption

/-!
What becomes of each token of a row of arguments. Whether a token is an option, the value that was
read for the option before it or a positional argument is settled by the token and the one in front
of it, whatever else stands in the row. Positional arguments are kept as they are and in order, an
option binds the names that it is spelled with, and nothing else is bound.
-/
namespace Switchboard

namespace Table

variable {α : Type}

theorem get?_append (t later : Table α) (key : String) :
    get? (t ++ later) key = (get? t key).or (get? later key) := by
  induction t with
  | nil => simp
  | cons entry rest ih =>
    obtain ⟨known, value⟩ := entry
    by_cases same : known = key
    · simp [same]
    · simpa [same] using ih

/-- Of rows of entries that were set one after the other, the last one that sets a key counts. -/
theorem get?_reverse_flatMap {β : Type} (rows : List β) (entries : β → Table α) (key : String) :
    get? (rows.flatMap entries).reverse key =
      rows.reverse.findSome? fun row => get? (entries row).reverse key := by
  induction rows with
  | nil => rfl
  | cons row rest ih =>
    simp only [List.flatMap_cons, List.reverse_append, List.reverse_cons, get?_append, ih,
      List.findSome?_append]
    cases found : get? (entries row).reverse key <;> simp [found]

end Table

theorem Text.eq_append_of_cut {separator : Char} {cs before after : List Char}
    (parts : cut separator cs = (before, some after)) : cs = before ++ separator :: after := by
  induction cs generalizing before with
  | nil => simp [cut] at parts
  | cons c rest ih =>
    rw [cut] at parts
    split at parts
    · rename_i here
      obtain ⟨rfl, same⟩ := Prod.mk.inj parts
      obtain rfl := Option.some.inj same
      simp [here]
    · obtain ⟨rfl, same⟩ := Prod.mk.inj parts
      rw [List.cons_append, ← ih (Prod.ext rfl same)]

namespace Line

/-! ### What one option says -/

/-- The name in an option of two dashes; `cs` follows them. A value behind an equals sign is no part
of it, and neither is `no-` in front of a name. -/
def longName (cs : List Char) : String :=
  match Text.cut '=' cs with
  | (name, some _) => String.ofList name
  | ('n' :: 'o' :: '-' :: c :: rest, none) => String.ofList (c :: rest)
  | (name, none) => String.ofList name

/-- The names that an option sets: one after two dashes, and one for each letter after one dash. -/
def optionNames (token : String) : List String :=
  match token.toList with
  | '-' :: '-' :: cs => [longName cs]
  | cs => cs.tail.map String.singleton

namespace OptionToken

/-- What an option binds if this value was read for it, if any was. -/
def bindings (option : OptionToken) (value? : Option String) : List (String × OptionValue) :=
  match option with
  | bound name value => [(name, value)]
  | flags names last =>
    names.map (fun name => (name, .flag true)) ++ [(last, value?.elim (.flag true) .text)]

/-- Whether an option takes a value from the token after it. One that brings a value along does not,
and neither does a negation. -/
def takesNext : OptionToken → Bool
  | bound .. => false
  | flags .. => true

end OptionToken

/-- Whether a token is an option that takes a value from the token after it. -/
def takesValue (token : String) : Bool :=
  isOption token && (optionToken token).takesNext

theorem exists_of_isOption {token : String} (option : isOption token = true) :
    ∃ c cs, token.toList = '-' :: c :: cs := by
  unfold isOption at option
  split at option
  · cases option
  · rename_i cs other dashed
    cases cs with
    | nil => exact absurd rfl other
    | cons c cs => exact ⟨c, cs, dashed⟩
  · cases option

theorem names_longOption (cs : List Char) (value? : Option String) :
    ((longOption cs).bindings value?).map Prod.fst = [longName cs] := by
  unfold longOption longName
  split <;> simp_all [OptionToken.bindings]

theorem names_shortOptions {letters : List Char} (some : letters ≠ []) (value? : Option String) :
    ((shortOptions letters).bindings value?).map Prod.fst = letters.map String.singleton := by
  obtain ⟨before, last, rfl⟩ := List.eq_nil_or_concat letters |>.resolve_left some
  simp [shortOptions, OptionToken.bindings]

/-- An option starts with one dash or with two. -/
theorem optionToken_cases {token : String} (option : isOption token = true) :
    (∃ cs, token.toList = '-' :: '-' :: cs ∧ optionToken token = longOption cs ∧
        optionNames token = [longName cs]) ∨
      ∃ letters, letters ≠ [] ∧ optionToken token = shortOptions letters ∧
        optionNames token = letters.map String.singleton := by
  obtain ⟨c, cs, spelled⟩ := exists_of_isOption option
  unfold optionToken optionNames
  rw [spelled]
  by_cases long : c = '-'
  · left
    subst long
    exact ⟨cs, rfl, rfl, rfl⟩
  · right
    refine ⟨c :: cs, List.cons_ne_nil c cs, ?_, ?_⟩ <;> simp [long]

/-- An option binds the names that it is spelled with. -/
theorem names_optionToken {token : String} (option : isOption token = true)
    (value? : Option String) :
    ((optionToken token).bindings value?).map Prod.fst = optionNames token := by
  rcases optionToken_cases option with ⟨cs, -, read, names⟩ | ⟨letters, some, read, names⟩
  · rw [read, names]
    exact names_longOption cs value?
  · rw [read, names]
    exact names_shortOptions some value?

theorem text_of_mem_flags {names : List String} {last name text : String} {value? : Option String}
    (member : (name, OptionValue.text text) ∈ (OptionToken.flags names last).bindings value?) :
    value? = some text := by
  rcases List.mem_append.mp member with flag | bound
  · simp at flag
  · cases value? with
    | none => simp at bound
    | some value => simpa [eq_comm] using congrArg Prod.snd (List.mem_singleton.mp bound)

theorem text_of_mem_longOption {cs : List Char} {name text : String} {value? : Option String}
    (member : (name, OptionValue.text text) ∈ (longOption cs).bindings value?) :
    cs = name.toList ++ '=' :: text.toList ∨
      (longOption cs).takesNext = true ∧ value? = some text := by
  cases cut : Text.cut '=' cs with
  | mk before after =>
    cases after with
    | some after =>
      left
      simp only [longOption, cut, OptionToken.bindings, List.mem_singleton, Prod.mk.injEq,
        OptionValue.text.injEq] at member
      obtain ⟨rfl, rfl⟩ := member
      simpa using Text.eq_append_of_cut cut
    | none =>
      right
      unfold longOption at member ⊢
      rw [cut] at member ⊢
      split at member
      · rename_i valued
        cases (Prod.mk.inj valued).2
      · simp [OptionToken.bindings] at member
      · exact ⟨rfl, text_of_mem_flags member⟩

/-- A text that an option binds stands in the option itself, or it is the value that was read. -/
theorem text_of_mem_bindings {token name text : String} (option : isOption token = true)
    {value? : Option String}
    (member : (name, OptionValue.text text) ∈ (optionToken token).bindings value?) :
    token = "--" ++ name ++ "=" ++ text ∨ takesValue token = true ∧ value? = some text := by
  unfold takesValue
  rcases optionToken_cases option with ⟨cs, spelled, read, -⟩ | ⟨letters, -, read, -⟩
  · rw [read] at member ⊢
    rcases text_of_mem_longOption member with whole | ⟨takes, same⟩
    · left
      rw [← String.toList_inj, spelled, whole]
      simp
    · right
      exact ⟨by simp [option, takes], same⟩
  · rw [read] at member ⊢
    right
    exact ⟨by simp [option, shortOptions, OptionToken.takesNext], text_of_mem_flags member⟩

/-! ### Tokens among others -/

/-- A token of a row with its neighbours. -/
structure Place where
  before : Option String
  token : String
  after : Option String

/-- What a token stands for. -/
inductive Role where
  | positional
  | option
  /-- The value of the option in front of it. -/
  | value
deriving DecidableEq, Repr

namespace Place

/-- An option is one wherever it stands. Any other token is the value of an option that takes one
right before it, and a positional argument elsewhere. -/
def role (place : Place) : Role :=
  if isOption place.token then .option
  else if place.before.any takesValue then .value
  else .positional

/-- What a token adds to the bindings. -/
def bindings (place : Place) : List (String × OptionValue) :=
  if isOption place.token then
    (optionToken place.token).bindings (place.after.filter fun next => ! isOption next)
  else []

/-- What is so of a token between two others, by what it stands for. -/
def IsAccounted (place : Place) (earlier? later? : Option Place) : Prop :=
  match place.role with
  | .positional => isOption place.token = false ∧ place.bindings = []
  | .option =>
    isOption place.token = true ∧ place.bindings.map Prod.fst = optionNames place.token ∧
      ∀ name text, (name, .text text) ∈ place.bindings →
        place.token = "--" ++ name ++ "=" ++ text ∨
          ∃ value, later? = some value ∧ value.role = .value ∧ value.token = text
  | .value =>
    isOption place.token = false ∧ place.bindings = [] ∧
      ∃ (option : Place) (flags : List String) (name : String),
        earlier? = some option ∧ option.role = .option ∧
        option.bindings =
          flags.map (fun flag => (flag, .flag true)) ++ [(name, .text place.token)]

end Place

/-- The places of a row that stands after `before`. -/
def placesFrom (before : Option String) : List String → List Place
  | [] => []
  | token :: rest => { before, token, after := rest.head? } :: placesFrom (some token) rest

/-- The places of a row. -/
def places (tokens : List String) : List Place :=
  placesFrom none tokens

theorem tokens_placesFrom (before : Option String) (tokens : List String) :
    (placesFrom before tokens).map Place.token = tokens := by
  induction tokens generalizing before with
  | nil => rfl
  | cons token rest ih => simp [placesFrom, ih]

/-- The neighbours that a place names stand next to it. -/
theorem neighbours_of_placesFrom {before : Option String} {tokens : List String}
    {earlier later : List Place} {place : Place}
    (split : placesFrom before tokens = earlier ++ place :: later) :
    place.before = (earlier.getLast?.map Place.token).or before ∧
      place.after = later.head?.map Place.token := by
  induction tokens generalizing before earlier with
  | nil => simp [placesFrom] at split
  | cons token rest ih =>
    cases earlier with
    | nil =>
      obtain ⟨rfl, rfl⟩ := List.cons.inj split
      refine ⟨rfl, ?_⟩
      cases rest <;> rfl
    | cons first earlier =>
      obtain ⟨rfl, others⟩ := List.cons.inj split
      obtain ⟨same, next⟩ := ih others
      refine ⟨?_, next⟩
      rw [same, List.getLast?_cons]
      cases earlier.getLast? <;> rfl

/-! ### Reading a row -/

/-- What is left of a row behind a token that may have taken the first of it as its value. -/
def unread (before : Option String) (tokens : List String) : List String :=
  if before.any takesValue ∧ tokens.head?.any fun next => ! isOption next then tokens.tail
  else tokens

theorem unread_of_not_takesValue {before : Option String} (none : before.any takesValue = false)
    (tokens : List String) : unread before tokens = tokens := by
  simp [unread, none]

theorem unread_of_isOption (before : Option String) {tokens : List String}
    (closed : ∀ next ∈ tokens.head?, isOption next = true) : unread before tokens = tokens := by
  unfold unread
  cases head : tokens.head? with
  | none => simp
  | some next => simp [closed next head]

/-- Reading an option goes on behind the value that it takes. -/
theorem readArguments_of_isOption {token : String} (rest : List String) (goesOn : token ≠ "--")
    (option : isOption token = true) :
    readArguments (token :: rest) =
      ((readArguments (unread (some token) rest)).1,
        (optionToken token).bindings (rest.head?.filter fun next => ! isOption next) ++
          (readArguments (unread (some token) rest)).2) := by
  rw [readArguments, if_neg goesOn, if_pos option]
  cases read : optionToken token with
  | bound name value =>
    have alone : (some token).any takesValue = false := by
      simp [takesValue, read, OptionToken.takesNext]
    rw [unread_of_not_takesValue alone]
    rfl
  | flags names last =>
    have takes : takesValue token = true := by
      simp [takesValue, option, read, OptionToken.takesNext]
    cases rest with
    | nil => simp [unread, readArguments, OptionToken.bindings]
    | cons next later =>
      cases followed : isOption next <;>
        simp [unread, takes, followed, OptionToken.bindings, Option.filter]

theorem readArguments_of_plain {token : String} (rest : List String)
    (plain : isOption token = false) :
    readArguments (token :: rest) = (token :: (readArguments rest).1, (readArguments rest).2) := by
  have goesOn : token ≠ "--" := by
    rintro rfl
    exact absurd plain (by decide)
  rw [readArguments, if_neg goesOn, plain, if_neg Bool.false_ne_true]

/-- Every token of a row is read for what it stands for, as long as what follows the row starts with
no value. -/
theorem readArguments_places {tail positional : List String}
    (closed : ∀ next ∈ tail.head?, isOption next = true)
    (ends : readArguments tail = (positional, [])) {tokens : List String} (inner : "--" ∉ tokens)
    (before : Option String) :
    readArguments (unread before (tokens ++ tail)) =
      (((placesFrom before tokens).filter (·.role = .positional)).map Place.token ++ positional,
        (placesFrom before tokens).flatMap Place.bindings) := by
  induction tokens generalizing before with
  | nil =>
    rw [List.nil_append, unread_of_isOption before closed, ends]
    rfl
  | cons token rest ih =>
    obtain ⟨goesOn, later⟩ := List.ne_and_not_mem_of_not_mem_cons inner
    have goOn := ih later (some token)
    cases option : isOption token with
    | true =>
      have whole : unread before (token :: rest ++ tail) = token :: (rest ++ tail) :=
        unread_of_isOption before fun next head => by
          obtain rfl := Option.some.inj head
          exact option
      have followed : ((rest ++ tail).head?.filter fun next => ! isOption next) =
          rest.head?.filter fun next => ! isOption next := by
        cases rest with
        | nil =>
          cases head : tail.head? with
          | none => simp [head]
          | some next => simp [head, closed next head]
        | cons next others => rfl
      rw [whole, readArguments_of_isOption _ (Ne.symm goesOn) option, goOn, followed]
      simp [placesFrom, Place.role, Place.bindings, option]
    | false =>
      have alone : (some token).any takesValue = false := by simp [takesValue, option]
      rw [unread_of_not_takesValue alone] at goOn
      cases taken : before.any takesValue with
      | true =>
        have skipped : unread before (token :: rest ++ tail) = rest ++ tail := by
          simp [unread, taken, option]
        rw [skipped, goOn]
        simp [placesFrom, Place.role, Place.bindings, option, taken]
      | false =>
        rw [unread_of_not_takesValue taken, List.cons_append, readArguments_of_plain _ option,
          goOn]
        simp [placesFrom, Place.role, Place.bindings, option, taken]

/-- The value that is read for an option has the role of one. -/
theorem exists_value_of_text {tokens : List String} {earlier later : List Place} {place : Place}
    (split : places tokens = earlier ++ place :: later) (option : isOption place.token = true)
    {name text : String} (member : (name, OptionValue.text text) ∈ place.bindings) :
    place.token = "--" ++ name ++ "=" ++ text ∨
      ∃ value, later.head? = some value ∧ value.role = .value ∧ value.token = text := by
  rw [Place.bindings, if_pos option] at member
  refine (text_of_mem_bindings option member).imp_right ?_
  rintro ⟨takes, read⟩
  obtain ⟨next, plain⟩ := Option.filter_eq_some_iff.mp read
  rw [(neighbours_of_placesFrom split).2] at next
  cases later with
  | nil => simp at next
  | cons value later =>
    obtain rfl := Option.some.inj next
    have shifted : placesFrom none tokens = (earlier ++ [place]) ++ value :: later := by
      simpa [places] using split
    have before := (neighbours_of_placesFrom shifted).1
    refine ⟨value, rfl, ?_, rfl⟩
    simp only [Bool.not_eq_true'] at plain
    simp [Place.role, plain, before, takes]

/-- A token with the role of a value was read for the option in front of it. -/
theorem exists_option_of_value {tokens : List String} {earlier later : List Place} {place : Place}
    (split : places tokens = earlier ++ place :: later) (plain : isOption place.token = false)
    (taken : place.before.any takesValue = true) :
    ∃ (option : Place) (flags : List String) (name : String),
      earlier.getLast? = some option ∧ option.role = .option ∧
        option.bindings =
          flags.map (fun flag => (flag, .flag true)) ++ [(name, .text place.token)] := by
  rw [(neighbours_of_placesFrom split).1, Option.or_none] at taken
  rcases List.eq_nil_or_concat earlier with rfl | ⟨first, option, rfl⟩
  · simp at taken
  · rw [List.concat_eq_append, List.getLast?_concat, Option.map_some, Option.any_some,
      takesValue, Bool.and_eq_true] at taken
    obtain ⟨isOne, takes⟩ := taken
    have shifted : placesFrom none tokens = first ++ option :: place :: later := by
      simpa [places] using split
    have after := (neighbours_of_placesFrom shifted).2
    cases read : optionToken option.token with
    | bound name value => simp [read, OptionToken.takesNext] at takes
    | flags names last =>
      refine ⟨option, names, last, by simp, by simp [Place.role, isOne], ?_⟩
      simp [Place.bindings, isOne, read, OptionToken.bindings, after, Option.filter, plain]

/-- Every place of a row is accounted for by its role. -/
theorem isAccounted_of_places {tokens : List String} {earlier later : List Place} {place : Place}
    (split : places tokens = earlier ++ place :: later) :
    place.IsAccounted earlier.getLast? later.head? := by
  unfold Place.IsAccounted
  cases option : isOption place.token with
  | true =>
    have role : place.role = .option := by simp [Place.role, option]
    simp only [role]
    refine ⟨trivial, ?_, fun name text => exists_value_of_text split option⟩
    rw [Place.bindings, if_pos option]
    exact names_optionToken option _
  | false =>
    have silent : place.bindings = [] := by simp [Place.bindings, option]
    cases taken : place.before.any takesValue with
    | true =>
      have role : place.role = .value := by simp [Place.role, option, taken]
      simp only [role]
      exact ⟨trivial, silent, exists_option_of_value split option taken⟩
    | false =>
      have role : place.role = .positional := by simp [Place.role, option, taken]
      simp only [role]
      exact ⟨trivial, silent⟩

/-- Each token of a row that is not ended by two dashes is accounted for, and what stands behind the
dashes stays as it is. -/
theorem splitOptions_accounted (tokens rest : List String) (inner : "--" ∉ tokens) :
    splitOptions (tokens ++ "--" :: rest) =
        ((splitOptions tokens).1 ++ rest, (splitOptions tokens).2) ∧
      (places tokens).map Place.token = tokens ∧
      (splitOptions tokens).1 =
        ((places tokens).filter (·.role = .positional)).map Place.token ∧
      (splitOptions tokens).2 = Table.ofList ((places tokens).flatMap Place.bindings) ∧
      (∀ name, Table.get? (splitOptions tokens).2 name =
        (places tokens).reverse.findSome? fun place => Table.get? place.bindings.reverse name) ∧
      ∀ earlier place later, places tokens = earlier ++ place :: later →
        place.IsAccounted earlier.getLast? later.head? := by
  have fresh (tail : List String) : unread none (tokens ++ tail) = tokens ++ tail :=
    unread_of_not_takesValue rfl _
  have nothing : readArguments [] = ([], []) := rfl
  have dashes : readArguments ("--" :: rest) = (rest, []) := by
    rw [readArguments, if_pos rfl]
  have closed : ∀ next ∈ ("--" :: rest).head?, isOption next = true := by
    intro next head
    obtain rfl := Option.some.inj head
    decide
  have unended : ∀ next ∈ ([] : List String).head?, isOption next = true := by
    intro next head
    cases head
  have alone := readArguments_places unended nothing inner none
  have ended := readArguments_places closed dashes inner none
  rw [fresh, List.append_nil, List.append_nil] at alone
  rw [fresh] at ended
  refine ⟨?_, tokens_placesFrom none tokens, ?_, ?_, fun name => ?_,
    fun _ _ _ => isAccounted_of_places⟩
  · rw [splitOptions, splitOptions, ended, alone]
  · rw [splitOptions, alone]
    rfl
  · rw [splitOptions, alone]
    rfl
  · rw [splitOptions, alone, Table.get?_ofList]
    exact Table.get?_reverse_flatMap _ _ name

/-- A bundle takes the value after it, a number is none, and a negation takes nothing. -/
theorem splitOptions_accounted_bundle :
    let tokens := ["-ab", "v", "x", "--k=1", "--no-y", "-5"]
    "--" ∉ tokens ∧
      (places tokens).map Place.role =
        [.option, .value, .positional, .option, .option, .positional] ∧
      splitOptions (tokens ++ "--" :: ["-z"]) = (["x", "-5", "-z"],
        [("a", .flag true), ("b", .text "v"), ("k", .text "1"), ("y", .flag false)]) := by
  intro tokens
  have inner : "--" ∉ tokens := by decide
  refine ⟨inner, by decide, ?_⟩
  rw [(splitOptions_accounted tokens ["-z"] inner).1]
  decide

end Line
end Switchboard
