import Switchboard.Proofs.StoreRun
import Switchboard.Proofs.Twin

/-!
Entries of users that are twins. What is made of them are twins again, and what is read from them is
the same, but for the order of variables and aliases and for that of the fields in what variables
show.
-/
namespace Switchboard

open Json

/-! ### Documents -/

namespace Json.Twin

variable {a b : Document}

theorem truthy_eq (twin : Twin a b) : a.truthy = b.truthy := by
  rcases twin.cases with rfl | ⟨items, others, rfl, rfl⟩ | ⟨fields, others, rfl, rfl⟩
  · rfl
  · cases list_iff.mp twin with
    | nil => rfl
    | cons _ _ => rfl
  · exact congrArg (!·) (table_iff.mp twin).isEmpty_eq

theorem aliasTarget?_eq (twin : Twin a b) : Users.aliasTarget? a = Users.aliasTarget? b := by
  rcases twin.cases with rfl | ⟨items, others, rfl, rfl⟩ | ⟨fields, others, rfl, rfl⟩ <;> rfl

theorem isText_eq (twin : Twin a b) (s : String) : Users.isText s a = Users.isText s b := by
  rcases twin.cases with rfl | ⟨items, others, rfl, rfl⟩ | ⟨fields, others, rfl, rfl⟩ <;> rfl

end Json.Twin

namespace Users

/-! ### Scopes in a list -/

section Items

variable {items others : List Document}

theorem any_isText_eq (twins : List.Forall₂ Twin items others) (s : String) :
    items.any (isText s) = others.any (isText s) := by
  induction twins with
  | nil => rfl
  | cons twin _ ih => rw [List.any_cons, List.any_cons, twin.isText_eq, ih]

theorem eraseP_isText_twins (twins : List.Forall₂ Twin items others) (s : String) :
    List.Forall₂ Twin (items.eraseP (isText s)) (others.eraseP (isText s)) := by
  induction twins with
  | nil => exact .nil
  | @cons a b _ _ twin later ih =>
    rw [List.eraseP_cons, List.eraseP_cons, twin.isText_eq]
    cases isText s b with
    | true => exact later
    | false => exact .cons twin ih

theorem filterMap_aliasTarget?_eq (twins : List.Forall₂ Twin items others) :
    items.filterMap aliasTarget? = others.filterMap aliasTarget? := by
  induction twins with
  | nil => rfl
  | cons twin _ ih => rw [List.filterMap_cons, List.filterMap_cons, twin.aliasTarget?_eq, ih]

end Items

/-! ### Fields of an entry -/

section Fields

variable {entry other : Entry}

theorem tableAt?_twins (twins : Table.Related Twin entry other) (field : String) :
    Option.Rel (Table.Related Twin) (tableAt? entry field) (tableAt? other field) := by
  unfold tableAt?
  cases found : entry.get? field with
  | none =>
    rw [twins.get?_none found]
    exact .none
  | some a =>
    obtain ⟨b, foundOther, twin⟩ := twins.get?_left found
    rw [foundOther]
    rcases twin.cases with rfl | ⟨items, others, rfl, rfl⟩ | ⟨fields, others, rfl, rfl⟩
    · cases a with
      | table fields => exact .some (Twin.table_iff.mp twin)
      | _ => exact .none
    · exact .none
    · exact .some (Twin.table_iff.mp twin)

theorem listAt?_twins (twins : Table.Related Twin entry other) (field : String) :
    Option.Rel (List.Forall₂ Twin) (listAt? entry field) (listAt? other field) := by
  unfold listAt?
  cases found : entry.get? field with
  | none =>
    rw [twins.get?_none found]
    exact .none
  | some a =>
    obtain ⟨b, foundOther, twin⟩ := twins.get?_left found
    rw [foundOther]
    rcases twin.cases with rfl | ⟨items, others, rfl, rfl⟩ | ⟨fields, others, rfl, rfl⟩
    · cases a with
      | list items => exact .some (Twin.list_iff.mp twin)
      | _ => exact .none
    · exact .some (Twin.list_iff.mp twin)
    · exact .none

theorem isEmptyEntry_eq (twins : Table.Related Twin entry other) :
    isEmptyEntry entry = isEmptyEntry other := by
  have truthy (field : String) :
      ((entry.get? field).getD .null).truthy = ((other.get? field).getD .null).truthy :=
    (Table.rel_getD (twins.values field) (.refl .null)).truthy_eq
  unfold isEmptyEntry
  simp only [truthy]
  congr 1
  have level := twins.values "perm"
  generalize entry.get? "perm" = a? at level ⊢
  generalize other.get? "perm" = b? at level ⊢
  cases level with
  | none => rfl
  | some twin =>
    rcases twin.cases with rfl | ⟨items, others, rfl, rfl⟩ | ⟨fields, others, rfl, rfl⟩ <;> rfl

theorem levelIn_eq (twins : Table.Related Twin entry other) : levelIn entry = levelIn other := by
  have level := twins.values "perm"
  unfold levelIn
  generalize entry.get? "perm" = a? at level ⊢
  generalize other.get? "perm" = b? at level ⊢
  cases level with
  | none => rfl
  | some twin =>
    rcases twin.cases with rfl | ⟨items, others, rfl, rfl⟩ | ⟨fields, others, rfl, rfl⟩ <;> rfl

end Fields

/-! ### Changes of the entries -/

section Changes

variable {users others : Entries}

/-- The entry of a caller is looked up as a field with a table is. -/
theorem entryOf?_twins (twins : Table.Related Twin users others) (key : String) :
    Option.Rel (Table.Related Twin) (entryOf? users key) (entryOf? others key) :=
  tableAt?_twins twins key

theorem blankEntry_twins : Table.Related Twin blankEntry blankEntry := by
  have spellable : ∀ field ∈ blankEntry, Spellable field.2 := by
    simp only [blankEntry, List.forall_mem_cons, List.not_mem_nil, false_imp_iff, implies_true,
      and_true]
    exact ⟨.noFields, .null, .noFields, .noItems⟩
  exact .refl (by decide) fun field member => .refl (spellable field member)

theorem noFields_twins : Table.Related Twin ([] : Table Document) [] :=
  .refl List.nodup_nil nofun

theorem entryOrBlank_twins (twins : Table.Related Twin users others) (key : String) :
    Table.Related Twin (entryOrBlank users key) (entryOrBlank others key) :=
  Table.rel_getD (entryOf?_twins twins key) blankEntry_twins

theorem insert_field_twins (twins : Table.Related Twin users others) (key : String)
    {entry other : Entry} (twinEntries : Table.Related Twin entry other) (field : String)
    {a b : Document} (twin : Twin a b) :
    Table.Related Twin (users.insert key (.table (entry.insert field a)))
      (others.insert key (.table (other.insert field b))) :=
  twins.insert key (.table (twinEntries.insert field twin))

theorem setOrPrune_twins (twins : Table.Related Twin users others) (key : String)
    {entry other : Entry} (twinEntries : Table.Related Twin entry other) :
    Table.Related Twin (setOrPrune users key entry) (setOrPrune others key other) := by
  unfold setOrPrune
  rw [isEmptyEntry_eq twinEntries]
  split
  · exact twins.erase key
  · exact twins.insert key (.table twinEntries)

theorem setIn_twins (twins : Table.Related Twin users others) (key field name value : String) :
    Table.Related Twin (setIn users key field name value) (setIn others key field name value) := by
  have entries := entryOrBlank_twins twins key
  have inner := Table.rel_getD (tableAt?_twins entries field) noFields_twins
  exact insert_field_twins twins key entries field
    (.table (inner.insert name (.refl (.text value))))

/-- What two changes come to: none for both, or twins. -/
abbrev TwinEdits (edited other : Option Entries) : Prop :=
  Option.Rel (Table.Related Twin) edited other

theorem removeIn?_twins (twins : Table.Related Twin users others) (key field name : String) :
    TwinEdits (removeIn? users key field name) (removeIn? others key field name) := by
  refine Table.rel_bind (entryOf?_twins twins key) fun entry other twinEntries => ?_
  refine Table.rel_bind (tableAt?_twins twinEntries field) fun inner otherInner twinInner => ?_
  exact .some (setOrPrune_twins twins key
    (twinEntries.insert field (.table (twinInner.erase name))))

theorem setVariable_twins (twins : Table.Related Twin users others) (key name : String)
    (value : Option String) :
    TwinEdits (setVariable users key name value) (setVariable others key name value) := by
  cases value with
  | some value => exact .some (setIn_twins twins key "env" name value)
  | none => exact removeIn?_twins twins key "env" name

theorem setAlias_twins (twins : Table.Related Twin users others) (key name : String)
    (command : Option String) :
    TwinEdits (setAlias users key name command) (setAlias others key name command) := by
  cases command with
  | some command => exact .some (setIn_twins twins key "aliases" name command)
  | none => exact removeIn?_twins twins key "aliases" name

theorem setLevel_twins (twins : Table.Related Twin users others) (key : String)
    {level : Option Int} (writable : ∀ n ∈ level, hasWritableDigits n = true) :
    TwinEdits (setLevel users key level) (setLevel others key level) := by
  cases level with
  | some n =>
    exact .some (insert_field_twins twins key (entryOrBlank_twins twins key) "perm"
      (.refl (.int (writable n rfl))))
  | none =>
    refine Table.rel_map (entryOf?_twins twins key) fun entry other twinEntries => ?_
    exact setOrPrune_twins twins key (twinEntries.insert "perm" (.refl .null))

theorem addScope_twins (twins : Table.Related Twin users others) (key scope : String) :
    TwinEdits (addScope users key scope) (addScope others key scope) := by
  have entries := entryOrBlank_twins twins key
  have items := Table.rel_getD (listAt?_twins entries "with") .nil
  unfold addScope
  dsimp only
  rw [any_isText_eq items scope]
  split
  · exact .none
  · exact .some (insert_field_twins twins key entries "with"
      (.list (List.rel_append items (.cons (.refl (.text scope)) .nil))))

theorem removeScope_twins (twins : Table.Related Twin users others) (key scope : String) :
    TwinEdits (removeScope users key scope) (removeScope others key scope) := by
  refine Table.rel_bind (entryOf?_twins twins key) fun entry other twinEntries => ?_
  refine Table.rel_bind (listAt?_twins twinEntries "with") fun items otherItems twinItems => ?_
  rw [any_isText_eq twinItems scope]
  split
  · exact .some (setOrPrune_twins twins key
      (twinEntries.insert "with" (.list (eraseP_isText_twins twinItems scope))))
  · exact .none

end Changes

/-! ### What is read -/

section Reading

variable {users others : Entries}

/-- Texts that show twins. -/
def ShowTwins (s t : String) : Prop :=
  ∃ a b, Twin a b ∧ a.display = s ∧ b.display = t

theorem variables?_twins (twins : Table.Related Twin users others) (key : String) :
    Option.Rel (Table.Related ShowTwins) (variables? users key) (variables? others key) := by
  refine Table.rel_bind (entryOf?_twins twins key) fun entry other twinEntries => ?_
  refine Table.rel_bind (tableAt?_twins twinEntries "env") fun fields others twinFields => ?_
  exact .some (twinFields.map fun a b twin => ⟨a, b, twin, rfl, rfl⟩)

theorem level?_eq_of_twins (twins : Table.Related Twin users others) (key : String) :
    level? users key = level? others key := by
  rw [level?_eq, level?_eq]
  refine Table.eq_of_rel <|
    Table.rel_bind (entryOf?_twins twins key) fun entry other twinEntries => ?_
  rw [levelIn_eq twinEntries]
  cases levelIn other with
  | none => exact .none
  | some n => exact .some rfl

theorem alias?_eq_of_twins (twins : Table.Related Twin users others) (key name : String) :
    alias? users key name = alias? others key name := by
  refine Table.eq_of_rel <|
    Table.rel_bind (entryOf?_twins twins key) fun entry other twinEntries => ?_
  refine Table.rel_bind (tableAt?_twins twinEntries "aliases") fun fields others twinFields => ?_
  refine Table.rel_bind (twinFields.values name) fun a b twin => ?_
  rw [twin.aliasTarget?_eq]
  cases aliasTarget? b with
  | none => exact .none
  | some command => exact .some rfl

theorem aliases_of_twins (twins : Table.Related Twin users others) (key : String) :
    Table.Related Eq (aliases users key) (aliases others key) := by
  have tables := Table.rel_bind (entryOf?_twins twins key) fun _ _ twinEntries =>
    tableAt?_twins twinEntries "aliases"
  unfold aliases
  generalize (entryOf? users key).bind (tableAt? · "aliases") = fields? at tables ⊢
  generalize (entryOf? others key).bind (tableAt? · "aliases") = otherFields? at tables ⊢
  cases tables with
  | none => exact .refl List.nodup_nil nofun
  | some twinFields => exact twinFields.pick fun a b twin => twin.aliasTarget?_eq

theorem aliases_perm_of_twins (twins : Table.Related Twin users others) (key : String) :
    (aliases users key).Perm (aliases others key) :=
  (aliases_of_twins twins key).perm

theorem scopes_eq_of_twins (twins : Table.Related Twin users others) (key : String) :
    scopes users key = scopes others key := by
  have lists := Table.rel_bind (entryOf?_twins twins key) fun _ _ twinEntries =>
    listAt?_twins twinEntries "with"
  unfold scopes
  generalize (entryOf? users key).bind (listAt? · "with") = items? at lists ⊢
  generalize (entryOf? others key).bind (listAt? · "with") = otherItems? at lists ⊢
  cases lists with
  | none => rfl
  | some twinItems => exact filterMap_aliasTarget?_eq twinItems

end Reading

end Users

/-! ### Actions -/

/-- Answers that are the same but for the order of variables and aliases, and for that of the fields
in what variables show. -/
inductive Answer.Alike : Answer → Answer → Prop
  | environment {t u : Option (Table String)}
    (related : Option.Rel (Table.Related Users.ShowTwins) t u) :
    Alike (.environment t) (.environment u)
  | aliases {t u : Table String} (perm : t.Perm u) : Alike (.aliases t) (.aliases u)
  | same (answer : Answer) : Alike answer answer

namespace Action

/-- An action that sets no level of more digits than a whole number is written with. -/
def IsWritable : Action → Prop
  | .setLevel wanted => ∀ n ∈ wanted, hasWritableDigits n = true
  | _ => True

variable {users others : Users.Entries}

theorem edit?_twins {action : Action} (writable : action.IsWritable)
    (twins : Table.Related Twin users others) (key : String) :
    Users.TwinEdits (action.edit? key users) (action.edit? key others) := by
  cases action with
  | environment | level | command | aliases | scopes => exact .none
  | setVariable name value =>
    rw [edit?, edit?]
    split
    · exact .none
    · exact Users.setVariable_twins twins key _ value
  | setLevel wanted => exact Users.setLevel_twins twins key writable
  | setAlias name wanted =>
    rw [edit?, edit?]
    split
    · exact .none
    · exact Users.setAlias_twins twins key _ _
  | addScope scope =>
    rw [edit?, edit?]
    split
    · exact .none
    · exact Users.addScope_twins twins key _
  | removeScope scope => exact Users.removeScope_twins twins key _

theorem isSome_edit?_eq {action : Action} (writable : action.IsWritable)
    (twins : Table.Related Twin users others) (key : String) :
    (action.edit? key users).isSome = (action.edit? key others).isSome := by
  have edits := edit?_twins writable twins key
  generalize action.edit? key users = edited at edits ⊢
  generalize action.edit? key others = other at edits ⊢
  cases edits with
  | none => rfl
  | some _ => rfl

/-- In twins an action has answers that are alike. -/
theorem answer_alike (action : Action) (twins : Table.Related Twin users others) (key : String) :
    (action.answer key users).Alike (action.answer key others) := by
  cases action with
  | environment => exact .environment (Users.variables?_twins twins key)
  | level =>
    rw [answer, answer, Users.level?_eq_of_twins twins key]
    exact .same _
  | command name =>
    rw [answer, answer, Users.alias?_eq_of_twins twins key name]
    exact .same _
  | aliases => exact .aliases (Users.aliases_perm_of_twins twins key)
  | scopes =>
    rw [answer, answer, Users.scopes_eq_of_twins twins key]
    exact .same _
  | setVariable | setLevel | setAlias => exact .same .done
  | addScope scope =>
    have writable : (addScope scope).IsWritable := trivial
    rw [answer, answer, isSome_edit?_eq writable twins key]
    exact .same _
  | removeScope scope =>
    have writable : (removeScope scope).IsWritable := trivial
    rw [answer, answer, isSome_edit?_eq writable twins key]
    exact .same _

end Action

end Switchboard
