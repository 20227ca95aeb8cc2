import Switchboard.Proofs.FailedSave
import Switchboard.Proofs.TableOrder

/-!
What the fields of an entry hold after a change: what stands under a name in one of its tables, its
scopes and its variables. An action changes one field of one entry, so what is in the other fields
and entries stays.
-/
namespace Switchboard

namespace Users

/-! ### Names in the tables of an entry -/

/-- What a caller has under a name in the table that its entry has in a field. -/
def fieldAt? (users : Entries) (key field name : String) : Option Document :=
  ((entryOf? users key).bind (tableAt? · field)).bind (·.get? name)

theorem fieldAt?_insert (users : Entries) (key field name : String) (entry : Entry)
    (inner : Table Document) :
    fieldAt? (users.insert key (.table (entry.insert field (.table inner)))) key field name =
      inner.get? name := by
  rw [fieldAt?, entryOf?_insert, if_pos rfl, Option.bind_some, tableAt?, Table.get?_insert,
    if_pos rfl]
  rfl

theorem get?_tableAt?_blankEntry (field name : String) :
    ((tableAt? blankEntry field).getD []).get? name = none := by
  unfold tableAt? blankEntry
  simp only [Table.get?_cons, Table.get?_nil]
  split_ifs <;> rfl

theorem get?_tableAt?_entryOrBlank (users : Entries) (key field name : String) :
    ((tableAt? (entryOrBlank users key) field).getD []).get? name =
      fieldAt? users key field name := by
  unfold entryOrBlank fieldAt?
  cases entryOf? users key with
  | none => exact get?_tableAt?_blankEntry field name
  | some entry =>
    rw [Option.getD_some, Option.bind_some]
    cases tableAt? entry field with
    | none => rfl
    | some inner => rfl

theorem fieldAt?_setIn (users : Entries) (key field name value other : String) :
    fieldAt? (setIn users key field name value) key field other =
      if name = other then some (.text value) else fieldAt? users key field other := by
  rw [setIn, fieldAt?_insert, Table.get?_insert, get?_tableAt?_entryOrBlank]

/-- An entry that says nothing has nothing in its tables, so nothing is lost when it is removed. -/
theorem eq_nil_of_isEmptyEntry {entry : Entry} {field : String} {inner : Table Document}
    (said : field ∈ ["env", "aliases", "with"])
    (empty : isEmptyEntry (entry.insert field (.table inner)) = true) : inner = [] := by
  have falsy := List.all_eq_true.mp (Bool.and_eq_true_iff.mp empty).2 field said
  rw [Table.get?_insert, if_pos rfl] at falsy
  simpa [Datum.truthy] using falsy

theorem fieldAt?_removeIn? (users : Entries) (key : String) {field : String}
    (said : field ∈ ["env", "aliases", "with"]) (name other : String) :
    fieldAt? ((removeIn? users key field name).getD users) key field other =
      if name = other then none else fieldAt? users key field other := by
  unfold removeIn?
  cases held : entryOf? users key with
  | none => simp [fieldAt?, held]
  | some entry =>
    cases found : tableAt? entry field with
    | none => simp [fieldAt?, held, found]
    | some inner =>
      have known : fieldAt? users key field other = inner.get? other := by
        rw [fieldAt?, held, Option.bind_some, found, Option.bind_some]
      rw [known, ← Table.get?_erase]
      simp only [Option.bind_eq_bind, Option.bind_some, found, Option.pure_def, Option.getD_some]
      unfold setOrPrune
      split
      · rename_i empty
        rw [fieldAt?, entryOf?_erase, if_pos rfl, eq_nil_of_isEmptyEntry said empty]
        rfl
      · exact fieldAt?_insert users key field other entry _

theorem variable?_eq (users : Entries) (key name : String) :
    (variables? users key).bind (·.get? name) =
      (fieldAt? users key "env" name).map Datum.display := by
  unfold variables? fieldAt?
  cases entryOf? users key with
  | none => rfl
  | some entry =>
    cases found : tableAt? entry "env" with
    | none => simp [found]
    | some inner => simpa [found] using Table.get?_map inner Datum.display name

theorem alias?_eq (users : Entries) (key name : String) :
    alias? users key name = (fieldAt? users key "aliases" name).bind aliasTarget? := by
  unfold alias? fieldAt?
  cases entryOf? users key with
  | none => rfl
  | some entry =>
    cases found : tableAt? entry "aliases" with
    | none => simp [found]
    | some inner => simp [found]

/-- Setting an alias changes what it stands for and nothing else. -/
theorem alias?_setAlias (users : Entries) (key name other : String) {command : Option String}
    (filled : command ≠ some "") :
    alias? ((setAlias users key name command).getD users) key other =
      if name = other then command else alias? users key other := by
  rw [alias?_eq, alias?_eq]
  unfold setAlias
  cases command with
  | none =>
    dsimp only
    rw [fieldAt?_removeIn? users key (by decide)]
    split <;> rfl
  | some command =>
    dsimp only
    rw [Option.getD_some, fieldAt?_setIn]
    split
    · exact if_neg fun empty => filled (congrArg some empty)
    · rfl

theorem scopes_eq (users : Entries) (key : String) :
    scopes users key =
      ((listAt? (entryOrBlank users key) "with").getD []).filterMap aliasTarget? := by
  unfold scopes entryOrBlank
  cases entryOf? users key with
  | none => rfl
  | some entry =>
    rw [Option.bind_some, Option.getD_some]
    cases listAt? entry "with" with
    | none => rfl
    | some items => rfl

/-- The scopes in an entry. -/
def scopesIn (entry : Entry) : List String :=
  ((listAt? entry "with").getD []).filterMap aliasTarget?

theorem scopesIn_insert (entry : Entry) (items : List Document) :
    scopesIn (entry.insert "with" (.list items)) = items.filterMap aliasTarget? := by
  rw [scopesIn, listAt?, Table.get?_insert, if_pos rfl]
  rfl

theorem scopes_insert (users : Entries) (key : String) (entry : Entry) :
    scopes (users.insert key (.table entry)) key = scopesIn entry := by
  rw [scopes_eq, entryOrBlank, entryOf?_insert, if_pos rfl, Option.getD_some]
  rfl

/-- Adding a scope adds no other one. -/
theorem mem_scopes_addScope_of_ne (users : Entries) (key : String) {scope other : String}
    (apart : scope ≠ other) :
    other ∈ scopes ((addScope users key scope).getD users) key ↔ other ∈ scopes users key := by
  unfold addScope
  dsimp only
  split
  · rfl
  · have absent : other ∉ [Datum.text scope].filterMap aliasTarget? := by
      intro member
      obtain ⟨item, single, target⟩ := List.mem_filterMap.mp member
      obtain rfl := List.mem_singleton.mp single
      obtain ⟨-, same⟩ := Option.ite_none_left_eq_some.mp target
      exact apart (Option.some.inj same)
    rw [Option.getD_some, scopes_insert, scopesIn_insert, List.filterMap_append, List.mem_append,
      or_iff_left absent, scopes_eq]

/-! ### Variables -/

/-- The table of variables in an entry. -/
def variablesIn (entry : Entry) : Table Document :=
  (tableAt? entry "env").getD []

/-- The variables that a caller has, as the entry holds them. -/
def variablesOf (users : Entries) (key : String) : Table Document :=
  variablesIn (entryOrBlank users key)

/-- The variables of a caller, none if the caller has no table of them. -/
def environment (users : Entries) (key : String) : Table String :=
  (variables? users key).getD []

theorem environment_eq (users : Entries) (key : String) :
    environment users key =
      (variablesOf users key).map fun (name, value) => (name, value.display) := by
  unfold environment variables? variablesOf variablesIn entryOrBlank
  cases entryOf? users key with
  | none => rfl
  | some entry =>
    cases found : tableAt? entry "env" with
    | none => simp [found]
    | some fields => simp [found]

theorem variablesIn_insert {field : String} (apart : field ≠ "env") (entry : Entry)
    (value : Document) : variablesIn (entry.insert field value) = variablesIn entry := by
  rw [variablesIn, tableAt?, Table.get?_insert, if_neg apart]
  rfl

/-- An entry that says nothing holds no variables, so nothing is lost when it is removed. -/
theorem variablesIn_of_isEmptyEntry {entry : Entry} (empty : isEmptyEntry entry = true) :
    variablesIn entry = [] := by
  have falsy := List.all_eq_true.mp (Bool.and_eq_true_iff.mp empty).2 "env" (by decide)
  unfold variablesIn tableAt?
  cases found : entry.get? "env" with
  | none => rfl
  | some value =>
    rw [found] at falsy
    cases value with
    | table fields => simpa [Datum.truthy] using falsy
    | _ => rfl

/-- What is seen of an entry stays when a field that does not show in it is changed, if nothing is
lost with an entry that says nothing. -/
theorem view_of_fieldChange {α : Type} {view : Entry → α} {users changed : Entries}
    {key field : String} (unseen : ∀ entry value, view (entry.insert field value) = view entry)
    (nothing : ∀ entry, isEmptyEntry entry = true → view entry = view blankEntry)
    (change : FieldChange users key field changed) :
    view (entryOrBlank changed key) = view (entryOrBlank users key) := by
  have inserted (entry : Entry) : entryOrBlank (users.insert key (.table entry)) key = entry := by
    rw [entryOrBlank, entryOf?_insert, if_pos rfl, Option.getD_some]
  cases change with
  | set value => rw [inserted, unseen]
  | cleared value =>
    unfold setOrPrune
    split
    · rename_i empty
      have none : entryOrBlank (users.erase key) key = blankEntry := by
        rw [entryOrBlank, entryOf?_erase, if_pos rfl, Option.getD_none]
      rw [none, ← nothing _ empty, unseen]
    · rw [inserted, unseen]

/-- Changing another field than that of the variables changes no variables. -/
theorem variablesOf_of_fieldChange {users changed : Entries} {key field : String}
    (apart : field ≠ "env") (change : FieldChange users key field changed) :
    variablesOf changed key = variablesOf users key :=
  view_of_fieldChange (variablesIn_insert apart)
    (fun _ empty => (variablesIn_of_isEmptyEntry empty).trans rfl) change

/-- An action changes the variables of its caller at most, and only if it is about them. -/
theorem variablesOf_edit? (action : Action) (key other : String) (users : Entries)
    (untouched : key = other → action.field? ≠ some "env") :
    variablesOf ((action.edit? key users).getD users) other = variablesOf users other := by
  cases edited : action.edit? key users with
  | none => rfl
  | some changed =>
    rw [Option.getD_some]
    by_cases same : key = other
    · subst same
      obtain ⟨field, named, change⟩ := Action.fieldChange_of_edit? edited
      refine variablesOf_of_fieldChange (fun env => untouched rfl ?_) change
      rw [← env]
      exact named
    · obtain ⟨kept, rfl⟩ := Action.exists_put_of_edit? edited
      rw [variablesOf, variablesOf, entryOrBlank, entryOrBlank, entryOf?_put, if_neg same]

theorem environment_edit? (action : Action) (key other : String) (users : Entries)
    (untouched : key = other → action.field? ≠ some "env") :
    environment ((action.edit? key users).getD users) other = environment users other := by
  rw [environment_eq, environment_eq, variablesOf_edit? action key other users untouched]

end Users
end Switchboard
