import Switchboard.Proofs.EntryField
import Switchboard.Proofs.StoreRun

/-!
The table of aliases in an entry when one alias is set and then removed. Whatever was set, nothing
is left under its name, and what stands under other names is as it was before.
-/
namespace Switchboard

namespace Table

variable {α : Type}

/-- What was set under a key is gone when the key is removed, and no trace of it is left. -/
theorem erase_insert (t : Table α) (key : String) (value : α) :
    (t.insert key value).erase key = t.erase key := by
  induction t with
  | nil => simp [insert, erase]
  | cons entry rest ih =>
    obtain ⟨known, old⟩ := entry
    unfold erase at ih ⊢
    by_cases same : known = key
    · simp [insert, same]
    · rw [insert, if_neg same, List.filter_cons, List.filter_cons, ih]

theorem erase_erase (t : Table α) (key : String) : (t.erase key).erase key = t.erase key := by
  simp [erase]

end Table

namespace Users

/-- The table in a field of a caller's entry, empty if there is none. -/
def tableOf (users : Entries) (key field : String) : Table Document :=
  (tableAt? (entryOrBlank users key) field).getD []

theorem tableOf_insert (users : Entries) (key field : String) (entry : Entry)
    (inner : Table Document) :
    tableOf (users.insert key (.table (entry.insert field (.table inner)))) key field = inner := by
  rw [tableOf, entryOrBlank, entryOf?_insert, if_pos rfl, Option.getD_some, tableAt?,
    Table.get?_insert, if_pos rfl]
  rfl

theorem tableOf_setIn (users : Entries) (key field name value : String) :
    tableOf (setIn users key field name value) key field =
      (tableOf users key field).insert name (.text value) :=
  tableOf_insert users key field _ _

theorem tableOf_blank {users : Entries} {key field : String} (missing : entryOf? users key = none)
    (said : field ∈ ["env", "aliases", "with"]) : tableOf users key field = [] := by
  rw [tableOf, entryOrBlank, missing, Option.getD_none]
  simp only [List.mem_cons, List.not_mem_nil, or_false] at said
  rcases said with rfl | rfl | rfl
  all_goals rfl

theorem tableOf_removeIn? (users : Entries) (key : String) {field : String}
    (said : field ∈ ["env", "aliases", "with"]) (name : String) :
    tableOf ((removeIn? users key field name).getD users) key field =
      (tableOf users key field).erase name := by
  unfold removeIn?
  cases held : entryOf? users key with
  | none =>
    rw [Option.bind_eq_bind, Option.bind_none, Option.getD_none, tableOf_blank held said]
    rfl
  | some entry =>
    have table : tableOf users key field = (tableAt? entry field).getD [] := by
      rw [tableOf, entryOrBlank_of_some held]
    rw [table]
    cases found : tableAt? entry field with
    | none =>
      simp only [Option.bind_eq_bind, Option.bind_some, found, Option.bind_none, Option.getD_none]
      rw [table, found]
      rfl
    | some inner =>
      simp only [Option.bind_eq_bind, Option.bind_some, found, Option.pure_def, Option.getD_some]
      unfold setOrPrune
      split
      · rename_i empty
        rw [eq_nil_of_isEmptyEntry said empty, tableOf_blank _ said]
        rw [entryOf?_erase, if_pos rfl]
      · exact tableOf_insert users key field entry _

theorem aliases_eq (users : Entries) (key : String) :
    aliases users key = (tableOf users key "aliases").filterMap fun (name, value) =>
      (aliasTarget? value).map fun s => (name, s) := by
  unfold aliases tableOf entryOrBlank
  cases entryOf? users key with
  | none => rfl
  | some entry =>
    rw [Option.bind_some, Option.getD_some]
    cases tableAt? entry "aliases" with
    | none => rfl
    | some fields => rfl

/-- A caller without aliases has no command under any name. -/
theorem alias?_of_aliases {users : Entries} {key : String} (free : aliases users key = [])
    (name : String) : alias? users key name = none := by
  rw [alias?_eq, ← get?_tableAt?_entryOrBlank]
  change ((tableOf users key "aliases").get? name).bind aliasTarget? = none
  cases found : (tableOf users key "aliases").get? name with
  | none => rfl
  | some value =>
    rw [aliases_eq, List.filterMap_eq_nil_iff] at free
    exact Option.map_eq_none_iff.mp (free (name, value) (Table.mem_of_get? found))

/-- Without the entries under a name, the table is the same before and after it is set. -/
theorem tableOf_setAlias (users : Entries) (key name : String) (command : Option String) :
    (tableOf ((setAlias users key name command).getD users) key "aliases").erase name =
      (tableOf users key "aliases").erase name := by
  unfold setAlias
  cases command with
  | some command =>
    dsimp only
    rw [Option.getD_some, tableOf_setIn, Table.erase_insert]
  | none =>
    dsimp only
    rw [tableOf_removeIn? users key (by decide), Table.erase_erase]

/-- A caller who had no aliases has none again when one is set and then removed. -/
theorem aliases_setAlias_removed {users : Entries} {key : String} (free : aliases users key = [])
    (name : String) (command : Option String) :
    let changed := (setAlias users key name command).getD users
    aliases ((setAlias changed key name none).getD changed) key = [] := by
  intro changed
  have table : tableOf ((setAlias changed key name none).getD changed) key "aliases" =
      (tableOf users key "aliases").erase name := by
    rw [← tableOf_setAlias users key name command]
    exact tableOf_removeIn? changed key (by decide) name
  rw [aliases_eq, List.filterMap_eq_nil_iff] at free ⊢
  intro entry member
  rw [table] at member
  exact free entry (List.mem_of_mem_filter member)

/-! ### Scopes -/

theorem scopesIn_of_isEmptyEntry {entry : Entry} (empty : isEmptyEntry entry = true) :
    scopesIn entry = [] := by
  have falsy := List.all_eq_true.mp (Bool.and_eq_true_iff.mp empty).2 "with" (by decide)
  unfold scopesIn listAt?
  cases found : entry.get? "with" with
  | none => rfl
  | some value =>
    rw [found] at falsy
    cases value with
    | list items =>
      obtain rfl : items = [] := by simpa [Datum.truthy] using falsy
      rfl
    | _ => rfl

/-- Changing another field than that of the scopes changes no scopes. -/
theorem scopes_of_fieldChange {users changed : Entries} {key field : String}
    (apart : field ≠ "with") (change : FieldChange users key field changed) :
    scopes changed key = scopes users key := by
  have unseen (entry : Entry) (value : Document) :
      scopesIn (entry.insert field value) = scopesIn entry := by
    rw [scopesIn, listAt?, Table.get?_insert, if_neg apart]
    rfl
  rw [scopes_eq, scopes_eq]
  exact view_of_fieldChange unseen (fun _ empty => (scopesIn_of_isEmptyEntry empty).trans rfl)
    change

end Users

namespace Action

variable {key : String} {users : Users.Entries}

/-- What setting or removing an alias makes of the entries. -/
def aliasSet (key name : String) (command : Option String) (users : Users.Entries) :
    Users.Entries :=
  ((setAlias name command).edit? key users).getD users

theorem aliasSet_eq (name : String) (command : Option String) :
    aliasSet key name command users =
      if Text.strip name = "" then users
      else (Users.setAlias users key (Text.strip name)
        ((command.map Text.strip).filter (· ≠ ""))).getD users := by
  rw [aliasSet, edit?]
  split
  · rfl
  · rfl

theorem aliases_aliasSet_removed (free : Users.aliases users key = []) (name : String)
    (command : Option String) :
    Users.aliases (aliasSet key name none (aliasSet key name command users)) key = [] := by
  rw [aliasSet_eq, aliasSet_eq name command]
  split
  · exact free
  · exact Users.aliases_setAlias_removed free _ _

/-- What a name stands for where one alias was set and there were none before. -/
theorem alias?_aliasSet (free : Users.aliases users key = []) (name target other : String) :
    Users.alias? (aliasSet key name (some target) users) key other = none ∨
      Text.strip name = other ∧
        Users.alias? (aliasSet key name (some target) users) key other =
          some (Text.strip target) := by
  have before := Users.alias?_of_aliases free other
  have filled : (some (Text.strip target)).filter (· ≠ "") ≠ some "" := by
    intro same
    exact of_decide_eq_true (Option.filter_eq_some_iff.mp same).2 rfl
  rw [aliasSet_eq]
  split
  · exact .inl before
  · rw [Option.map_some, Users.alias?_setAlias _ _ _ _ filled, before]
    by_cases same : Text.strip name = other
    · rw [if_pos same]
      by_cases blank : Text.strip target = ""
      · exact .inl (by simp [blank])
      · exact .inr ⟨same, by simp [blank]⟩
    · exact .inl (if_neg same)

theorem scopes_aliasSet (name : String) (command : Option String) :
    Users.scopes (aliasSet key name command users) key = Users.scopes users key := by
  unfold aliasSet
  cases edited : (setAlias name command).edit? key users with
  | none => rfl
  | some changed =>
    obtain ⟨field, named, change⟩ := fieldChange_of_edit? edited
    obtain rfl : "aliases" = field := Option.some.inj named
    exact Users.scopes_of_fieldChange (by decide) change

theorem level?_aliasSet (name : String) (command : Option String) :
    Users.level? (aliasSet key name command users) key = Users.level? users key := by
  rw [aliasSet_eq]
  split
  · rfl
  · cases edited : Users.setAlias users key (Text.strip name)
        ((command.map Text.strip).filter (· ≠ "")) with
    | none => rfl
    | some changed => exact Users.keepsLevels_setAlias key _ _ users changed edited key

end Action
end Switchboard
