import Switchboard.Bot.Basic
import Switchboard.Proofs.Work

/-!
The levels that a store has for callers. Only an assignment of a level changes one, and it changes
the level of every id with the same key; every other change of the store keeps all levels.
-/
namespace Switchboard

namespace Users

/-- The level in an entry, if one is set. -/
def levelIn (entry : Entry) : Option Int :=
  match entry.get? "perm" with
  | some (.int n) => some n
  | _ => none

theorem level?_eq (users : Entries) (key : String) :
    level? users key = (entryOf? users key).bind levelIn := rfl

theorem entryOf?_insert (users : Entries) (key other : String) (entry : Entry) :
    entryOf? (users.insert key (.table entry)) other =
      if key = other then some entry else entryOf? users other := by
  rw [entryOf?, Table.get?_insert]
  by_cases same : key = other
  · simp [same]
  · simp [same, entryOf?]

theorem entryOf?_erase (users : Entries) (key other : String) :
    entryOf? (users.erase key) other = if key = other then none else entryOf? users other := by
  rw [entryOf?, Table.get?_erase]
  by_cases same : key = other
  · simp [same]
  · simp [same, entryOf?]

theorem level?_insert (users : Entries) (key other : String) (entry : Entry) :
    level? (users.insert key (.table entry)) other =
      if key = other then levelIn entry else level? users other := by
  rw [level?_eq, entryOf?_insert]
  by_cases same : key = other
  · simp [same]
  · simp [same, level?_eq]

/-- An entry that says nothing holds no level, so nothing is lost when it is removed. -/
theorem levelIn_of_isEmptyEntry {entry : Entry} (empty : isEmptyEntry entry = true) :
    levelIn entry = none := by
  have unset := (Bool.and_eq_true_iff.mp empty).1
  unfold levelIn
  split at unset
  · rename_i missing
    rw [missing]
  · rename_i null
    rw [null]
  · cases unset

theorem level?_setOrPrune (users : Entries) (key other : String) (entry : Entry) :
    level? (setOrPrune users key entry) other =
      if key = other then levelIn entry else level? users other := by
  unfold setOrPrune
  by_cases empty : isEmptyEntry entry = true
  · rw [if_pos empty, level?_eq, entryOf?_erase, levelIn_of_isEmptyEntry empty]
    by_cases same : key = other
    · simp [same]
    · simp [same, level?_eq]
  · rw [if_neg empty, level?_insert]

theorem levelIn_insert {field : String} (apart : field ≠ "perm") (entry : Entry) (d : Document) :
    levelIn (entry.insert field d) = levelIn entry := by
  rw [levelIn, Table.get?_insert, if_neg apart, levelIn]

theorem levelIn_entryOrBlank (users : Entries) (key : String) :
    levelIn (entryOrBlank users key) = level? users key := by
  rw [entryOrBlank, level?_eq]
  cases entryOf? users key with
  | none => rfl
  | some entry => rfl

theorem levelIn_of_entryOf? {users : Entries} {key : String} {entry : Entry}
    (found : entryOf? users key = some entry) : levelIn entry = level? users key := by
  rw [level?_eq, found, Option.bind_some]

/-- An entry with another field set differs in no level from the one that it replaces. -/
theorem level?_insert_field {users : Entries} {key field : String} {entry : Entry}
    (apart : field ≠ "perm") (held : levelIn entry = level? users key) (d : Document)
    (other : String) :
    level? (users.insert key (.table (entry.insert field d))) other = level? users other := by
  rw [level?_insert, levelIn_insert apart, held]
  by_cases same : key = other
  · rw [if_pos same, same]
  · rw [if_neg same]

theorem level?_setOrPrune_field {users : Entries} {key field : String} {entry : Entry}
    (apart : field ≠ "perm") (found : entryOf? users key = some entry) (d : Document)
    (other : String) :
    level? (setOrPrune users key (entry.insert field d)) other = level? users other := by
  rw [level?_setOrPrune, levelIn_insert apart, levelIn_of_entryOf? found]
  by_cases same : key = other
  · rw [if_pos same, same]
  · rw [if_neg same]

/-- A change of the entries that keeps every level. -/
def KeepsLevels (edit : Entries → Option Entries) : Prop :=
  ∀ users changed, edit users = some changed → ∀ key, level? changed key = level? users key

theorem keepsLevels_setIn {field : String} (apart : field ≠ "perm") (key name value : String) :
    KeepsLevels fun users => some (setIn users key field name value) := by
  intro users changed done other
  obtain rfl := Option.some.inj done
  exact level?_insert_field apart (levelIn_entryOrBlank users key) _ other

theorem keepsLevels_removeIn? {field : String} (apart : field ≠ "perm") (key name : String) :
    KeepsLevels fun users => removeIn? users key field name := by
  intro users changed done other
  obtain ⟨entry, found, more⟩ := Option.bind_eq_some_iff.mp done
  obtain ⟨inner, -, same⟩ := Option.bind_eq_some_iff.mp more
  obtain rfl := Option.some.inj same
  exact level?_setOrPrune_field apart found _ other

theorem keepsLevels_setVariable (key name : String) (value : Option String) :
    KeepsLevels fun users => setVariable users key name value := by
  cases value with
  | none => exact keepsLevels_removeIn? (by decide) key name
  | some value => exact keepsLevels_setIn (by decide) key name value

theorem keepsLevels_setAlias (key name : String) (command : Option String) :
    KeepsLevels fun users => setAlias users key name command := by
  cases command with
  | none => exact keepsLevels_removeIn? (by decide) key name
  | some command => exact keepsLevels_setIn (by decide) key name command

theorem keepsLevels_addScope (key scope : String) :
    KeepsLevels fun users => addScope users key scope := by
  intro users changed done other
  dsimp only [addScope] at done
  split at done
  · cases done
  · obtain rfl := Option.some.inj done
    exact level?_insert_field (by decide) (levelIn_entryOrBlank users key) _ other

theorem keepsLevels_removeScope (key scope : String) :
    KeepsLevels fun users => removeScope users key scope := by
  intro users changed done other
  obtain ⟨entry, found, more⟩ := Option.bind_eq_some_iff.mp done
  obtain ⟨items, -, same⟩ := Option.bind_eq_some_iff.mp more
  split at same
  · obtain rfl := Option.some.inj same
    exact level?_setOrPrune_field (by decide) found _ other
  · cases same

/-- Assigning a level sets the level of its key and no other; where there is nothing to save, the
key has no level as it is. -/
theorem level?_setLevel (users : Entries) (key other : String) (level : Option Int) :
    level? ((setLevel users key level).getD users) other =
      if key = other then level else level? users other := by
  cases level with
  | some n =>
    simp only [setLevel, Option.getD_some]
    rw [level?_insert, levelIn, Table.get?_insert, if_pos rfl]
  | none =>
    simp only [setLevel]
    cases found : entryOf? users key with
    | some entry =>
      simp only [Option.map_some, Option.getD_some]
      rw [level?_setOrPrune, levelIn, Table.get?_insert, if_pos rfl]
    | none =>
      simp only [Option.map_none, Option.getD_none]
      by_cases same : key = other
      · rw [if_pos same, ← same, level?_eq, found, Option.bind_none]
      · rw [if_neg same]

end Users

namespace Store

open Work

/-- The entries that an operation finds, if it finds any. -/
def users? (store : Store) : Option Users.Entries :=
  match store.file.obstacle?, store.reloaded.memory.state.users with
  | none, .table users => some users
  | _, _ => none

@[simp] theorem file_reloaded (store : Store) : store.reloaded.file = store.file := by
  unfold reloaded
  repeat' split
  all_goals rfl

/-- A store whose memory goes with the file that is there, or with there being none. -/
def IsCurrent (store : Store) : Prop :=
  store.memory.seen = store.file.time?

theorem reloaded_of_isCurrent {store : Store} (current : store.IsCurrent) :
    store.reloaded = store := by
  unfold reloaded
  cases content : store.file.content with
  | none => simp_all [IsCurrent, StateFile.time?]
  | some found => simp_all [IsCurrent, StateFile.time?]

theorem isCurrent_reloaded (store : Store) : store.reloaded.IsCurrent := by
  unfold IsCurrent
  rw [file_reloaded]
  cases content : store.file.content with
  | none =>
    by_cases seen : store.memory.seen.isSome = true
    · simp [reloaded, StateFile.time?, content, seen]
    · simp_all [reloaded, StateFile.time?]
  | some found =>
    by_cases seen : store.memory.seen = some store.file.stamp
    · simp [reloaded, StateFile.time?, content, seen]
    · cases read : State.ofContent found <;> simp [reloaded, StateFile.time?, content, seen, read]

/-- A store that has just looked at its file finds nothing new in it. -/
@[simp] theorem reloaded_reloaded (store : Store) : store.reloaded.reloaded = store.reloaded :=
  reloaded_of_isCurrent (isCurrent_reloaded store)

theorem users?_reloaded (store : Store) : store.reloaded.users? = store.users? := by
  simp only [users?, file_reloaded, reloaded_reloaded]

/-- What has been logged has no bearing on what is found. -/
theorem memory_reloaded_log (store : Store) (log : List Event) :
    ({ store with log } : Store).reloaded.memory = store.reloaded.memory := by
  unfold reloaded
  dsimp only
  repeat' split
  all_goals rfl

theorem users?_log (store : Store) (log : List Event) :
    ({ store with log } : Store).users? = store.users? := by
  simp only [users?, memory_reloaded_log]

theorem run_reload (store : Store) :
    reload.run store =
      match store.file.obstacle? with
      | some obstacle => (.error (.unreachable store.file.path obstacle), store)
      | none => (.ok (), store.reloaded) := by
  simp only [reload, run_bind, run_get]
  cases store.file.obstacle? with
  | some obstacle => rfl
  | none => rfl

theorem run_entries (store : Store) (users : Users.Entries)
    (found : store.memory.state.users = .table users) : entries.run store = (.ok users, store) := by
  simp only [entries, run_bind, run_get, found, run_pure]

theorem run_entries_error (store : Store)
    (foreign : ∀ users, store.memory.state.users ≠ .table users) :
    ∃ failure, entries.run store = (.error failure, store) := by
  simp only [entries, run_bind, run_get]
  exact ⟨_, rfl⟩

/-- An operation that finds no entries fails before it does anything to them. -/
theorem run_reload_entries_none {store : Store} (missing : store.users? = none) {α : Type}
    (next : Users.Entries → StoreM α) :
    ∃ failure later, (reload >>= fun _ => entries >>= next).run store = (.error failure, later) ∧
      later.users? = none := by
  rw [run_bind, run_reload]
  cases obstacle : store.file.obstacle? with
  | some cause => exact ⟨_, store, rfl, missing⟩
  | none =>
    have foreign : ∀ users, store.reloaded.memory.state.users ≠ .table users := by
      intro users found
      simp [users?, obstacle, found] at missing
    obtain ⟨failure, failed⟩ := run_entries_error store.reloaded foreign
    refine ⟨failure, store.reloaded, ?_, ?_⟩
    · exact run_bind_error next failed
    · rw [users?_reloaded, missing]

theorem run_reload_entries_some {store : Store} {users : Users.Entries}
    (found : store.users? = some users) {α : Type} (next : Users.Entries → StoreM α) :
    (reload >>= fun _ => entries >>= next).run store = (next users).run store.reloaded := by
  rw [users?] at found
  split at found
  · rename_i other reachable table
    obtain rfl := Option.some.inj found
    rw [run_bind, run_reload, reachable]
    exact run_bind_ok next (run_entries _ _ table)
  · cases found

theorem run_read_some {store : Store} {users : Users.Entries} (found : store.users? = some users)
    {α : Type} (query : Users.Entries → α) :
    (read query).run store = (.ok (query users), store.reloaded) := by
  exact run_reload_entries_some found _

theorem run_read_none {store : Store} (missing : store.users? = none) {α : Type}
    (query : Users.Entries → α) :
    ∃ failure later, (read query).run store = (.error failure, later) ∧ later.users? = none :=
  run_reload_entries_none missing _

/-- Reading changes nothing that is found later. -/
theorem keeps_users?_read {α : Type} (query : Users.Entries → α) : Keeps users? (read query) := by
  intro store
  cases found : store.users? with
  | some users => rw [run_read_some found, users?_reloaded, found]
  | none =>
    obtain ⟨failure, later, failed, missing⟩ := run_read_none found query
    rw [failed, missing]

theorem users?_eq_some {store : Store} {users : Users.Entries} :
    store.users? = some users ↔
      store.file.obstacle? = none ∧ store.reloaded.memory.state.users = .table users := by
  constructor
  · intro found
    rw [users?] at found
    split at found
    · rename_i other reachable table
      obtain rfl := Option.some.inj found
      exact ⟨reachable, table⟩
    · cases found
  · rintro ⟨reachable, table⟩
    simp only [users?, reachable, table]

theorem run_save (store : Store) :
    save.run store =
      match store.hindrance? with
      | some failure => (.error failure, store)
      | none => (.ok ⟨⟩, store.saved) := by
  simp only [save, run_bind, run_get]
  cases store.hindrance? with
  | some failure => rfl
  | none => rfl

theorem isCurrent_saved (store : Store) : store.saved.IsCurrent := rfl

/-- Saving keeps what is found, also where nothing can be saved. -/
theorem users?_save {store : Store} {users : Users.Entries} (current : store.IsCurrent)
    (reachable : store.file.obstacle? = none)
    (held : store.memory.state.users = .table users) : (save.run store).2.users? = some users := by
  rw [run_save]
  cases store.hindrance? with
  | some failure =>
    exact users?_eq_some.mpr ⟨reachable, by rw [reloaded_of_isCurrent current, held]⟩
  | none =>
    exact users?_eq_some.mpr ⟨rfl, by rw [reloaded_of_isCurrent store.isCurrent_saved]; exact held⟩

/-- A change takes effect in memory before it is saved, so a save that fails does not undo it. -/
theorem users?_change (edit : Users.Entries → Option Users.Entries) (store : Store) :
    ((change edit).run store).2.users? =
      store.users?.map fun users => (edit users).getD users := by
  cases found : store.users? with
  | none =>
    unfold change
    obtain ⟨failure, later, failed, missing⟩ := run_reload_entries_none found _
    rw [failed]
    exact missing
  | some users =>
    obtain ⟨reachable, table⟩ := users?_eq_some.mp found
    unfold change
    rw [run_reload_entries_some found]
    cases changed : edit users with
    | none =>
      simp only [run_pure, users?_reloaded, found, Option.map_some, changed, Option.getD_none]
    | some other =>
      have current : (store.reloaded.withUsers other).IsCurrent := isCurrent_reloaded store
      have kept : (save.run (store.reloaded.withUsers other)).2.users? = some other :=
        users?_save current (by rw [withUsers, file_reloaded, reachable]) rfl
      simp only [run_bind, run_modify, Option.map_some, changed, Option.getD_some]
      rcases saved : save.run (store.reloaded.withUsers other) with ⟨result, later⟩
      rw [saved] at kept
      cases result with
      | error failure => exact kept
      | ok done => exact kept

/-- The level that a caller is found to have; nothing if it cannot be read. -/
def levelNow (store : Store) (caller : CallerId) : Option Int :=
  match ((level? caller).run store).1 with
  | .ok level => level
  | .error _ => none

theorem levelNow_eq (store : Store) (caller : CallerId) :
    store.levelNow caller = store.users?.bind (Users.level? · (Users.key caller)) := by
  unfold levelNow level?
  cases found : store.users? with
  | some users => rw [run_read_some found, Option.bind_some]
  | none =>
    obtain ⟨failure, later, failed, -⟩ := run_read_none found (Users.level? · (Users.key caller))
    rw [failed, Option.bind_none]

/-- Ids with the same key have the same level. -/
theorem levelNow_congr {first second : CallerId} (same : Users.key first = Users.key second)
    (store : Store) : store.levelNow first = store.levelNow second := by
  rw [levelNow_eq, levelNow_eq, same]

theorem levelNow_of_users? {store later : Store} (same : later.users? = store.users?) :
    later.levelNow = store.levelNow := by
  funext caller
  rw [levelNow_eq, levelNow_eq, same]

theorem isSome_users?_change (edit : Users.Entries → Option Users.Entries) (store : Store) :
    ((change edit).run store).2.users?.isSome = store.users?.isSome := by
  rw [users?_change, Option.isSome_map]

/-- What assignments of levels are about: whether entries are found, and the levels in them. -/
structure Rights where
  found : Bool
  levels : CallerId → Option Int

def rights (store : Store) : Rights where
  found := store.users?.isSome
  levels := store.levelNow

theorem rights_of_users? {store later : Store} (same : later.users? = store.users?) :
    later.rights = store.rights := by
  rw [rights, rights, same, levelNow_of_users? same]

theorem keeps_rights_read {α : Type} (query : Users.Entries → α) : Keeps rights (read query) :=
  (keeps_users?_read query).weaken fun _ _ => rights_of_users?

theorem keeps_rights_change {edit : Users.Entries → Option Users.Entries}
    (kept : Users.KeepsLevels edit) : Keeps rights (change edit) := by
  intro store
  have levels : ((change edit).run store).2.levelNow = store.levelNow := by
    funext caller
    rw [levelNow_eq, levelNow_eq, users?_change]
    cases store.users? with
    | none => rfl
    | some users =>
      simp only [Option.map_some, Option.bind_some]
      cases changed : edit users with
      | none => rfl
      | some other => exact kept users other changed _
  rw [rights, rights, isSome_users?_change, levels]

theorem keeps_rights_setVariable (caller : CallerId) (name : String) (value : Option String) :
    Keeps rights (setVariable caller name value) := by
  unfold setVariable
  dsimp only
  split
  · exact (keeps_rights_change (Users.keepsLevels_setVariable _ _ _)).discard
  · exact .pure _

theorem keeps_rights_setAlias (caller : CallerId) (name : String) (command : Option String) :
    Keeps rights (setAlias caller name command) := by
  unfold setAlias
  dsimp only
  split
  · exact (keeps_rights_change (Users.keepsLevels_setAlias _ _ _)).discard
  · exact .pure _

theorem keeps_rights_addScope (caller : CallerId) (scope : String) :
    Keeps rights (addScope caller scope) := by
  unfold addScope
  dsimp only
  split
  · exact .pure _
  · exact keeps_rights_change (Users.keepsLevels_addScope _ _)

theorem keeps_rights_removeScope (caller : CallerId) (scope : String) :
    Keeps rights (removeScope caller scope) :=
  keeps_rights_change (Users.keepsLevels_removeScope _ _)

/-- Assigning a level changes that of every id with the same key, in a store that can be read. -/
theorem levelNow_setLevel (store : Store) (caller other : CallerId) (level : Option Int) :
    ((setLevel caller level).run store).2.levelNow other =
      if store.users?.isSome ∧ Users.key caller = Users.key other then level
      else store.levelNow other := by
  rw [setLevel, run_discard, levelNow_eq, levelNow_eq, users?_change]
  cases store.users? with
  | none => simp
  | some users =>
    simp only [Option.map_some, Option.bind_some, Users.level?_setLevel, Option.isSome_some,
      true_and]

end Store
end Switchboard
