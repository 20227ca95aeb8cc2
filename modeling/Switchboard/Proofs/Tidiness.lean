import Switchboard.Proofs.EntryField
import Switchboard.Proofs.SyncedStore

/-!
Variables that are shown by one text whether or not their fields are put in ascending order. Callers
can set no others, and a state that was saved has no others; so a caller whose variables are tidy
cannot tell what a store has in memory from what its file describes.
-/
namespace Switchboard

open Json

namespace Json

/-- Whether a datum is shown by one text before and after its fields are put in ascending order. -/
def IsTidy (d : Document) : Prop :=
  (sortFields d).display = d.display

theorem isTidy_text (s : String) : IsTidy (.text s) := rfl

theorem isTidy_of_sorted {d : Document} (sorted : sortFields d = d) : IsTidy d :=
  congrArg Datum.display sorted

/-- Twins that are tidy are shown by one text. -/
theorem Twin.display_eq {a b : Document} (twin : Twin a b) (tidy : IsTidy a)
    (tidyOther : IsTidy b) : a.display = b.display := by
  calc
    a.display = (sortFields a).display := tidy.symm
    _ = (sortFields b).display := congrArg Datum.display twin.same
    _ = b.display := tidyOther

/-- What stands in a table in ascending order is in ascending order. -/
theorem sortFields_of_get? {fields : Table Document} (spellable : Spellable (.table fields))
    (sorted : sortFields (.table fields) = .table fields) {key : String} {d : Document}
    (found : fields.get? key = some d) : sortFields d = d := by
  cases spellable with
  | table once all =>
    have onceSorted :
        (Table.keys (fields.map fun field => (field.1, sortFields field.2))).Nodup := by
      rwa [Table.keys_map]
    rw [sortFields_table] at sorted
    have same : (fields.get? key).map sortFields = fields.get? key := by
      rw [← Table.get?_map, ← Table.get?_sorted onceSorted, Datum.table.inj sorted]
    rw [found] at same
    exact Option.some.inj same

end Json

namespace Users

variable {users others : Entries} {key : String}

/-- Entries in which all variables of a caller are tidy. -/
def AreTidy (users : Entries) (key : String) : Prop :=
  ∀ name d, fieldAt? users key "env" name = some d → IsTidy d

theorem get?_variablesOf (users : Entries) (key name : String) :
    (variablesOf users key).get? name = fieldAt? users key "env" name :=
  get?_tableAt?_entryOrBlank users key "env" name

theorem AreTidy.of_variablesOf (tidy : AreTidy users key)
    (same : variablesOf others key = variablesOf users key) : AreTidy others key := by
  intro name d found
  apply tidy name d
  rw [← get?_variablesOf, ← same, get?_variablesOf]
  exact found

/-- Setting or removing a variable leaves the others tidy, and what is set is a text. -/
theorem AreTidy.setVariable (tidy : AreTidy users key) (name : String) (value : Option String) :
    AreTidy ((Users.setVariable users key name value).getD users) key := by
  intro other d found
  cases value with
  | some value =>
    rw [Users.setVariable, Option.getD_some, fieldAt?_setIn] at found
    split at found
    · obtain rfl := Option.some.inj found
      exact isTidy_text value
    · exact tidy other d found
  | none =>
    rw [Users.setVariable, fieldAt?_removeIn? users key (by decide)] at found
    split at found
    · cases found
    · exact tidy other d found

/-- No action makes a variable untidy. -/
theorem AreTidy.edit? {about : String} (tidy : AreTidy users key) (action : Action) :
    AreTidy ((action.edit? about users).getD users) key := by
  by_cases untouched : about = key → action.field? ≠ some "env"
  · exact tidy.of_variablesOf (variablesOf_edit? action about key users untouched)
  · obtain ⟨rfl, env⟩ := Classical.not_imp.mp untouched
    cases action with
    | setVariable name value =>
      rw [Action.edit?]
      split
      · exact tidy
      · exact tidy.setVariable _ value
    | _ => exact absurd env (by simp [Action.field?])

/-- Entries in ascending order have tidy variables. -/
theorem areTidy_of_sorted (spellable : Spellable (.table users))
    (sorted : sortFields (.table users) = .table users) (key : String) : AreTidy users key := by
  intro name d found
  obtain ⟨fields, tables, here⟩ := Option.bind_eq_some_iff.mp found
  obtain ⟨entry, held, inner⟩ := Option.bind_eq_some_iff.mp tables
  -- The entry, its table of variables and the variable stand in tables, one in the other.
  have outer {t fields : Table Document} {key : String} (spellable : Spellable (.table t))
      (sorted : sortFields (.table t) = .table t) (held : tableAt? t key = some fields) :
      Spellable (.table fields) ∧ sortFields (.table fields) = .table fields := by
    unfold tableAt? at held
    split at held
    · rename_i found
      obtain rfl := Option.some.inj held
      refine ⟨?_, sortFields_of_get? spellable sorted found⟩
      cases spellable with
      | table once all => exact all (key, _) (Table.mem_of_get? found)
    · cases held
  obtain ⟨spellableEntry, sortedEntry⟩ := outer spellable sorted held
  obtain ⟨spellableFields, sortedFields⟩ := outer spellableEntry sortedEntry inner
  exact isTidy_of_sorted (sortFields_of_get? spellableFields sortedFields here)

theorem fieldAt?_twins (twins : Table.Related Twin users others) (key field name : String) :
    Option.Rel Twin (fieldAt? users key field name) (fieldAt? others key field name) := by
  have tables := Table.rel_bind (entryOf?_twins twins key) fun _ _ twinEntries =>
    tableAt?_twins twinEntries field
  exact Table.rel_bind tables fun _ _ twinFields => twinFields.values name

theorem get?_environment (users : Entries) (key name : String) :
    (environment users key).get? name = (fieldAt? users key "env" name).map Datum.display := by
  rw [environment_eq, Table.get?_map, get?_variablesOf]

/-- Twins with tidy variables show them by the same texts. -/
theorem environment_of_twins (twins : Table.Related Twin users others) (tidy : AreTidy users key)
    (tidyOther : AreTidy others key) :
    Table.Related Eq (environment users key) (environment others key) := by
  have shown : Table.Related ShowTwins (environment users key) (environment others key) :=
    Table.rel_getD (variables?_twins twins key) (.refl List.nodup_nil nofun)
  refine ⟨shown.once, shown.onceOther, fun name => ?_⟩
  rw [get?_environment, get?_environment]
  have values := fieldAt?_twins twins key "env" name
  have texts := tidy name
  have textsOther := tidyOther name
  generalize fieldAt? users key "env" name = a? at values texts ⊢
  generalize fieldAt? others key "env" name = b? at values textsOther ⊢
  cases values with
  | none => exact .none
  | some twin => exact .some (twin.display_eq (texts _ rfl) (textsOther _ rfl))

end Users

namespace Store

variable {store : Store} {key : String}

/-! ### What is found -/

/-- A store in which the variables of a caller are found to be tidy. -/
def IsTidy (store : Store) (key : String) : Prop :=
  ∀ users, store.found = .ok users → Users.AreTidy users key

theorem IsTidy.of_found {other : Store} (tidy : store.IsTidy key)
    (same : other.found = store.found) : other.IsTidy key := by
  intro users found
  apply tidy users
  rw [← same]
  exact found

theorem found_read {α : Type} (query : Users.Entries → α) (store : Store) :
    ((read query).run store).2.found = store.found := by
  rw [run_read]
  cases found : store.found with
  | ok users => exact (found_reloaded store).trans found
  | error failure => exact (found_looked store).trans found

theorem IsTidy.run (tidy : store.IsTidy key) (caller : CallerId) (action : Action) :
    ((action.run caller).run store).2.IsTidy key := by
  intro users found
  rw [found_run] at found
  cases known : store.found with
  | error failure =>
    rw [known] at found
    cases found
  | ok before =>
    rw [known] at found
    obtain rfl := Except.ok.inj found
    exact (tidy before known).edit? action

/-! ### What is in the file -/

/-- Whatever an operation puts into the file stands in ascending order. -/
theorem IsSynced.sorted_run (synced : store.IsSynced) {request : Request}
    (writable : request.action.IsWritable) :
    (request.run.run store).2.file = store.file ∨
      sortFields (request.run.run store).2.file.described.users =
        (request.run.run store).2.file.described.users := by
  rw [Request.run, Action.run_eq]
  split
  · exact .inl rfl
  rw [attempted]
  cases found : store.found with
  | error failure => exact .inl (file_looked store)
  | ok users =>
    dsimp only [performed]
    have twins : Table.Related Twin users users := by
      have spellable := synced.sound_reloaded.users
      rw [(found_eq_ok.mp found).2] at spellable
      exact Twin.table_iff.mp (.refl spellable)
    have edits := Action.edit?_twins writable twins (Users.key request.caller)
    generalize request.action.edit? (Users.key request.caller) users = edited at edits ⊢
    cases edits with
    | none => exact .inl (file_reloaded store)
    | @some changed _ twinChanges =>
      have spellable := (Twin.table twinChanges).left
      have sound : State.IsSound { store.reloaded.memory.state with users := .table changed } :=
        { synced.sound_reloaded with users := spellable }
      dsimp only
      rw [synced.hindrance?_withUsers]
      right
      rw [(saved_withUsers_eq store changed).1, StateFile.described_replace sound]
      exact sortFields_sortFields spellable

/-- A new store over a file finds tidy variables if the file stands in ascending order. -/
theorem isTidy_new {file : StateFile}
    (sorted : sortFields file.described.users = file.described.users) (key : String) :
    IsTidy { file } key := by
  intro users found
  have held := (found_eq_ok.mp found).2
  rw [state_reloaded (isBehind_new file)] at held
  dsimp only at held
  rw [held] at sorted
  exact Users.areTidy_of_sorted (held ▸ file.isSound_described.users) sorted key

/-- Two stores over one file find twins. -/
theorem found_twins {one other : Store} (synced : one.IsSynced) (syncedOther : other.IsSynced)
    (file : one.file = other.file) :
    (∃ users others, one.found = .ok users ∧ other.found = .ok others ∧
        Table.Related Twin users others) ∨
      ∃ failure, one.found = .error failure ∧ other.found = .error failure := by
  have alike : one.reloaded.memory.state.Alike other.reloaded.memory.state := by
    have described := syncedOther.alike_reloaded.symm
    rw [← file] at described
    exact synced.alike_reloaded.trans described
  rw [found_eq synced.plain.obstacle?, found_eq syncedOther.plain.obstacle?]
  exact entriesIn_twins alike.users

end Store
end Switchboard
