import Switchboard.Proofs.StateText
import Switchboard.Proofs.TwinEntries

/-!
States that a store comes to by its own operations. Whatever texts and levels the operations are
about, what is saved is read again as the same state, but for the order of fields.
-/
namespace Switchboard

open Json Work

/-! ### What is written of a sheet -/

namespace Datum

theorem fieldsWritable_iff {fields : List (String × Document)} :
    fieldsWritable fields = true ↔ ∀ field ∈ fields, isWritable field.2 = true := by
  induction fields with
  | nil => simp [fieldsWritable]
  | cons field rest ih => simp [fieldsWritable, ih]

theorem itemsWritable_iff {items : List Document} :
    itemsWritable items = true ↔ ∀ item ∈ items, isWritable item = true := by
  induction items with
  | nil => simp [itemsWritable]
  | cons item rest ih => simp [itemsWritable, ih]

end Datum

namespace Sheet

variable {sheet : Sheet}

/-- What an action can leave of a sheet. -/
inductive Leaves (sheet : Sheet) : Action → Sheet → Prop where
  | same (action : Action) : Leaves sheet action sheet
  | setVariable (name : String) (value : Option String) :
      Leaves sheet (.setVariable name value) (sheet.setVariable (Text.strip name) value)
  | setLevel (wanted : Option Int) : Leaves sheet (.setLevel wanted) { sheet with level := wanted }
  | setAlias (name : String) (wanted : Option String) (filled : command ≠ "") :
      Leaves sheet (.setAlias name wanted) (sheet.setAlias (Text.strip name) command filled)
  | removeAlias (name : String) (wanted : Option String) :
      Leaves sheet (.setAlias name wanted) (sheet.removeAlias (Text.strip name))
  | addScope (scope : String) (filled : Text.strip scope ≠ "")
      (fresh : Text.strip scope ∉ sheet.scopes) :
      Leaves sheet (.addScope scope) (sheet.addScope (Text.strip scope) filled fresh)
  | removeScope (scope : String) :
      Leaves sheet (.removeScope scope) (sheet.removeScope (Text.strip scope))

theorem leaves_act (sheet : Sheet) (action : Action) :
    sheet.Leaves action (action.act sheet).2 := by
  cases action with
  | environment | level | command | aliases | scopes => exact .same _
  | setLevel wanted => exact .setLevel wanted
  | removeScope scope => exact .removeScope scope
  | setVariable name value =>
    unfold Action.act
    dsimp only
    split
    · exact .same _
    · exact .setVariable name value
  | setAlias name wanted =>
    unfold Action.act
    dsimp only
    split
    · exact .same _
    split
    · exact .setAlias name wanted _
    · exact .removeAlias name wanted
  | addScope scope =>
    unfold Action.act
    dsimp only
    split
    · rename_i added
      exact .addScope scope added.1 added.2
    · exact .same _

/-- A sheet that has each variable and each alias once. -/
structure HasNamesOnce (sheet : Sheet) : Prop where
  environment : (Table.keys sheet.environment).Nodup
  aliases : (Table.keys sheet.aliases).Nodup

theorem HasNamesOnce.act (once : sheet.HasNamesOnce) (action : Action) :
    (action.act sheet).2.HasNamesOnce := by
  have leaves := sheet.leaves_act action
  generalize (action.act sheet).2 = later at leaves ⊢
  cases leaves with
  | same => exact once
  | setVariable name value =>
    cases value with
    | some value => exact ⟨Table.nodup_keys_insert once.environment _ value, once.aliases⟩
    | none => exact ⟨Table.nodup_keys_erase once.environment _, once.aliases⟩
  | setAlias => exact ⟨once.environment, Table.nodup_keys_insert once.aliases _ _⟩
  | removeAlias => exact ⟨once.environment, Table.nodup_keys_erase once.aliases _⟩
  | setLevel | addScope | removeScope => exact ⟨once.environment, once.aliases⟩

/-- Whether the level of a sheet, if it has one, can be written. -/
def HasWritableLevel (sheet : Sheet) : Prop :=
  ∀ n ∈ sheet.level, hasWritableDigits n = true

theorem HasWritableLevel.act (level : sheet.HasWritableLevel) {action : Action}
    (writable : action.IsWritable) : (action.act sheet).2.HasWritableLevel := by
  have leaves := sheet.leaves_act action
  generalize (action.act sheet).2 = later at leaves ⊢
  cases leaves with
  | setLevel wanted => exact writable
  | same | setVariable | setAlias | removeAlias | addScope | removeScope => exact level

theorem isWritable_texts (t : Table String) : Datum.isWritable (.table (Table.texts t)) = true := by
  rw [Datum.isWritable, Datum.fieldsWritable_iff]
  intro field member
  obtain ⟨entry, -, rfl⟩ := List.mem_map.mp member
  rfl

/-- The level is all of a sheet that may be impossible to write. -/
theorem isWritable_document :
    Datum.isWritable (.table sheet.document) = true ↔ sheet.HasWritableLevel := by
  have scopes : Datum.isWritable (.list (sheet.scopes.map .text)) = true := by
    rw [Datum.isWritable, Datum.itemsWritable_iff]
    intro item member
    obtain ⟨scope, -, rfl⟩ := List.mem_map.mp member
    rfl
  rw [Datum.isWritable, Datum.fieldsWritable_iff, document]
  simp only [List.forall_mem_cons, isWritable_texts, scopes]
  cases level : sheet.level with
  | none => simp [HasWritableLevel, level, Datum.isWritable]
  | some n => simp [HasWritableLevel, level, Datum.isWritable]

theorem spellable_texts {t : Table String} (once : (Table.keys t).Nodup) :
    Spellable (.table (Table.texts t)) := by
  refine .table ?_ ?_
  · rwa [Table.texts, Table.keys_map]
  · intro field member
    obtain ⟨entry, -, rfl⟩ := List.mem_map.mp member
    exact .text entry.2

theorem spellable_scopes (scopes : List String) : Spellable (.list (scopes.map .text)) := by
  apply Spellable.list
  intro item member
  obtain ⟨scope, -, rfl⟩ := List.mem_map.mp member
  exact .text scope

theorem spellable_document (once : sheet.HasNamesOnce) (writable : sheet.HasWritableLevel) :
    Spellable (.table sheet.document) := by
  have level : Spellable (sheet.level.elim .null .int) := by
    cases same : sheet.level with
    | none => exact .null
    | some n => exact .int (writable n same)
  have fields : ["env", "perm", "aliases", "with"].Nodup := by decide
  refine .table fields ?_
  simp [document, spellable_texts once.environment, level, spellable_texts once.aliases,
    spellable_scopes sheet.scopes]

end Sheet

/-- What holds of all sheets, and is kept by each action on a sheet, holds of them to the end. -/
theorem Sheets.forall_run {p : Sheet → Prop} {sheets : Sheets} {requests : List Request}
    (kept : ∀ request ∈ requests, ∀ sheet, p sheet → p (request.action.act sheet).2)
    (all : ∀ key, p (sheets key)) : ∀ key, p ((sheets.run requests).2 key) := by
  induction requests generalizing sheets with
  | nil => exact all
  | cons request rest ih =>
    obtain ⟨first, further⟩ := List.forall_mem_cons.mp kept
    refine ih further fun key => ?_
    by_cases own : key = request.key
    · rw [own, Function.update_self]
      exact first _ (all request.key)
    · rw [Function.update_of_ne own]
      exact all key

namespace Users.Represents

variable {users : Entries} {sheets : Sheets}

/-- Each entry is the document of the sheet under its key. -/
theorem document_of_mem (represents : Represents users sheets) {entry : String × Document}
    (member : entry ∈ users) : entry.2 = .table (sheets entry.1).document := by
  have found := Table.get?_of_mem represents.once member
  rw [represents.entries, Sheet.kept?] at found
  split at found
  · cases found
  · exact (Option.some.inj found).symm

/-- The entries can be written exactly if all levels can. -/
theorem isWritable_iff (represents : Represents users sheets) :
    Datum.isWritable (.table users) = true ↔ ∀ key, (sheets key).HasWritableLevel := by
  rw [Datum.isWritable, Datum.fieldsWritable_iff]
  constructor
  · intro all key n level
    have filled : ¬ (sheets key).IsBlank := by
      intro blank
      rw [Option.mem_def, blank.2.1] at level
      cases level
    have found : users.get? key = some (.table (sheets key).document) := by
      rw [represents.entries, Sheet.kept?, if_neg filled]
    exact Sheet.isWritable_document.mp (all _ (Table.mem_of_get? found)) n level
  · intro all entry member
    rw [represents.document_of_mem member, Sheet.isWritable_document]
    exact all entry.1

theorem spellable (represents : Represents users sheets) (once : ∀ key, (sheets key).HasNamesOnce)
    (writable : ∀ key, (sheets key).HasWritableLevel) : Spellable (.table users) := by
  refine .table represents.once fun entry member => ?_
  rw [represents.document_of_mem member]
  exact Sheet.spellable_document (once entry.1) (writable entry.1)

end Users.Represents

/-! ### What a store comes to -/

namespace Store

variable {store : Store} {sheets : Sheets}

theorem Holds.found {users : Users.Entries} (holds : store.Holds users) :
    store.found = .ok users := by
  refine found_eq_ok.mpr ⟨?_, ?_⟩
  · rw [StateFile.obstacle?]
    rcases holds.mirrored with missing | mirrored
    · rw [missing]
    · rw [mirrored]
  · rw [reloaded_of_isCurrent holds.current, holds.users]

/-- A store that no one else writes to goes on with the version of its state. -/
theorem isCurrent_run (current : store.IsCurrent) (request : Request) :
    (request.run.run store).2.IsCurrent ∧
      (request.run.run store).2.memory.state.version = store.memory.state.version := by
  have same := reloaded_of_isCurrent current
  have looked : store.looked = store := by
    unfold Store.looked
    split
    · rfl
    · exact same
  rw [Request.run, Action.run_eq]
  split
  · exact ⟨current, rfl⟩
  unfold attempted
  cases store.found with
  | error failure => exact looked.symm ▸ ⟨current, rfl⟩
  | ok users =>
    dsimp only [performed]
    rw [same]
    cases request.action.edit? (Users.key request.caller) users with
    | none => exact ⟨current, rfl⟩
    | some changed =>
      dsimp only
      cases (store.withUsers changed).hindrance? with
      | some failure => exact ⟨current, rfl⟩
      | none => exact ⟨isCurrent_saved _, rfl⟩

end Store

/-- What an action makes of entries keeps what it makes of the sheets. -/
theorem Users.Represents.edit? {users : Users.Entries} {sheets : Sheets}
    (represents : Users.Represents users sheets) (caller : CallerId) (action : Action) :
    Users.Represents ((action.edit? (Users.key caller) users).getD users)
      (Function.update sheets (Users.key caller)
        (action.act (sheets (Users.key caller))).2) := by
  -- A store that can save comes to the same entries.
  let store : Store := { memory := { state := { users := .table users } } }
  have roomy : ({} : StateFile).isDraftOverlong = false := by decide +kernel
  have holds : store.Holds users := {
    current := rfl, mirrored := .inl rfl, steady := rfl, roomy, users := rfl }
  obtain ⟨later, ran, changed, held, shown⟩ := action.gives_run ⟨users, holds, represents⟩ caller
  have found := Store.found_run caller action store
  rw [ran, holds.found, held.found] at found
  obtain rfl := Except.ok.inj found
  exact shown

namespace Store

variable {store : Store} {sheets : Sheets}

/-- A store with a state of its own making: it keeps the sheets under all keys, in its version, and
knows its file. -/
structure Carries (store : Store) (sheets : Sheets) : Prop where
  current : store.IsCurrent
  version : store.memory.state.version = .int 1
  shows : ∃ users, store.found = .ok users ∧ Users.Represents users sheets

theorem carries_new (blank : store.memory = {}) (missing : store.file.content = none) :
    store.Carries fun _ => {} := by
  have current : store.IsCurrent := by
    rw [IsCurrent, StateFile.time?, blank, missing]
    rfl
  have found : store.found = .ok [] := by
    refine found_eq_ok.mpr ⟨?_, ?_⟩
    · rw [StateFile.obstacle?, missing]
    · rw [reloaded_of_isCurrent current, blank]
  exact ⟨current, by rw [blank], [], found, List.nodup_nil, fun key => rfl⟩

theorem Carries.run (carries : store.Carries sheets) (request : Request) :
    (request.run.run store).2.Carries
      (Function.update sheets request.key (request.action.act (sheets request.key)).2) := by
  obtain ⟨current, version⟩ := isCurrent_run carries.current request
  obtain ⟨users, found, represents⟩ := carries.shows
  have later := found_run request.caller request.action store
  rw [found] at later
  exact ⟨current, version.trans carries.version, _, later,
    represents.edit? request.caller request.action⟩

/-- The store after requests that are made one after the other, whether or not some of them
fail. -/
def after : Store → List Request → Store
  | store, [] => store
  | store, request :: rest => after (request.run.run store).2 rest

theorem Carries.after (carries : store.Carries sheets) (requests : List Request) :
    (store.after requests).Carries (sheets.run requests).2 := by
  induction requests generalizing store sheets with
  | nil => exact carries
  | cons request rest ih => exact ih (carries.run request)

theorem Carries.users (carries : store.Carries sheets) :
    ∃ users, store.memory.state.users = .table users ∧ Users.Represents users sheets := by
  obtain ⟨users, found, represents⟩ := carries.shows
  have held := (found_eq_ok.mp found).2
  rw [reloaded_of_isCurrent carries.current] at held
  exact ⟨users, held, represents⟩

end Store

/-! ### What is saved -/

/-- The text that a state is saved as, if all its whole numbers can be written. -/
def State.written (state : State) : Except Failure String :=
  if state.document.isWritable then .ok state.render else .error .overlong

theorem State.written_eq_ok_iff {state : State} {text : String} :
    state.written = .ok text ↔ state.document.isWritable = true ∧ state.render = text := by
  unfold written
  split <;> simp_all

namespace Store

variable {store : Store} {sheets : Sheets}

theorem Carries.isWritable_iff (carries : store.Carries sheets) :
    store.memory.state.document.isWritable = true ↔ ∀ key, (sheets key).HasWritableLevel := by
  obtain ⟨users, held, represents⟩ := carries.users
  have version : hasWritableDigits 1 = true := by decide +kernel
  rw [← represents.isWritable_iff, State.document, carries.version, held]
  simp [Datum.isWritable, Datum.fieldsWritable, version]

theorem Carries.isSound (carries : store.Carries sheets)
    (once : ∀ key, (sheets key).HasNamesOnce)
    (writable : ∀ key, (sheets key).HasWritableLevel) : store.memory.state.IsSound := by
  obtain ⟨users, held, represents⟩ := carries.users
  refine ⟨?_, ?_, ?_⟩
  · rw [carries.version]
    rfl
  · rw [carries.version]
    exact .int (by decide +kernel)
  · rw [held]
    exact represents.spellable once writable

/-- A store that has not seen its file takes over the state that it describes, without a note. -/
theorem reloaded_of_ofContent {content : Content} {state : State}
    (read : State.ofContent content = .ok state) (there : store.file.content = some content)
    (unseen : store.memory.seen ≠ some store.file.stamp) :
    store.reloaded.memory.state = state ∧ store.reloaded.log = store.log := by
  unfold reloaded
  rw [there]
  dsimp only
  rw [if_neg unseen, read]
  exact ⟨rfl, rfl⟩

end Store
end Switchboard
