import Switchboard.Proofs.UserEntry

/-!
A store that no one else writes to gives the answers that the sheets of its callers give, whatever
is asked of it, and keeps an entry only where a sheet is not blank.
-/
namespace Switchboard

open Work

/-- What the store does for an action. -/
def Action.run (caller : CallerId) : Action → StoreM Answer
  | .environment => .environment <$> Store.variables? caller
  | .setVariable name value => (fun _ => .done) <$> Store.setVariable caller name value
  | .level => .level <$> Store.level? caller
  | .setLevel wanted => (fun _ => .done) <$> Store.setLevel caller wanted
  | .command name => .command <$> Store.alias? caller name
  | .setAlias name wanted => (fun _ => .done) <$> Store.setAlias caller name wanted
  | .aliases => .aliases <$> Store.aliases caller
  | .scopes => .scopes <$> Store.scopes caller
  | .addScope scope => .changed <$> Store.addScope caller scope
  | .removeScope scope => .changed <$> Store.removeScope caller scope

namespace Action

theorem run_setVariable (caller : CallerId) (name : String) (value : Option String) :
    (setVariable name value).run caller =
      (fun _ => .done) <$> Store.setVariable caller name value := rfl

theorem run_setLevel (caller : CallerId) (wanted : Option Int) :
    (setLevel wanted).run caller = (fun _ => .done) <$> Store.setLevel caller wanted := rfl

theorem run_setAlias (caller : CallerId) (name : String) (wanted : Option String) :
    (setAlias name wanted).run caller =
      (fun _ => .done) <$> Store.setAlias caller name wanted := rfl

theorem run_addScope (caller : CallerId) (scope : String) :
    (addScope scope).run caller = .changed <$> Store.addScope caller scope := rfl

theorem run_removeScope (caller : CallerId) (scope : String) :
    (removeScope scope).run caller = .changed <$> Store.removeScope caller scope := rfl

end Action

def Request.run (request : Request) : StoreM Answer :=
  request.action.run request.caller

namespace Store

/-- A store with entries of users that its file, if there is one, has too. -/
structure Holds (store : Store) (users : Users.Entries) : Prop where
  current : store.IsCurrent
  mirrored : store.file.content = none ∨
    store.file.content = some (.text store.memory.state.render)
  steady : store.outage = none
  roomy : store.file.isDraftOverlong = false
  users : store.memory.state.users = .table users

variable {store : Store} {users : Users.Entries}

theorem Holds.users? (holds : store.Holds users) : store.users? = some users := by
  refine users?_eq_some.mpr ⟨?_, ?_⟩
  · rcases holds.mirrored with missing | mirrored
    · rw [StateFile.obstacle?, missing]
    · rw [StateFile.obstacle?, mirrored]
  · rw [reloaded_of_isCurrent holds.current, holds.users]

theorem Holds.run_read (holds : store.Holds users) {α : Type} (query : Users.Entries → α) :
    (read query).run store = (.ok (query users), store) := by
  rw [run_read_some holds.users?, reloaded_of_isCurrent holds.current]

theorem Holds.hindrance? (holds : store.Holds users) (changed : Users.Entries) :
    (store.withUsers changed).hindrance? = none := by
  have unblocked : store.file.content ≠ some .directory := by
    rcases holds.mirrored with missing | mirrored
    · rw [missing]
      exact nofun
    · rw [mirrored]
      exact nofun
  simp [Store.hindrance?, withUsers, holds.steady, holds.roomy, unblocked]

theorem Holds.run_save (holds : store.Holds users) (changed : Users.Entries) :
    ∃ later, save.run (store.withUsers changed) = (.ok ⟨⟩, later) ∧ later.Holds changed := by
  rw [Store.run_save, holds.hindrance?]
  refine ⟨_, rfl, ?_⟩
  exact {
    current := isCurrent_saved _, mirrored := .inr rfl, steady := holds.steady
    roomy := holds.roomy, users := rfl }

theorem Holds.run_change (holds : store.Holds users)
    (edit : Users.Entries → Option Users.Entries) :
    ∃ later, (change edit).run store = (.ok (edit users).isSome, later) ∧
      later.Holds ((edit users).getD users) := by
  unfold change
  rw [run_reload_entries_some holds.users?, reloaded_of_isCurrent holds.current]
  cases edited : edit users with
  | none => exact ⟨store, rfl, holds⟩
  | some changed =>
    obtain ⟨later, saved, held⟩ := holds.run_save changed
    refine ⟨later, ?_, held⟩
    simp only [run_bind, run_modify, saved, run_pure, Option.isSome_some]

/-! ### What operations give -/

/-- A store that keeps the sheets under all keys. -/
def Shows (store : Store) (sheets : Sheets) : Prop :=
  ∃ users, store.Holds users ∧ Users.Represents users sheets

/-- Work on a store that succeeds with an answer and leaves sheets behind. -/
def Gives {α : Type} (store : Store) (work : StoreM α) (answer : α) (sheets : Sheets) : Prop :=
  ∃ later, work.run store = (.ok answer, later) ∧ later.Shows sheets

namespace Gives

variable {α β : Type} {work : StoreM α} {answer : α} {sheets : Sheets}

theorem pure (shows : store.Shows sheets) (answer : α) :
    Gives store (Pure.pure answer) answer sheets :=
  ⟨store, rfl, shows⟩

theorem map (gives : Gives store work answer sheets) (f : α → β) :
    Gives store (f <$> work) (f answer) sheets := by
  obtain ⟨later, ran, shows⟩ := gives
  refine ⟨later, ?_, shows⟩
  rw [run_map, ran]
  rfl

theorem bind {next : α → StoreM β} {final : β} {last : Sheets}
    (gives : Gives store work answer sheets)
    (goesOn : ∀ later : Store, later.Shows sheets → Gives later (next answer) final last) :
    Gives store (work >>= next) final last := by
  obtain ⟨later, ran, shows⟩ := gives
  obtain ⟨done, ranOn, showsLast⟩ := goesOn later shows
  exact ⟨done, (run_bind_ok next ran).trans ranOn, showsLast⟩

theorem read (holds : store.Holds users) (represents : Users.Represents users sheets)
    {query : Users.Entries → α} (found : query users = answer) :
    Gives store (Store.read query) answer sheets :=
  ⟨store, found ▸ holds.run_read query, users, holds, represents⟩

theorem change {last : Sheets} (holds : store.Holds users)
    (edit : Users.Entries → Option Users.Entries) {edited : Option Users.Entries}
    (edits : edit users = edited) (represents : Users.Represents (edited.getD users) last) :
    Gives store (Store.change edit) edited.isSome last := by
  subst edits
  obtain ⟨later, ran, held⟩ := holds.run_change edit
  exact ⟨later, ran, _, held, represents⟩

end Gives

variable {sheets : Sheets}

theorem gives_setVariable (shows : store.Shows sheets) (caller : CallerId) (name : String)
    (value : Option String) :
    Gives store (setVariable caller name value) ⟨⟩
      (Function.update sheets (Users.key caller)
        ((Action.setVariable name value).act (sheets (Users.key caller))).2) := by
  obtain ⟨users, holds, represents⟩ := shows
  unfold setVariable Action.act
  by_cases blank : Text.strip name = ""
  · simp only [blank, ne_eq, not_true, if_false, if_true, Function.update_eq_self]
    exact .pure ⟨users, holds, represents⟩ _
  · simp only [blank, ne_eq, not_false_eq_true, if_false, if_true]
    exact (Gives.change holds _ rfl (represents.setVariable _ _ value)).map _

theorem gives_setAlias (shows : store.Shows sheets) (caller : CallerId) (name : String)
    (command : Option String) :
    Gives store (setAlias caller name command) ⟨⟩
      (Function.update sheets (Users.key caller)
        ((Action.setAlias name command).act (sheets (Users.key caller))).2) := by
  obtain ⟨users, holds, represents⟩ := shows
  unfold setAlias Action.act
  by_cases blank : Text.strip name = ""
  · simp only [blank, ne_eq, not_true, if_false, if_true, Function.update_eq_self]
    exact .pure ⟨users, holds, represents⟩ _
  · simp only [blank, ne_eq, not_false_eq_true, if_false, if_true]
    exact (Gives.change holds _ rfl (represents.setAlias _ _ (command.map Text.strip))).map _

theorem gives_setLevel (shows : store.Shows sheets) (caller : CallerId) (level : Option Int) :
    Gives store (setLevel caller level) ⟨⟩
      (Function.update sheets (Users.key caller) { sheets (Users.key caller) with level }) := by
  obtain ⟨users, holds, represents⟩ := shows
  exact (Gives.change holds _ rfl (represents.setLevel _ level)).map _

theorem gives_addScope (shows : store.Shows sheets) (caller : CallerId) (scope : String) :
    Gives store (Answer.changed <$> addScope caller scope)
      ((Action.addScope scope).act (sheets (Users.key caller))).1
      (Function.update sheets (Users.key caller)
        ((Action.addScope scope).act (sheets (Users.key caller))).2) := by
  obtain ⟨users, holds, represents⟩ := shows
  unfold addScope Action.act
  by_cases blank : Text.strip scope = ""
  · simp only [blank, ne_eq, not_true, false_and, if_true, dite_false, Function.update_eq_self]
    exact (Gives.pure ⟨users, holds, represents⟩ _).map _
  simp only [blank, if_false]
  by_cases known : Text.strip scope ∈ (sheets (Users.key caller)).scopes
  · rw [dif_neg fun added => added.2 known, Function.update_eq_self]
    have refused := represents.addScope_of_mem known
    exact (Gives.change holds (Users.addScope · _ _) refused represents).map _
  · obtain ⟨edited, added, shown⟩ := represents.addScope (Users.key caller) blank known
    rw [dif_pos ⟨blank, known⟩]
    exact (Gives.change holds (Users.addScope · _ _) added shown).map _

theorem gives_removeScope (shows : store.Shows sheets) (caller : CallerId) (scope : String) :
    Gives store (removeScope caller scope)
      (decide (Text.strip scope ∈ (sheets (Users.key caller)).scopes))
      (Function.update sheets (Users.key caller)
        ((sheets (Users.key caller)).removeScope (Text.strip scope))) := by
  obtain ⟨users, holds, represents⟩ := shows
  by_cases known : Text.strip scope ∈ (sheets (Users.key caller)).scopes
  · obtain ⟨edited, removed, shown⟩ := represents.removeScope known
    rw [decide_eq_true known]
    exact Gives.change holds (Users.removeScope · _ _) removed shown
  · rw [decide_eq_false known, Sheet.removeScope_of_notMem known, Function.update_eq_self]
    have refused := represents.removeScope_of_notMem known
    exact Gives.change holds (Users.removeScope · _ _) refused represents

end Store

/-- An action is answered as it is on the sheet of its caller, and changes this sheet alone. -/
theorem Action.gives_run {store : Store} {sheets : Sheets} (shows : store.Shows sheets)
    (caller : CallerId) (action : Action) :
    store.Gives (action.run caller) (action.act (sheets (Users.key caller))).1
      (Function.update sheets (Users.key caller)
        (action.act (sheets (Users.key caller))).2) := by
  have ⟨users, holds, represents⟩ := shows
  have reads {α : Type} {query : Users.Entries → α} {value : α} (found : query users = value)
      (answer : α → Answer) :
      store.Gives (answer <$> Store.read query) (answer value)
        (Function.update sheets (Users.key caller) (sheets (Users.key caller))) := by
    rw [Function.update_eq_self]
    exact (Store.Gives.read holds represents found).map answer
  cases action with
  | environment => exact reads (represents.variables? _) .environment
  | setVariable name value => exact (Store.gives_setVariable shows caller name value).map _
  | level => exact reads (represents.level? _) .level
  | setLevel wanted => exact (Store.gives_setLevel shows caller wanted).map _
  | command name => exact reads (represents.alias? _ name) .command
  | setAlias name wanted => exact (Store.gives_setAlias shows caller name wanted).map _
  | aliases => exact reads (represents.aliases _) .aliases
  | scopes => exact reads (represents.scopes _) .scopes
  | addScope scope => exact Store.gives_addScope shows caller scope
  | removeScope scope => exact (Store.gives_removeScope shows caller scope).map _

/-- Requests one after the other are answered as they are on the sheets. -/
theorem Sheets.gives_run (requests : List Request) {store : Store} {sheets : Sheets}
    (shows : store.Shows sheets) :
    store.Gives (requests.mapM Request.run) (sheets.run requests).1 (sheets.run requests).2 := by
  induction requests generalizing store sheets with
  | nil => exact .pure shows []
  | cons request rest ih =>
    rw [List.mapM_cons]
    refine (Action.gives_run shows request.caller request.action).bind fun later shown => ?_
    exact (ih shown).bind fun last kept => .pure kept _

namespace Store

theorem shows_new {file : StateFile} (missing : file.content = none)
    (roomy : file.isDraftOverlong = false) : Shows { file } fun _ => {} := by
  refine ⟨[], ⟨?_, .inl missing, rfl, roomy, rfl⟩, List.nodup_nil, fun key => rfl⟩
  rw [IsCurrent, StateFile.time?, missing]
  rfl

end Store

end Switchboard
