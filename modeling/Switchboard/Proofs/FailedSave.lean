import Switchboard.Proofs.StoreRun

/-!
Operations that fail. The file is left as it was, but a change that could not be saved stays in
memory, and whoever asks the store afterwards is told of it. So a failed operation goes unnoticed
exactly if it came to no change, or to one that shows in nothing that can be asked.
-/
namespace Switchboard

open Work

namespace Users

/-- All that can be asked about the caller of a key. -/
structure Profile where
  environment : Option (Table String)
  level : Option Int
  command : String → Option String
  aliases : Table String
  scopes : List String

def profile (users : Entries) (key : String) : Profile where
  environment := variables? users key
  level := level? users key
  command := alias? users key
  aliases := aliases users key
  scopes := scopes users key

/-- What can be asked about a caller depends on its entry alone. -/
theorem profile_of_entryOf? {users others : Entries} {key : String}
    (same : entryOf? users key = entryOf? others key) : profile users key = profile others key := by
  unfold profile variables? level? alias? aliases scopes
  rw [same]

/-- Puts an entry under a key, or removes what is there. -/
def put (users : Entries) (key : String) : Option Entry → Entries
  | some entry => users.insert key (.table entry)
  | none => users.erase key

theorem entryOf?_put (users : Entries) (key other : String) (entry : Option Entry) :
    entryOf? (put users key entry) other = if key = other then entry else entryOf? users other := by
  cases entry with
  | some entry => exact entryOf?_insert users key other entry
  | none => exact entryOf?_erase users key other

theorem exists_put_setOrPrune (users : Entries) (key : String) (entry : Entry) :
    ∃ kept, setOrPrune users key entry = put users key kept := by
  unfold setOrPrune
  split
  · exact ⟨none, rfl⟩
  · exact ⟨some entry, rfl⟩

theorem entryOrBlank_of_some {users : Entries} {key : String} {entry : Entry}
    (held : entryOf? users key = some entry) : entryOrBlank users key = entry := by
  rw [entryOrBlank, held, Option.getD_some]

/-- The tables after a field of one entry was given a value: the entry is set, or removed if it says
nothing then and its field was cleared. -/
inductive FieldChange (users : Entries) (key field : String) : Entries → Prop
  | set (value : Document) :
    FieldChange users key field
      (users.insert key (.table ((entryOrBlank users key).insert field value)))
  | cleared (value : Document) :
    FieldChange users key field (setOrPrune users key ((entryOrBlank users key).insert field value))

theorem fieldChange_removeIn? {users changed : Entries} {key field name : String}
    (removed : removeIn? users key field name = some changed) :
    FieldChange users key field changed := by
  obtain ⟨entry, held, more⟩ := Option.bind_eq_some_iff.mp removed
  obtain ⟨inner, -, same⟩ := Option.bind_eq_some_iff.mp more
  obtain rfl := Option.some.inj same
  rw [← entryOrBlank_of_some held]
  exact .cleared _

end Users

namespace Action

/-- The field of an entry that an action changes, if it changes one. -/
def field? : Action → Option String
  | .setVariable .. => some "env"
  | .setLevel _ => some "perm"
  | .setAlias .. => some "aliases"
  | .addScope _ | .removeScope _ => some "with"
  | .environment | .level | .command _ | .aliases | .scopes => none

/-- Whatever is changed, it is one field of the entry under one key. -/
theorem fieldChange_of_edit? {action : Action} {key : String} {users changed : Users.Entries}
    (edited : action.edit? key users = some changed) :
    ∃ field ∈ action.field?, Users.FieldChange users key field changed := by
  cases action with
  | environment | level | command | aliases | scopes => cases edited
  | setVariable name value =>
    refine ⟨_, rfl, ?_⟩
    rw [edit?] at edited
    split at edited
    · cases edited
    · cases value with
      | some value => exact Option.some.inj edited ▸ .set _
      | none => exact Users.fieldChange_removeIn? edited
  | setLevel wanted =>
    refine ⟨_, rfl, ?_⟩
    cases wanted with
    | some n => exact Option.some.inj edited ▸ .set _
    | none =>
      obtain ⟨entry, held, rfl⟩ := Option.map_eq_some_iff.mp edited
      rw [← Users.entryOrBlank_of_some held]
      exact .cleared _
  | setAlias name wanted =>
    refine ⟨_, rfl, ?_⟩
    rw [edit?] at edited
    split at edited
    · cases edited
    · unfold Users.setAlias at edited
      split at edited
      · exact Option.some.inj edited ▸ .set _
      · exact Users.fieldChange_removeIn? edited
  | addScope scope =>
    refine ⟨_, rfl, ?_⟩
    rw [edit?] at edited
    split at edited
    · cases edited
    · unfold Users.addScope at edited
      dsimp only at edited
      split at edited
      · cases edited
      · exact Option.some.inj edited ▸ .set _
  | removeScope scope =>
    refine ⟨_, rfl, ?_⟩
    rw [edit?] at edited
    obtain ⟨entry, held, more⟩ := Option.bind_eq_some_iff.mp edited
    obtain ⟨items, -, same⟩ := Option.bind_eq_some_iff.mp more
    split at same
    · rw [← Users.entryOrBlank_of_some held] at same
      exact Option.some.inj same ▸ .cleared _
    · cases same

/-- It is the entry under one key that is replaced or removed. -/
theorem exists_put_of_edit? {action : Action} {key : String} {users changed : Users.Entries}
    (edited : action.edit? key users = some changed) :
    ∃ kept, changed = Users.put users key kept := by
  obtain ⟨field, -, change⟩ := fieldChange_of_edit? edited
  cases change with
  | set value => exact ⟨some _, rfl⟩
  | cleared value => exact Users.exists_put_setOrPrune users key _

theorem profile_of_edit? {action : Action} {key other : String} {users changed : Users.Entries}
    (edited : action.edit? key users = some changed) (apart : key ≠ other) :
    Users.profile changed other = Users.profile users other := by
  obtain ⟨kept, rfl⟩ := exists_put_of_edit? edited
  refine Users.profile_of_entryOf? ?_
  rw [Users.entryOf?_put, if_neg apart]

/-- A query is answered from what can be asked about its caller. -/
theorem answer_of_profile {action : Action} (query : action.isQuery = true) {key : String}
    {users others : Users.Entries} (same : Users.profile users key = Users.profile others key) :
    action.answer key users = action.answer key others := by
  cases action with
  | environment =>
    exact congrArg (fun profile : Users.Profile => Answer.environment profile.environment) same
  | level => exact congrArg (fun profile : Users.Profile => Answer.level profile.level) same
  | command name =>
    exact congrArg (fun profile : Users.Profile => Answer.command (profile.command name)) same
  | aliases => exact congrArg (fun profile : Users.Profile => Answer.aliases profile.aliases) same
  | scopes => exact congrArg (fun profile : Users.Profile => Answer.scopes profile.scopes) same
  | setVariable | setLevel | setAlias | addScope | removeScope => cases query

theorem profile_of_answers {key : String} {users others : Users.Entries}
    (same : ∀ action : Action, action.isQuery = true →
      action.answer key users = action.answer key others) :
    Users.profile users key = Users.profile others key := by
  have environment := Answer.environment.inj (same .environment rfl)
  have level := Answer.level.inj (same .level rfl)
  have command (name : String) := Answer.command.inj (same (.command name) rfl)
  have aliases := Answer.aliases.inj (same .aliases rfl)
  have scopes := Answer.scopes.inj (same .scopes rfl)
  simp only [Users.profile, environment, level, funext command, aliases, scopes]

end Action

namespace Store

/-- The answers to requests that are made one after the other, whether or not some of them fail. -/
def answersTo : Store → List Request → List (Except Failure Answer)
  | _, [] => []
  | store, request :: rest =>
    (request.run.run store).1 :: answersTo (request.run.run store).2 rest

theorem run_of_isQuery {request : Request} (query : request.action.isQuery = true)
    (store : Store) :
    (request.run.run store).1 = store.found.map (request.action.answer request.key) ∧
      (request.run.run store).2.found = store.found := by
  have active := Action.isIdle_of_isQuery query
  rw [Request.run, Action.run_eq, active, if_neg Bool.false_ne_true, attempted]
  cases found : store.found with
  | error failure => exact ⟨rfl, (found_looked store).trans found⟩
  | ok users =>
    dsimp only
    rw [performed, Action.edit?_of_isQuery query]
    exact ⟨rfl, (found_reloaded store).trans found⟩

/-- Queries do not disturb each other. -/
theorem answersTo_queries {queries : List Request}
    (only : ∀ query ∈ queries, query.action.isQuery = true) (store : Store) :
    store.answersTo queries =
      queries.map fun query => store.found.map (query.action.answer query.key) := by
  induction queries generalizing store with
  | nil => rfl
  | cons query rest ih =>
    obtain ⟨answered, found⟩ := run_of_isQuery (only query List.mem_cons_self) store
    rw [answersTo, ih fun other member => only other (List.mem_cons_of_mem query member), answered,
      found, List.map_cons]

/-- A failed operation leaves the file as it is, and in memory the change that it was about. -/
theorem after_failed {store later : Store} {request : Request} {failure : Failure}
    (failed : request.run.run store = (.error failure, later)) :
    later.file = store.file ∧
      later.found = store.found.map fun users =>
        (request.action.edit? request.key users).getD users := by
  rw [Request.run, Action.run_eq] at failed
  split at failed
  · cases failed
  rw [attempted] at failed
  cases found : store.found with
  | error cause =>
    rw [found] at failed
    obtain ⟨-, rfl⟩ := Prod.mk.inj failed
    exact ⟨file_looked store, (found_looked store).trans found⟩
  | ok users =>
    rw [found] at failed
    dsimp only [performed] at failed
    cases edited : request.action.edit? (Users.key request.caller) users with
    | none =>
      rw [edited] at failed
      cases failed
    | some changed =>
      rw [edited] at failed
      dsimp only at failed
      split at failed
      · obtain ⟨-, rfl⟩ := Prod.mk.inj failed
        refine ⟨file_reloaded store, (found_withUsers found changed).trans ?_⟩
        exact congrArg (fun edited => Except.ok (edited.getD users)) edited.symm
      · cases failed

/-- After an operation that failed the file is as it was. All later queries are answered as if the
operation had not been called, exactly if there was no change that it was about or this change
shows in nothing that can be asked about the caller. -/
theorem failed_operation_unnoticed_iff {store later : Store} {request : Request} {failure : Failure}
    (failed : request.run.run store = (.error failure, later)) :
    later.file = store.file ∧
      ((∀ queries : List Request, (∀ query ∈ queries, query.action.isQuery = true) →
          later.answersTo queries = store.answersTo queries) ↔
        ∀ users changed, store.found = .ok users →
          request.action.edit? request.key users = some changed →
          Users.profile changed request.key = Users.profile users request.key) := by
  obtain ⟨sameFile, held⟩ := after_failed failed
  refine ⟨sameFile, ?_, ?_⟩
  · intro unnoticed users changed found edited
    rw [found, Except.map, edited, Option.getD_some] at held
    refine Action.profile_of_answers fun action query => ?_
    have same := unnoticed [⟨request.caller, action⟩] (by simpa using query)
    rw [answersTo_queries (by simpa using query), answersTo_queries (by simpa using query), held,
      found] at same
    exact Except.ok.inj (List.head_eq_of_cons_eq same)
  · intro hidden queries only
    rw [answersTo_queries only, answersTo_queries only, held]
    refine List.map_congr_left fun query member => ?_
    cases found : store.found with
    | error cause => rfl
    | ok users =>
      cases edited : request.action.edit? request.key users with
      | none => simp only [Except.map, edited, Option.getD_none]
      | some changed =>
        simp only [Except.map, edited, Option.getD_some]
        refine congrArg Except.ok (Action.answer_of_profile (only query member) ?_)
        by_cases own : request.key = query.key
        · rw [← own]
          exact hidden users changed found edited
        · exact Action.profile_of_edit? edited own

/-- A store where a directory stands in the place of its file. -/
def overDirectory : Store :=
  { file := { content := some .directory, stamp := 1, clock := 1 } }

/-- A level for a caller. -/
def levelRequest : Request :=
  ⟨.number 1, .setLevel (some 7)⟩

/-- The levels among answers. -/
def levelsOf (answers : List (Except Failure Answer)) : List (Option Int) :=
  answers.filterMap fun
    | .ok (.level level) => some level
    | _ => none

/-- The entries that the level goes to. -/
def levelledUsers : Users.Entries :=
  [("1", .table (Users.blankEntry.insert "perm" (.int 7)))]

theorem run_levelRequest :
    levelRequest.run.run overDirectory =
      (.error .isDirectory, overDirectory.reloaded.withUsers levelledUsers) := by
  rfl

/-- An operation that could not be saved is noticed. -/
theorem failed_operation_noticed :
    ¬ ∀ (store later : Store) (request : Request) (failure : Failure),
      request.run.run store = (.error failure, later) →
      ∀ queries : List Request, (∀ query ∈ queries, query.action.isQuery = true) →
        later.answersTo queries = store.answersTo queries := by
  intro unnoticed
  have same := unnoticed _ _ levelRequest _ run_levelRequest [⟨.number 1, .level⟩] (by simp; rfl)
  have levels := congrArg levelsOf same
  revert levels
  decide +kernel

/-- Where the level could not be saved once, a second attempt that fails changes nothing more. -/
theorem failed_operation_unnoticed_again :
    let store := overDirectory.reloaded.withUsers levelledUsers
    ∀ queries : List Request, (∀ query ∈ queries, query.action.isQuery = true) →
      (levelRequest.run.run store).2.answersTo queries = store.answersTo queries := by
  intro store
  have failed : levelRequest.run.run store =
      (.error .isDirectory, (levelRequest.run.run store).2) := rfl
  refine (failed_operation_unnoticed_iff failed).2.mpr fun users changed found edited => ?_
  have known : store.found = .ok levelledUsers := rfl
  obtain rfl := Except.ok.inj (known.symm.trans found)
  obtain rfl := Option.some.inj edited
  rfl

end Store
end Switchboard
