import Switchboard.Proofs.Agreement
import Switchboard.Proofs.Coherence
import Switchboard.Proofs.Tidiness

/-!
Bots that a caller cannot tell apart. They have one configuration, the same commands and one state
file, and the variables of the caller are tidy; what they have in memory, remember and have logged
may differ. Whatever the caller has such bots do, they reply the same and leave the same file.
-/
namespace Switchboard

open Work

/-! ### Stores -/

namespace Store

/-- A store that mirrors its file. The variables of a caller that it finds are tidy, and so are
those that a new store would find. -/
structure IsSteady (key : String) (store : Store) : Prop where
  synced : store.IsSynced
  tidy : store.IsTidy key
  fresh : IsTidy { file := store.file } key

/-- Steady stores over one file. -/
structure Akin (key : String) (one other : Store) : Prop where
  steady : one.IsSteady key
  steadyOther : other.IsSteady key
  file : one.file = other.file

variable {key : String} {one other : Store}

/-- Where there are entries, akin stores find twins with tidy variables. -/
theorem Akin.found (akin : Akin key one other) :
    Concur (fun users others => Table.Related Json.Twin users others ∧
      Users.AreTidy users key ∧ Users.AreTidy others key) one.found other.found := by
  obtain ⟨users, others, found, foundOther, twins⟩ | ⟨failure, found, foundOther⟩ :=
    found_twins akin.steady.synced akin.steadyOther.synced akin.file
  · rw [found, foundOther]
    exact .ok ⟨twins, akin.steady.tidy users found, akin.steadyOther.tidy others foundOther⟩
  · rw [found, foundOther]
    exact .error failure

theorem file_read {α : Type} (query : Users.Entries → α) (store : Store) :
    ((read query).run store).2.file = store.file := by
  rw [run_read]
  cases store.found with
  | ok users => exact file_reloaded store
  | error failure => exact file_looked store

/-- A new store over a plain file is steady if it finds tidy variables. -/
theorem IsSteady.new {file : StateFile} (plain : file.IsPlain) (tidy : IsTidy { file } key) :
    IsSteady key { file } :=
  ⟨.new plain, tidy, tidy⟩

theorem IsSteady.read {α : Type} (steady : one.IsSteady key) (query : Users.Entries → α) :
    ((read query).run one).2.IsSteady key := by
  refine ⟨?_, steady.tidy.of_found (found_read query one), ?_⟩
  · rw [run_read]
    cases one.found with
    | ok users => exact steady.synced.reloaded
    | error failure => exact steady.synced.looked
  · rw [file_read]
    exact steady.fresh

theorem IsSteady.run (steady : one.IsSteady key) {request : Request}
    (writable : request.action.IsWritable) : (request.run.run one).2.IsSteady key where
  synced := (run_alike steady.synced steady.synced rfl writable).2.2
  tidy := steady.tidy.run request.caller request.action
  fresh := by
    rcases steady.synced.sorted_run writable with same | sorted
    · rw [same]
      exact steady.fresh
    · exact isTidy_new sorted key

/-- What is read from akin stores agrees if twins with tidy variables give it. -/
theorem agree_read {α β : Type} {results : α → β → Prop} {query : Users.Entries → α}
    {otherQuery : Users.Entries → β}
    (gives : ∀ users others, Table.Related Json.Twin users others → Users.AreTidy users key →
      Users.AreTidy others key → results (query users) (otherQuery others)) :
    Agree (Akin key) results (read query) (read otherQuery) := by
  intro one other akin
  refine ⟨?_, akin.steady.read query, akin.steadyOther.read otherQuery, ?_⟩
  · rw [run_read_fst, run_read_fst]
    exact akin.found.map fun users others alike => gives users others alike.1 alike.2.1 alike.2.2
  · rw [file_read, file_read]
    exact akin.file

/-- Actions on akin stores agree. -/
theorem agree_action {α : Type} {results : α → α → Prop} {work : StoreM α} {caller : CallerId}
    {action : Action} {answer : α → Answer} (does : action.run caller = answer <$> work)
    (writable : action.IsWritable)
    (told : ∀ a b, (answer a).Alike (answer b) → results a b) :
    Agree (Akin key) results work work := by
  intro one other akin
  let request : Request := ⟨caller, action⟩
  have ran : _ ∧ _ ∧ _ :=
    @run_alike one other akin.steady.synced akin.steadyOther.synced akin.file request writable
  have steady : (request.run.run one).2.IsSteady key := akin.steady.run writable
  have steadyOther : (request.run.run other).2.IsSteady key := akin.steadyOther.run writable
  simp only [Request.run, request, does, run_map] at ran steady steadyOther
  obtain ⟨results, file, -⟩ := ran
  refine ⟨?_, steady, steadyOther, file⟩
  generalize (work.run one).1 = result at results ⊢
  generalize (work.run other).1 = otherResult at results ⊢
  cases result with
  | error failure =>
    cases otherResult with
    | error cause =>
      cases results
      exact .error failure
    | ok b => cases results
  | ok a =>
    cases otherResult with
    | error cause => cases results
    | ok b =>
      cases results with
      | ok alike => exact .ok (told a b alike)

end Store

namespace Bot

/-! ### Bots -/

/-- All of a bot that callers can see. -/
structure Scene where
  config : Config
  graph : Graph
  replies : List Reply
  file : StateFile

def scene (bot : Bot) : Scene where
  config := bot.config
  graph := bot.graph
  replies := bot.outbox.replies
  file := bot.store.file

/-- A bot with a steady store, of which neither the operations nor the replies are disturbed. -/
structure IsSteady (caller : CallerId) (bot : Bot) : Prop where
  undisturbed : bot.disturbances = []
  reliable : bot.outbox.disturbances = []
  store : bot.store.IsSteady (Users.key caller)

/-- Bots that a caller cannot tell apart. -/
structure Akin (caller : CallerId) (bot twin : Bot) : Prop where
  steady : bot.IsSteady caller
  steadyTwin : twin.IsSteady caller
  scene : bot.scene = twin.scene

variable {caller : CallerId} {bot twin : Bot}

theorem Akin.config (akin : Akin caller bot twin) : bot.config = twin.config :=
  congrArg Scene.config akin.scene

theorem Akin.graph (akin : Akin caller bot twin) : bot.graph = twin.graph :=
  congrArg Scene.graph akin.scene

theorem Akin.replies (akin : Akin caller bot twin) : bot.outbox.replies = twin.outbox.replies :=
  congrArg Scene.replies akin.scene

theorem Akin.store (akin : Akin caller bot twin) :
    bot.store.Akin (Users.key caller) twin.store where
  steady := akin.steady.store
  steadyOther := akin.steadyTwin.store
  file := congrArg Scene.file akin.scene

/-- The log of a store that was taken over is empty, which nobody sees. -/
theorem IsSteady.takeStore (steady : bot.IsSteady caller) {store : Store}
    (taken : store.IsSteady (Users.key caller)) : (bot.takeStore store).IsSteady caller where
  undisturbed := steady.undisturbed
  reliable := steady.reliable
  store := {
    synced := ⟨taken.synced.steady, taken.synced.plain, taken.synced.mirrors⟩
    tidy := taken.tidy.of_found (Store.found_log store [])
    fresh := taken.fresh }

/-- What akin stores agree about, akin bots do. -/
theorem agree_onStore {α β : Type} {results : α → β → Prop} {work : StoreM α} {other : StoreM β}
    (agree : Agree (Store.Akin (Users.key caller)) results work other)
    (operation : StoreOperation) :
    Agree (Akin caller) results (onStore operation work) (onStore operation other) := by
  intro bot twin akin
  obtain ⟨concur, still⟩ := agree bot.store twin.store akin.store
  rw [run_onStore, run_onStore, akin.steady.undisturbed, akin.steadyTwin.undisturbed]
  refine ⟨concur, akin.steady.takeStore still.steady,
    akin.steadyTwin.takeStore still.steadyOther, ?_⟩
  exact (Scene.mk.injEq ..).mpr ⟨akin.config, akin.graph, akin.replies, still.file⟩

theorem agree_read {α : Type} {query : Users.Entries → α} (operation : StoreOperation)
    (gives : ∀ users others, Table.Related Json.Twin users others → query users = query others) :
    Agree (Akin caller) Eq (onStore operation (Store.read query))
      (onStore operation (Store.read query)) :=
  agree_onStore (Store.agree_read fun users others twins _ _ => gives users others twins) operation

theorem agree_action {α : Type} {results : α → α → Prop} {work : StoreM α} {about : CallerId}
    {action : Action} {answer : α → Answer} (does : action.run about = answer <$> work)
    (writable : action.IsWritable) (told : ∀ a b, (answer a).Alike (answer b) → results a b)
    (operation : StoreOperation) :
    Agree (Akin caller) results (onStore operation work) (onStore operation work) :=
  agree_onStore (Store.agree_action does writable told) operation

/-- Changes that nothing is told of agree. -/
theorem agree_done {work : StoreM Unit} {about : CallerId} {action : Action}
    (does : action.run about = (fun _ => .done) <$> work) (writable : action.IsWritable)
    (operation : StoreOperation) :
    Agree (Akin caller) Eq (onStore operation work) (onStore operation work) :=
  agree_action does writable (fun _ _ _ => rfl) operation

/-- All of a bot but what it records. -/
def unrecorded (bot : Bot) : Bot :=
  { bot with calls := [], log := [] }

theorem isSteady_unrecorded : bot.unrecorded.IsSteady caller ↔ bot.IsSteady caller :=
  ⟨fun steady => ⟨steady.undisturbed, steady.reliable, steady.store⟩,
    fun steady => ⟨steady.undisturbed, steady.reliable, steady.store⟩⟩

theorem scene_of_unrecorded {later : Bot} (same : later.unrecorded = bot.unrecorded) :
    later.scene = bot.scene := by
  calc
    later.scene = later.unrecorded.scene := rfl
    _ = bot.unrecorded.scene := congrArg scene same
    _ = bot.scene := rfl

/-- Bots that are akin stay so whatever they record. -/
theorem Akin.of_unrecorded {later laterTwin : Bot} (akin : Akin caller bot twin)
    (same : later.unrecorded = bot.unrecorded)
    (sameTwin : laterTwin.unrecorded = twin.unrecorded) : Akin caller later laterTwin where
  steady := by
    rw [← isSteady_unrecorded, same, isSteady_unrecorded]
    exact akin.steady
  steadyTwin := by
    rw [← isSteady_unrecorded, sameTwin, isSteady_unrecorded]
    exact akin.steadyTwin
  scene :=
    ((scene_of_unrecorded same).trans akin.scene).trans (scene_of_unrecorded sameTwin).symm

theorem IsSteady.remember (steady : bot.IsSteady caller) (remembered : Table (Table String)) :
    IsSteady caller { bot with remembered } :=
  ⟨steady.undisturbed, steady.reliable, steady.store⟩

theorem heard_akin : Heard (Akin caller) where
  config _ _ akin := akin.config
  record event := .modify fun _ _ akin => akin.of_unrecorded rfl rfl
  deliver message segment := by
    intro bot twin akin
    rw [run_deliver, run_deliver, akin.steady.reliable, akin.steadyTwin.reliable]
    refine ⟨.ok rfl, ?_, ?_, ?_⟩
    · exact ⟨akin.steady.undisturbed, akin.steady.reliable, akin.steady.store⟩
    · exact ⟨akin.steadyTwin.undisturbed, akin.steadyTwin.reliable, akin.steadyTwin.store⟩
    · exact (Scene.mk.injEq ..).mpr
        ⟨akin.config, akin.graph, congrArg (· ++ _) akin.replies, akin.store.file⟩

end Bot

/-! ### Builtin commands -/

namespace Builtin

open Switchboard.Bot

variable {caller : CallerId}

theorem agree_isKnown (name : String) : Agree (Akin caller) Eq (isKnown name) (isKnown name) :=
  Agree.get.bind fun bot twin akin => .pure (by rw [akin.graph])

theorem agree_storedVariables :
    Agree (Akin caller) (Table.Related Eq) (storedVariables caller) (storedVariables caller) := by
  have stored : Agree (Akin caller)
      (fun known other => Table.Related Eq (known.getD []) (other.getD []))
      (onStore .getVariables (Store.variables? caller))
      (onStore .getVariables (Store.variables? caller)) := by
    refine agree_onStore (Store.agree_read ?_) _
    intro users others twins tidy tidyOther
    exact Users.environment_of_twins twins tidy tidyOther
  exact stored.bind fun known other related => .pure related

/-- What is listed in ascending order is the same for tables that differ in their order only. -/
theorem agree_listing {known other : Table String} (related : Table.Related Eq known other)
    (empty : Outcome) (listed : Table String → Outcome) :
    Agree (Akin caller) Eq
      (if known = [] then pure empty else pure (listed known.sorted) : BotM Outcome)
      (if other = [] then pure empty else pure (listed other.sorted)) := by
  have none : known = [] ↔ other = [] := by
    rw [← List.isEmpty_iff, ← List.isEmpty_iff, related.isEmpty_eq]
  have sorted : known.sorted = other.sorted :=
    (Table.sorted_eq_iff related.once related.onceOther).mpr fun name =>
      Table.eq_of_rel (related.values name)
  rw [sorted]
  by_cases nothing : known = []
  · rw [if_pos nothing, if_pos (none.mp nothing)]
    exact .pure rfl
  · rw [if_neg nothing, if_neg (nothing ∘ none.mpr)]
    exact .pure rfl

theorem agree_answerVariables (name : Option String) :
    Agree (Akin caller) Eq (answerVariables caller name) (answerVariables caller name) := by
  refine agree_storedVariables.bind fun known other related => ?_
  cases name with
  | none =>
    exact agree_listing related _ fun known => said ("\n".intercalate (known.map shownVariable))
  | some name =>
    have value : known.get? name = other.get? name := Table.eq_of_rel (related.values name)
    dsimp only
    rw [value]
    split
    · exact .pure rfl
    · exact .pure rfl

theorem agree_changeVariable (about : CallerId) (name : String) (value : Option String) :
    Agree (Akin caller) Eq (changeVariable about name value) (changeVariable about name value) := by
  refine (agree_done (Action.run_setVariable about name value) trivial _).bind fun _ _ _ => ?_
  exact .modify fun bot twin akin =>
    ⟨akin.steady.remember _, akin.steadyTwin.remember _, akin.scene⟩

theorem agree_setAlias (about : CallerId) (name : String) (command : Option String) :
    Agree (Akin caller) Eq (onStore .setAlias (Store.setAlias about name command))
      (onStore .setAlias (Store.setAlias about name command)) :=
  agree_done (Action.run_setAlias about name command) trivial _

/-- Answers about a change that are alike are the same. -/
theorem eq_of_alike_changed {a b : Bool} (alike : (Answer.changed a).Alike (.changed b)) :
    a = b := by
  cases alike
  rfl

theorem agree_addScope (about : CallerId) (scope : String) :
    Agree (Akin caller) Eq (onStore .addScope (Store.addScope about scope))
      (onStore .addScope (Store.addScope about scope)) :=
  agree_action (Action.run_addScope about scope) trivial (fun _ _ => eq_of_alike_changed) _

theorem agree_removeScope (about : CallerId) (scope : String) :
    Agree (Akin caller) Eq (onStore .removeScope (Store.removeScope about scope))
      (onStore .removeScope (Store.removeScope about scope)) :=
  agree_action (Action.run_removeScope about scope) trivial (fun _ _ => eq_of_alike_changed) _

theorem agree_aliases (about : CallerId) :
    Agree (Akin caller) (fun aliases others => Table.Related Eq aliases others)
      (onStore .getAliases (Store.aliases about)) (onStore .getAliases (Store.aliases about)) := by
  refine agree_onStore (Store.agree_read ?_) _
  intro users others twins _ _
  exact Users.aliases_of_twins twins _

theorem agree_level (about : CallerId) :
    Agree (Akin caller) Eq (onStore .getLevel (Store.level? about))
      (onStore .getLevel (Store.level? about)) :=
  agree_read _ fun _ _ twins => Users.level?_eq_of_twins twins _

theorem agree_answerLevel (about : CallerId) :
    Agree (Akin caller) Eq (answerLevel about) (answerLevel about) := by
  refine Agree.get.bind fun bot twin akin => ?_
  rw [akin.config]
  refine (Agree.ofExcept (concur_eq_iff.mpr rfl)).bind fun superuser _ same => ?_
  subst same
  refine .ite (.pure rfl) ((agree_level about).bind fun level _ same => ?_)
  exact same ▸ .pure rfl

theorem agree_assignLevel (check : Argument) (about : CallerId) {level : Int}
    (writable : hasWritableDigits level = true) :
    Agree (Akin caller) Eq (assignLevel check about level) (assignLevel check about level) := by
  refine Agree.get.bind fun bot twin akin => ?_
  rw [akin.config]
  refine (Agree.ofExcept (concur_eq_iff.mpr rfl)).bind fun superuser _ same => ?_
  subst same
  refine .ite (.pure rfl) ((agree_level about).bind fun held _ same => ?_)
  subst same
  refine (Agree.ofExcept (concur_eq_iff.mpr rfl)).bind fun _ _ _ => ?_
  refine (Agree.ofExcept (concur_eq_iff.mpr rfl)).bind fun _ _ _ => ?_
  have few : (Action.setLevel (if level = 0 then none else some level)).IsWritable := by
    intro n member
    split at member
    · cases member
    · obtain rfl := Option.some.inj member
      exact writable
  exact (agree_done (Action.run_setLevel about _) few _).bind fun _ _ _ => .pure rfl

/-- Builtin commands that are called for the caller do the same for bots that are akin. -/
theorem agree_run (builtin : Builtin) {arguments : List Argument}
    (own : ∀ id, .caller id ∈ arguments → id = caller)
    (writable : ∀ n, .value (.int n) ∈ arguments → hasWritableDigits n = true) :
    Agree (Akin caller) Eq (builtin.run arguments) (builtin.run arguments) := by
  have first {id : CallerId} {rest : List Argument} (same : arguments = .caller id :: rest) :
      id = caller := own id (same ▸ List.mem_cons_self)
  unfold Builtin.run
  split
  · exact .ite (.pure rfl) ((agree_changeVariable _ _ _).bind fun _ _ _ => .pure rfl)
  · obtain rfl := first rfl
    exact agree_answerVariables _
  · obtain rfl := first rfl
    exact agree_answerVariables none
  · exact (agree_changeVariable _ _ _).bind fun _ _ _ => .pure rfl
  · refine .ite (.pure rfl) ((agree_isKnown _).bind fun known _ same => ?_)
    subst same
    exact .ite (.pure rfl) ((agree_setAlias _ _ _).bind fun _ _ _ => .pure rfl)
  · exact (agree_setAlias _ _ _).bind fun _ _ _ => .pure rfl
  · refine (agree_aliases _).bind fun aliases others related => ?_
    exact agree_listing related _ fun aliases => said ("\n".intercalate (aliases.map shownAlias))
  · refine (agree_isKnown _).bind fun known _ same => ?_
    subst same
    refine .ite (.pure rfl) ((agree_addScope _ _).bind fun added _ same => ?_)
    exact same ▸ .pure rfl
  · exact (agree_removeScope _ _).bind fun removed _ same => same ▸ .pure rfl
  · refine (agree_read _ fun _ _ twins => Users.scopes_eq_of_twins twins _).bind ?_
    intro scopes _ same
    subst same
    exact .ite (.pure rfl) (.pure rfl)
  · exact agree_answerLevel _
  · exact agree_answerLevel _
  · rename_i check name level
    exact agree_assignLevel check (.name name) (writable level (by simp))
  · exact .throw _

end Builtin
end Switchboard
