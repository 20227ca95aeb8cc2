import Switchboard.Bot.Dispatch
import Switchboard.Proofs.StoredLevel

/-!
What the handlers of the builtin commands, the scripts and the helps leave alone. They work on the
store and on the variables that are remembered; a script also has its calls recorded. Replies, the
log of how dispatches ended, the configuration and the commands are none of their business, and
levels are only changed by the one command that assigns them.
-/
namespace Switchboard

open Work

/-- Events that tell how a dispatch ended. -/
def Event.isEnding : Event → Bool
  | .failureReported .. | .dispatchFailed .. => true
  | _ => false

namespace Store

/-- What the store has logged about the ends of dispatches. -/
def endings (store : Store) : List Event :=
  store.log.filter Event.isEnding

theorem isEnding_of_ofContent {content : Content} {event : Event}
    (described : State.ofContent content = .error event) : event.isEnding = false := by
  unfold State.ofContent at described
  split at described
  · split at described
    · rename_i d parsed
      unfold State.ofDocument at described
      split at described
      · dsimp only at described
        split at described
        · cases described; rfl
        · split at described
          · cases described; rfl
          · cases described
      · cases described; rfl
    · cases described; rfl
  all_goals cases described; rfl

theorem endings_reloaded (store : Store) : store.reloaded.endings = store.endings := by
  unfold reloaded
  split
  · split <;> rfl
  · split
    · rfl
    · split
      · rfl
      · rename_i event described
        simp [endings, isEnding_of_ofContent described]

theorem keeps_endings_reload : Keeps endings reload := by
  intro store
  rw [run_reload]
  cases store.file.obstacle? with
  | some obstacle => rfl
  | none => exact endings_reloaded store

theorem keeps_endings_entries : Keeps endings entries := by
  refine .bind .get fun store => ?_
  split
  · exact .pure _
  · exact .throw _

theorem keeps_endings_read {α : Type} (query : Users.Entries → α) : Keeps endings (read query) :=
  keeps_endings_reload.bind fun _ => keeps_endings_entries.bind fun _ => .pure _

theorem keeps_endings_save : Keeps endings save := by
  intro store
  rw [run_save]
  cases store.hindrance? with
  | some failure => rfl
  | none => rfl

theorem keeps_endings_change (edit : Users.Entries → Option Users.Entries) :
    Keeps endings (change edit) := by
  refine keeps_endings_reload.bind fun _ => keeps_endings_entries.bind fun users => ?_
  split
  · exact .pure _
  · refine Keeps.bind (.modify fun _ => rfl) fun _ => ?_
    exact keeps_endings_save.bind fun _ => .pure _

end Store

namespace Bot

/-- What has been logged about the ends of dispatches, also by a store that still has to hand its
log over. -/
def endings (bot : Bot) : List Event :=
  bot.log.filter Event.isEnding ++ bot.store.endings

/-- All of a bot that handlers have no business with. -/
structure Premises where
  config : Config
  graph : Graph
  outbox : Outbox
  endings : List Event

def premises (bot : Bot) : Premises where
  config := bot.config
  graph := bot.graph
  outbox := bot.outbox
  endings := bot.endings

/-- The levels that callers are found to have. -/
def levels (bot : Bot) : CallerId → Option Int :=
  bot.store.levelNow

/-- All of a bot that an assignment of a level depends on. -/
structure Standing where
  config : Config
  disturbances : List (StoreOperation × Failure)
  rights : Store.Rights

def standing (bot : Bot) : Standing where
  config := bot.config
  disturbances := bot.disturbances
  rights := bot.store.rights

theorem levels_of_standing {bot later : Bot} (same : later.standing = bot.standing) :
    later.levels = bot.levels :=
  congrArg (fun standing => standing.rights.levels) same

theorem run_onStore {α : Type} (operation : StoreOperation) (work : StoreM α) (bot : Bot) :
    (onStore operation work).run bot =
      match bot.disturbances.lookup operation with
      | some failure => (.error failure, bot)
      | none => ((work.run bot.store).1, bot.takeStore (work.run bot.store).2) := by
  simp only [onStore, run_bind, run_get]
  cases bot.disturbances.lookup operation with
  | some failure => rfl
  | none =>
    rcases work.run bot.store with ⟨result, store⟩
    cases result <;> rfl

/-- An operation that succeeded has been carried out on the store. -/
theorem run_onStore_eq_ok {α : Type} {operation : StoreOperation} {work : StoreM α}
    {bot later : Bot} {value : α} (done : (onStore operation work).run bot = (.ok value, later)) :
    ∃ store, work.run bot.store = (.ok value, store) ∧ later = bot.takeStore store := by
  rw [run_onStore] at done
  split at done
  · cases done
  · obtain ⟨result, same⟩ := Prod.mk.inj done
    exact ⟨_, Prod.ext result rfl, same.symm⟩

/-- A view is kept by an operation of the store if it is kept when the state of the store that the
operation leaves is taken over. -/
theorem keeps_onStore {γ α : Type} {view : Bot → γ} {work : StoreM α}
    (taken : ∀ bot : Bot, view (bot.takeStore (work.run bot.store).2) = view bot)
    (operation : StoreOperation) : Keeps view (onStore operation work) := by
  intro bot
  rw [run_onStore]
  cases bot.disturbances.lookup operation with
  | some failure => rfl
  | none => exact taken bot

theorem endings_takeStore {bot : Bot} {store : Store}
    (same : store.endings = bot.store.endings) : (bot.takeStore store).endings = bot.endings := by
  simp only [endings, takeStore, ← same]
  simp [Store.endings]

theorem rights_takeStore (bot : Bot) (store : Store) :
    (bot.takeStore store).store.rights = store.rights :=
  Store.rights_of_users? (Store.users?_log store [])

theorem levels_takeStore (bot : Bot) (store : Store) :
    (bot.takeStore store).levels = store.levelNow :=
  congrArg Store.Rights.levels (rights_takeStore bot store)

theorem keeps_premises_onStore {α : Type} {work : StoreM α} (kept : Keeps Store.endings work)
    (operation : StoreOperation) : Keeps premises (onStore operation work) := by
  refine keeps_onStore (fun bot => ?_) operation
  exact congrArg (Premises.mk bot.config bot.graph bot.outbox) (endings_takeStore (kept bot.store))

theorem keeps_standing_onStore {α : Type} {work : StoreM α} (kept : Keeps Store.rights work)
    (operation : StoreOperation) : Keeps standing (onStore operation work) := by
  refine keeps_onStore (fun bot => ?_) operation
  refine congrArg (Standing.mk bot.config bot.disturbances) ?_
  rw [rights_takeStore]
  exact kept bot.store

/-- A view of bots that the operations on callers' tables keep, save that levels are assigned. -/
structure Unmoved {γ : Type} (view : Bot → γ) : Prop where
  remembered : ∀ (bot : Bot) (remembered : Table (Table String)),
    view { bot with remembered } = view bot
  read : ∀ {α : Type} (operation : StoreOperation) (query : Users.Entries → α),
    Keeps view (onStore operation (Store.read query))
  setVariable : ∀ caller name value,
    Keeps view (onStore .setVariable (Store.setVariable caller name value))
  setAlias : ∀ caller name command,
    Keeps view (onStore .setAlias (Store.setAlias caller name command))
  addScope : ∀ caller scope, Keeps view (onStore .addScope (Store.addScope caller scope))
  removeScope : ∀ caller scope, Keeps view (onStore .removeScope (Store.removeScope caller scope))

theorem unmoved_standing : Unmoved standing where
  remembered _ _ := rfl
  read operation query := keeps_standing_onStore (Store.keeps_rights_read query) operation
  setVariable _ _ _ := keeps_standing_onStore (Store.keeps_rights_setVariable _ _ _) _
  setAlias _ _ _ := keeps_standing_onStore (Store.keeps_rights_setAlias _ _ _) _
  addScope _ _ := keeps_standing_onStore (Store.keeps_rights_addScope _ _) _
  removeScope _ _ := keeps_standing_onStore (Store.keeps_rights_removeScope _ _) _

theorem unmoved_premises : Unmoved premises where
  remembered _ _ := rfl
  read operation query := keeps_premises_onStore (Store.keeps_endings_read query) operation
  setVariable _ _ _ := by
    refine keeps_premises_onStore ?_ _
    exact .ite (Store.keeps_endings_change _).discard (.pure _)
  setAlias _ _ _ := by
    refine keeps_premises_onStore ?_ _
    exact .ite (Store.keeps_endings_change _).discard (.pure _)
  addScope _ _ := by
    refine keeps_premises_onStore ?_ _
    exact .ite (.pure _) (Store.keeps_endings_change _)
  removeScope _ _ := keeps_premises_onStore (Store.keeps_endings_change _) _

end Bot

namespace Bot

/-- A property of bots that withstands what builtin commands do for some callers, save that levels
are assigned. -/
structure Withstands (holds : Bot → Prop) (callers : CallerId → Prop) : Prop where
  read : ∀ {α : Type} (operation : StoreOperation) (query : Users.Entries → α),
    Preserves holds (onStore operation (Store.read query))
  changeVariable : ∀ caller name value, callers caller →
    Preserves holds (Builtin.changeVariable caller name value)
  setAlias : ∀ caller name command, callers caller →
    Preserves holds (onStore .setAlias (Store.setAlias caller name command))
  addScope : ∀ caller scope, callers caller →
    Preserves holds (onStore .addScope (Store.addScope caller scope))
  removeScope : ∀ caller scope, callers caller →
    Preserves holds (onStore .removeScope (Store.removeScope caller scope))

/-- The values of a view that all callers leave alone withstand every builtin command. -/
theorem Unmoved.withstands {γ : Type} {view : Bot → γ} (unmoved : Unmoved view) (value : γ) :
    Withstands (fun bot => view bot = value) fun _ => True where
  read operation query := keeps_iff.mp (unmoved.read operation query) value
  changeVariable caller name text _ :=
    (keeps_iff.mp (unmoved.setVariable caller name text) value).bind fun _ =>
      .modify fun bot same => (unmoved.remembered bot _).trans same
  setAlias caller name command _ := keeps_iff.mp (unmoved.setAlias caller name command) value
  addScope caller scope _ := keeps_iff.mp (unmoved.addScope caller scope) value
  removeScope caller scope _ := keeps_iff.mp (unmoved.removeScope caller scope) value

end Bot

namespace Builtin

open Switchboard.Bot

section Preserves

variable {holds : Bot → Prop} {callers : CallerId → Prop}

theorem preserves_isKnown (name : String) : Preserves holds (isKnown name) :=
  FailsOnly.get.bind fun _ => .pure _

theorem preserves_answerVariables (withstands : Withstands holds callers) (caller : CallerId)
    (name : Option String) : Preserves holds (answerVariables caller name) := by
  refine FailsOnly.bind ((withstands.read _ _).bind fun _ => .pure _) fun known => ?_
  cases name with
  | none => exact .ite (.pure _) (.pure _)
  | some name =>
    dsimp only
    split
    · exact .pure _
    · exact .pure _

theorem preserves_answerLevel (withstands : Withstands holds callers) (caller : CallerId) :
    Preserves holds (answerLevel caller) := by
  refine FailsOnly.get.bind fun bot => (FailsOnly.ofExcept fun _ _ => trivial).bind fun _ => ?_
  exact .ite (.pure _) ((withstands.read _ _).bind fun _ => .pure _)

theorem preserves_assignLevel (withstands : Withstands holds callers) {caller : CallerId}
    (set : ∀ level, Preserves holds (onStore .setLevel (Store.setLevel caller level)))
    (check : Argument) (level : Int) : Preserves holds (assignLevel check caller level) := by
  refine FailsOnly.get.bind fun bot => (FailsOnly.ofExcept fun _ _ => trivial).bind fun _ => ?_
  refine .ite (.pure _) ((withstands.read _ _).bind fun held => ?_)
  refine (FailsOnly.ofExcept fun _ _ => trivial).bind fun _ => ?_
  refine (FailsOnly.ofExcept fun _ _ => trivial).bind fun _ => ?_
  exact (set _).bind fun _ => .pure _

/-- What withstands the commands of some callers is kept by a builtin command that is called for
one of them, if an assignment of a level keeps it. -/
theorem preserves_run (withstands : Withstands holds callers) (builtin : Builtin)
    (arguments : List Argument) (own : ∀ caller, .caller caller ∈ arguments → callers caller)
    (assigned : ∀ check target level, builtin = .setLevel →
      arguments = [check, .value (.text target), .value (.int level)] →
      Preserves holds (assignLevel check (.name target) level)) :
    Preserves holds (builtin.run arguments) := by
  have first {caller : CallerId} {rest : List Argument}
      (same : arguments = .caller caller :: rest) : callers caller :=
    own caller (same ▸ List.mem_cons_self)
  unfold Builtin.run
  split
  · exact .ite (.pure _) ((withstands.changeVariable _ _ _ (first rfl)).bind fun _ => .pure _)
  · exact preserves_answerVariables withstands _ _
  · exact preserves_answerVariables withstands _ _
  · exact (withstands.changeVariable _ _ _ (first rfl)).bind fun _ => .pure _
  · refine .ite (.pure _) ((preserves_isKnown _).bind fun _ => .ite (.pure _) ?_)
    exact (withstands.setAlias _ _ _ (first rfl)).bind fun _ => .pure _
  · exact (withstands.setAlias _ _ _ (first rfl)).bind fun _ => .pure _
  · exact (withstands.read _ _).bind fun _ => .ite (.pure _) (.pure _)
  · refine (preserves_isKnown _).bind fun _ => .ite (.pure _) ?_
    exact (withstands.addScope _ _ (first rfl)).bind fun _ => .pure _
  · exact (withstands.removeScope _ _ (first rfl)).bind fun _ => .pure _
  · exact (withstands.read _ _).bind fun _ => .ite (.pure _) (.pure _)
  · exact preserves_answerLevel withstands _
  · exact preserves_answerLevel withstands _
  · exact assigned _ _ _ rfl rfl
  · exact .throw trivial

end Preserves

variable {γ : Type} {view : Bot → γ}

theorem keeps_assignLevel (unmoved : Unmoved view)
    (set : ∀ caller level, Keeps view (onStore .setLevel (Store.setLevel caller level)))
    (check : Argument) (caller : CallerId) (level : Int) :
    Keeps view (assignLevel check caller level) :=
  keeps_iff.mpr fun value => preserves_assignLevel (unmoved.withstands value)
    (fun level => keeps_iff.mp (set caller level) value) check level

/-- Whatever is kept when a level is assigned is kept by all builtin commands. -/
theorem keeps_run (unmoved : Unmoved view) (builtin : Builtin)
    (assigned : builtin = .setLevel → ∀ check caller level,
      Keeps view (assignLevel check caller level))
    (arguments : List Argument) : Keeps view (builtin.run arguments) :=
  keeps_iff.mpr fun value =>
    preserves_run (unmoved.withstands value) builtin arguments (fun _ _ => trivial)
      fun check target level same _ => keeps_iff.mp (assigned same check (.name target) level) value

end Builtin

namespace Bot

/-- What no builtin command touches. -/
theorem keeps_premises_run (builtin : Builtin) (arguments : List Argument) :
    Keeps premises (builtin.run arguments) := by
  refine Builtin.keeps_run unmoved_premises builtin (fun _ => ?_) arguments
  refine Builtin.keeps_assignLevel unmoved_premises fun caller level => ?_
  exact keeps_premises_onStore (Store.keeps_endings_change _).discard _

/-- Handlers that leave a view of the bot as it is, save those of the builtin commands. -/
def OthersKeep {γ : Type} (view : Bot → γ) (others : Handler → List Argument → BotM Outcome) :
    Prop :=
  ∀ handler arguments, (∀ builtin, handler ≠ .builtin builtin) →
    Keeps view (others handler arguments)

theorem OthersKeep.weaken {γ δ : Type} {view : Bot → γ} {other : Bot → δ}
    {others : Handler → List Argument → BotM Outcome} (kept : OthersKeep view others)
    (seen : ∀ bot later, view later = view bot → other later = other bot) :
    OthersKeep other others :=
  fun handler arguments foreign => (kept handler arguments foreign).weaken seen

/-- A property is kept by a handler if the other handlers keep it and the builtin command that it
may be keeps it. -/
theorem preserves_handle {holds : Bot → Prop} {others : Handler → List Argument → BotM Outcome}
    (foreign : ∀ handler arguments, (∀ builtin, handler ≠ .builtin builtin) →
      Preserves holds (others handler arguments))
    (handler : Handler) (arguments : List Argument)
    (own : ∀ builtin, handler = .builtin builtin → Preserves holds (builtin.run arguments)) :
    Preserves holds ((servicesWith others).handle handler arguments) := by
  cases handler with
  | builtin builtin => exact own builtin rfl
  | help id name => exact foreign _ _ fun builtin same => Handler.noConfusion same
  | helpOfHelp => exact foreign _ _ fun builtin same => Handler.noConfusion same
  | script script => exact foreign _ _ fun builtin same => Handler.noConfusion same

/-- A view is kept by a handler if the other handlers keep it and the builtin command that it may be
keeps it. -/
theorem keeps_handle {γ : Type} {view : Bot → γ}
    {others : Handler → List Argument → BotM Outcome} (kept : OthersKeep view others)
    (handler : Handler) (arguments : List Argument)
    (own : ∀ builtin, handler = .builtin builtin → Keeps view (builtin.run arguments)) :
    Keeps view ((servicesWith others).handle handler arguments) :=
  keeps_iff.mpr fun value => preserves_handle
    (fun handler arguments foreign => keeps_iff.mp (kept handler arguments foreign) value)
    handler arguments fun builtin same => keeps_iff.mp (own builtin same) value

/-- Scripts and helps change nothing but the calls that are recorded. -/
theorem othersKeep_outcomeOf {γ : Type} {view : Bot → γ}
    (calls : ∀ (bot : Bot) (calls : List HandlerCall), view { bot with calls } = view bot) :
    OthersKeep view outcomeOf := by
  intro handler arguments foreign
  cases handler with
  | help id name => exact Keeps.get.bind fun bot => (Keeps.ofExcept _).bind fun _ => .pure _
  | helpOfHelp => exact .pure _
  | builtin builtin => exact absurd rfl (foreign builtin)
  | script script => exact Keeps.bind (.modify fun bot => calls bot _) fun _ => .ofExcept _

end Bot
end Switchboard
