import Switchboard.Proofs.Agreement
import Switchboard.Proofs.Coherence
import Switchboard.Proofs.Gate
import Switchboard.Proofs.Permission

/-!
Callers do not influence each other. Whatever callers with other keys have a bot do, save that they
assign levels to a caller, the caller's next line is decided about as if nothing had been done, and
the store has the same for the caller.
-/
namespace Switchboard

open Work

namespace Store

/-- All that the store has for a key, or why that cannot be read. -/
def profile (store : Store) (key : String) : Except Failure Users.Profile :=
  store.found.map (Users.profile · key)

theorem environment_eq (store : Store) (key : String) :
    store.environment key =
      (store.profile key).map fun profile => profile.environment.getD [] := by
  rw [environment, profile]
  cases store.found with
  | error failure => rfl
  | ok users => rfl

theorem profile_read {α : Type} (query : Users.Entries → α) (store : Store) (key : String) :
    ((read query).run store).2.profile key = store.profile key := by
  rw [run_read, profile, profile]
  cases found : store.found with
  | ok users => rw [found_reloaded, found]
  | error failure => rw [found_looked, found]

/-- An action is about the caller of its key alone. -/
theorem profile_run {caller : CallerId} {key : String} (apart : Users.key caller ≠ key)
    (action : Action) (store : Store) :
    ((action.run caller).run store).2.profile key = store.profile key := by
  rw [profile, found_run, profile]
  cases store.found with
  | error failure => rfl
  | ok users =>
    cases edited : action.edit? (Users.key caller) users with
    | none => simp [Except.map, edited]
    | some changed => simp [Except.map, edited, Action.profile_of_edit? edited apart]

/-- Queries are answered from the profile of their caller. -/
theorem run_of_profile {store other : Store} {caller : CallerId}
    (same : store.profile (Users.key caller) = other.profile (Users.key caller)) {action : Action}
    (query : action.isQuery = true) :
    ((action.run caller).run store).1 = ((action.run caller).run other).1 := by
  have answered (store : Store) : ((action.run caller).run store).1 =
      store.found.map (action.answer (Users.key caller)) :=
    (@run_of_isQuery ⟨caller, action⟩ query store).1
  rw [answered, answered]
  exact map_eq_of_map_eq (fun _ _ => Action.answer_of_profile query) same

end Store

namespace Bot

/-- All of a bot that the lines of a caller are decided by. -/
structure Outlook where
  config : Config
  graph : Graph
  disturbances : List (StoreOperation × Failure)
  profile : Except Failure Users.Profile
  known : Except Failure (Table String)

def outlook (bot : Bot) (caller : CallerId) : Outlook where
  config := bot.config
  graph := bot.graph
  disturbances := bot.disturbances
  profile := bot.store.profile (Users.key caller)
  known := bot.known caller

theorem outlook_congr {bot later : Bot} {caller : CallerId} (config : later.config = bot.config)
    (graph : later.graph = bot.graph) (disturbances : later.disturbances = bot.disturbances)
    (profile : later.store.profile (Users.key caller) = bot.store.profile (Users.key caller))
    (remembered : later.remembered.get? caller.text = bot.remembered.get? caller.text) :
    later.outlook caller = bot.outlook caller := by
  have known : later.known caller = bot.known caller := by
    unfold Bot.known
    cases written : caller.written with
    | error failure => rfl
    | ok text =>
      obtain rfl := CallerId.text_of_written written
      rw [ok_bind, ok_bind, remembered, disturbances, Store.environment_eq, Store.environment_eq,
        profile]
  rw [outlook, outlook, config, graph, disturbances, profile, known]

theorem outlook_takeStore {bot : Bot} {store : Store} {caller : CallerId}
    (same : store.profile (Users.key caller) = bot.store.profile (Users.key caller)) :
    (bot.takeStore store).outlook caller = bot.outlook caller := by
  refine outlook_congr rfl rfl rfl (Eq.trans ?_ same) rfl
  exact congrArg (·.map (Users.profile · (Users.key caller))) (Store.found_log store [])

theorem keeps_outlook_onStore {α : Type} {work : StoreM α} {caller : CallerId}
    (same : ∀ store : Store, (work.run store).2.profile (Users.key caller) =
      store.profile (Users.key caller))
    (operation : StoreOperation) : Keeps (·.outlook caller) (onStore operation work) :=
  keeps_onStore (fun bot => outlook_takeStore (same bot.store)) operation

theorem keeps_outlook_read {α : Type} (operation : StoreOperation)
    (query : Users.Entries → α) (caller : CallerId) :
    Keeps (·.outlook caller) (onStore operation (Store.read query)) :=
  keeps_outlook_onStore (fun store => Store.profile_read query store _) operation

/-- What is done for another key leaves the outlook of a caller as it is. -/
theorem keeps_outlook_of_action {α : Type} {work : StoreM α} {caller other : CallerId}
    (apart : Users.key other ≠ Users.key caller) {action : Action} {answer : α → Answer}
    (does : action.run other = answer <$> work) (operation : StoreOperation) :
    Keeps (·.outlook caller) (onStore operation work) := by
  refine keeps_outlook_onStore (fun store => ?_) operation
  have same : (work.run store).2 = ((action.run other).run store).2 := by
    rw [does, run_map]
  rw [same]
  exact Store.profile_run apart action store

/-- Ids with one text get the same variables. -/
theorem known_congr {caller other : CallerId} (written : caller.written = .ok caller.text)
    (writtenOther : other.written = .ok other.text) (same : caller.text = other.text) (bot : Bot) :
    bot.known caller = bot.known other := by
  have key : Users.key caller = Users.key other := congrArg Text.strip same
  unfold known
  rw [written, writtenOther, ok_bind, ok_bind, same, key]

/-- Whoever asks for variables changes nothing of what anybody is going to get. -/
theorem keeps_outlook_variablesOf (caller other : CallerId) :
    Keeps (·.outlook caller) (storedTables.variablesOf other) := by
  intro bot
  have kept (caller : CallerId) : Keeps (·.outlook caller) (storedTables.variables? other) :=
    keeps_outlook_read .getVariables _ caller
  have remains := fun caller => kept caller bot
  have gives := run_variablesOf_fst bot other
  rw [CallerTables.run_variablesOf] at gives ⊢
  cases written : other.written with
  | error failure => rfl
  | ok text =>
    obtain rfl := CallerId.text_of_written written
    rw [written] at gives
    dsimp only at gives ⊢
    cases fresh : bot.remembered.get? other.text with
    | some remembered => rfl
    | none =>
      rw [fresh] at gives
      rcases asked : (storedTables.variables? other).run bot with ⟨result, later⟩
      rw [asked] at gives
      simp only [asked] at remains
      cases result with
      | error failure => exact remains caller
      | ok stored =>
        refine Eq.trans ?_ (remains caller)
        dsimp only
        by_cases same : caller.text = other.text
        · -- What is remembered now is what the caller was going to get.
          have same' : later.known other = .ok (stored.getD []) :=
            (congrArg Outlook.known (remains other)).trans gives.symm
          refine congrArg (Outlook.mk later.config later.graph later.disturbances
            (later.store.profile (Users.key caller))) ?_
          cases writtenToo : caller.written with
          | error failure =>
            unfold known
            rw [writtenToo]
            rfl
          | ok text =>
            obtain rfl := CallerId.text_of_written writtenToo
            rw [known_congr writtenToo written same later, same', known, writtenToo, ok_bind, same,
              Table.get?_insert, if_pos rfl]
            rfl
        · refine outlook_congr rfl rfl rfl rfl ?_
          rw [Table.get?_insert, if_neg (Ne.symm same)]

/-- What is done for other keys leaves the outlook of a caller as it is, save that levels are
assigned. -/
theorem withstands_outlook (caller : CallerId) (value : Outlook) :
    Withstands (fun bot => bot.outlook caller = value)
      fun other => Users.key other ≠ Users.key caller where
  read operation query := keeps_iff.mp (keeps_outlook_read operation query caller) value
  changeVariable other name text apart := by
    have set := keeps_iff.mp (keeps_outlook_of_action apart
      (Action.run_setVariable other name text) .setVariable) value
    refine set.bind fun _ => .modify fun bot same => Eq.trans ?_ same
    refine outlook_congr rfl rfl rfl rfl ?_
    have unlike : other.text ≠ caller.text := fun text => apart (congrArg Text.strip text)
    dsimp only
    rw [Table.get?_erase, if_neg unlike]
  setAlias other name command apart :=
    keeps_iff.mp (keeps_outlook_of_action apart (Action.run_setAlias other name command) _) value
  addScope other scope apart :=
    keeps_iff.mp (keeps_outlook_of_action apart (Action.run_addScope other scope) _) value
  removeScope other scope apart :=
    keeps_iff.mp (keeps_outlook_of_action apart (Action.run_removeScope other scope) _) value

theorem preserves_outlook_assignLevel {caller target : CallerId}
    (apart : Users.key target ≠ Users.key caller) (value : Outlook) (check : Argument)
    (level : Int) :
    Preserves (fun bot => bot.outlook caller = value) (Builtin.assignLevel check target level) := by
  refine Builtin.preserves_assignLevel (withstands_outlook caller value) (fun level => ?_) check
    level
  exact keeps_iff.mp (keeps_outlook_of_action apart (Action.run_setLevel target level) _) value

/-! ### Lines of one caller -/

/-- What is read of a caller is the same in bots with one outlook. -/
theorem agree_outlook_read {α : Type} (caller : CallerId) (operation : StoreOperation)
    {query : Users.Entries → α}
    (seen : ∀ users others,
      Users.profile users (Users.key caller) = Users.profile others (Users.key caller) →
      query users = query others) :
    Agree (fun bot twin => bot.outlook caller = twin.outlook caller) Eq
      (onStore operation (Store.read query)) (onStore operation (Store.read query)) := by
  refine .of_keeps (keeps_outlook_read operation query caller)
    (keeps_outlook_read operation query caller) fun bot twin same => concur_eq_iff.mpr ?_
  have disturbances : bot.disturbances = twin.disturbances := congrArg Outlook.disturbances same
  have found := map_eq_of_map_eq seen (congrArg Outlook.profile same)
  rw [run_onStore, run_onStore, disturbances]
  cases twin.disturbances.lookup operation with
  | some failure => rfl
  | none =>
    dsimp only
    rw [Store.run_read_fst, Store.run_read_fst, found]

theorem comparable_outlook (caller : CallerId) :
    storedTables.Comparable caller fun bot twin => bot.outlook caller = twin.outlook caller where
  config _ _ same := congrArg Outlook.config same
  graph _ _ same := congrArg Outlook.graph same
  variablesOf := by
    have agree : Agree (fun bot twin => bot.outlook caller = twin.outlook caller) Eq
        (storedTables.variablesOf caller) (storedTables.variablesOf caller) := by
      refine .of_keeps (keeps_outlook_variablesOf caller caller)
        (keeps_outlook_variablesOf caller caller) fun bot twin same => concur_eq_iff.mpr ?_
      rw [run_variablesOf_fst, run_variablesOf_fst]
      exact congrArg Outlook.known same
    exact agree.weaken fun known other same text => by rw [same]
  level? := agree_outlook_read caller _ fun _ _ same => congrArg Users.Profile.level same
  alias? name := agree_outlook_read caller _ fun _ _ same =>
    congrArg (fun profile : Users.Profile => profile.command name) same
  scopes := agree_outlook_read caller _ fun _ _ same => congrArg Users.Profile.scopes same

theorem keeps_frame_gate (message : Message) (text : String) :
    Keeps frame (storedTables.gate message text) :=
  (storedTables_keep keeps_frame_read).gate (fun _ _ => rfl) message text

end Bot

namespace Services

open Switchboard.Bot

variable {others : Handler → List Argument → BotM Outcome}

/-- A line of another key leaves the outlook of a caller as it is, unless it assigns the caller a
level. -/
theorem outlook_after (kept : OthersKeep outlook others) {bot : Bot} {caller : CallerId}
    {message : Message} (apart : Users.key message.caller ≠ Users.key caller)
    (unassigned : ∀ target level, bot.Assigns message target level →
      Text.strip target ≠ Users.key caller) :
    ((servicesWith others).after bot message).outlook caller = bot.outlook caller := by
  have silent : Silent fun later : Bot => later.outlook caller = bot.outlook caller :=
    ⟨fun _ _ => rfl, fun _ _ => rfl⟩
  have asks (other : CallerId) : Preserves (fun later => later.outlook caller = bot.outlook caller)
      (storedTables.variablesOf other) :=
    keeps_iff.mp (keeps_outlook_variablesOf caller other) _
  have foreign (handler : Handler) (arguments : List Argument)
      (foreign : ∀ builtin, handler ≠ .builtin builtin) :
      Preserves (fun later => later.outlook caller = bot.outlook caller)
        (others handler arguments) :=
    keeps_iff.mp ((kept handler arguments foreign).weaken fun _ _ same => congrFun same caller) _
  refine preserves_after (withstands_outlook caller (bot.outlook caller)) silent
    (fun other _ => asks other) foreign apart ?_ rfl
  intro command check target level later admitted same
  by_cases grants : later.Grants check (.name target) level
  · have assigns : bot.Assigns message target level :=
      ⟨command, check, later, admitted, grants_of_standing (standing_of_gate admitted) grants⟩
    have elsewhere : Users.key (.name target) ≠ Users.key caller :=
      unassigned target level assigns
    exact (preserves_outlook_assignLevel elsewhere _ check level later same).1
  · have reads (target : CallerId) :
        Keeps (·.outlook caller) (onStore .getLevel (Store.level? target)) :=
      keeps_outlook_read .getLevel _ caller
    exact (Builtin.view_of_not_grants reads grants).trans same

/-- A line of a caller that makes the first part of a name stand for something else. -/
def foreignAlias : Message :=
  { text := "my.alias.set my perm", caller := .name "bob" }

/-- The builtin command that a handler runs. -/
def builtin? : Handler → Option Builtin
  | .builtin builtin => some builtin
  | _ => none

theorem idle_foreignAlias (target : String) (level : Int) :
    ¬ (withBuiltins {}).Assigns foreignAlias target level := by
  rintro ⟨command, check, later, admitted, -⟩
  have called : ((storedTables.gate foreignAlias (lineOf foreignAlias.text)).run
      ((withBuiltins {}).receive foreignAlias)).1.toOption.bind (builtin? ·.handler) =
        some .setAlias := by
    decide +kernel
  rw [admitted] at called
  cases called

end Services
end Switchboard
