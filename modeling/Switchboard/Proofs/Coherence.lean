import Mathlib.Data.Set.Function
import Switchboard.Proofs.Dispatch
import Switchboard.Proofs.EntryField

/-!
What a bot remembers of its callers' variables. They are asked for once, and forgotten whenever one
of them is changed; so all that is remembered is what the store would answer, and a line is read
with the variables that its caller has at that time.
-/
namespace Switchboard

open Work

namespace Store

/-- The variables that a caller with a key is found to have, or why that cannot be read. -/
def environment (store : Store) (key : String) : Except Failure (Table String) :=
  store.found.map (Users.environment · key)

theorem run_variables? (caller : CallerId) (store : Store) :
    ((variables? caller).run store).1.map (·.getD []) = store.environment (Users.key caller) := by
  rw [variables?, run_read_fst, environment]
  cases store.found with
  | error failure => rfl
  | ok users => rfl

theorem environment_log (store : Store) (log : List Event) :
    ({ store with log } : Store).environment = store.environment := by
  funext key
  rw [environment, environment, found_log]

theorem environment_run {caller : CallerId} (action : Action) (store : Store) (key : String)
    (untouched : Users.key caller = key → action.field? ≠ some "env") :
    ((action.run caller).run store).2.environment key = store.environment key := by
  rw [environment, found_run, environment]
  cases store.found with
  | error failure => rfl
  | ok users => exact congrArg Except.ok (Users.environment_edit? action _ _ users untouched)

/-- Work that leaves the variables of all callers as they are, in a store that can save. -/
structure SparesVariables {α : Type} (work : StoreM α) : Prop where
  unhindered : ∀ store : Store, store.hindrance? = none → (work.run store).2.hindrance? = none
  environment : ∀ store : Store, (work.run store).2.environment = store.environment

theorem sparesVariables_read {α : Type} (query : Users.Entries → α) :
    SparesVariables (read query) where
  unhindered store unhindered := by
    rw [run_read]
    cases store.found with
    | ok users => exact (hindrance?_reloaded store).trans unhindered
    | error failure => exact (hindrance?_looked store).trans unhindered
  environment store := by
    funext key
    rw [run_read, environment]
    cases found : store.found with
    | ok users => rw [environment, found_reloaded, found]
    | error failure => rw [environment, found_looked, found]

/-- What is done for an action spares the variables if the action is not about them. -/
theorem sparesVariables_of_action {α : Type} {work : StoreM α} {caller : CallerId}
    {action : Action} {answer : α → Answer} (does : action.run caller = answer <$> work)
    {field : String} (about : action.field? = some field) (apart : field ≠ "env") :
    SparesVariables work := by
  have same (store : Store) : (work.run store).2 = ((action.run caller).run store).2 := by
    rw [does, run_map]
  refine ⟨fun store unhindered => ?_, fun store => ?_⟩
  · rw [same]
    exact (run_of_unhindered unhindered caller action).1
  · funext key
    rw [same]
    exact environment_run action store key fun _ env =>
      apart (Option.some.inj (about.symm.trans env))

end Store

namespace Bot

/-! ### What is remembered -/

/-- A bot that can save and remembers, for ids that are spelled in some ways, just the variables
that its store has for them. -/
structure Coherent (spellings : Set String) (bot : Bot) : Prop where
  unhindered : bot.store.hindrance? = none
  remembers : ∀ text known, bot.remembered.get? text = some known →
    text ∈ spellings ∧ bot.store.environment (Text.strip text) = .ok known

variable {spellings : Set String}

theorem coherent_of_fresh {bot : Bot} (fresh : bot.remembered = [])
    (unhindered : bot.store.hindrance? = none) : bot.Coherent spellings where
  unhindered := unhindered
  remembers text known found := by
    rw [fresh] at found
    cases found

theorem silent_coherent : Silent (Coherent spellings) where
  outbox _ _ := propext ⟨fun ⟨u, r⟩ => ⟨u, r⟩, fun ⟨u, r⟩ => ⟨u, r⟩⟩
  log _ _ := propext ⟨fun ⟨u, r⟩ => ⟨u, r⟩, fun ⟨u, r⟩ => ⟨u, r⟩⟩

theorem Coherent.takeStore {bot : Bot} (coherent : bot.Coherent spellings) {store : Store}
    (unhindered : store.hindrance? = none) (same : store.environment = bot.store.environment) :
    (bot.takeStore store).Coherent spellings where
  unhindered := unhindered
  remembers text known found := by
    obtain ⟨spelled, held⟩ := coherent.remembers text known found
    refine ⟨spelled, ?_⟩
    rw [← held, ← same]
    exact congrFun (Store.environment_log store []) _

theorem preserves_coherent_onStore {α : Type} {work : StoreM α}
    (spares : Store.SparesVariables work) (operation : StoreOperation) :
    Preserves (Coherent spellings) (onStore operation work) := by
  refine preserves_iff.mpr fun bot coherent => ?_
  rw [run_onStore]
  cases bot.disturbances.lookup operation with
  | some failure => exact coherent
  | none =>
    exact coherent.takeStore (spares.unhindered _ coherent.unhindered) (spares.environment _)

/-- What is done for an action that is not about variables leaves a bot coherent. -/
theorem preserves_coherent_of_action {α : Type} {work : StoreM α} {caller : CallerId}
    {action : Action} {answer : α → Answer} (does : action.run caller = answer <$> work)
    {field : String} (about : action.field? = some field) (apart : field ≠ "env")
    (operation : StoreOperation) : Preserves (Coherent spellings) (onStore operation work) :=
  preserves_coherent_onStore (Store.sparesVariables_of_action does about apart) operation

/-- Forgetting a caller after a change of its variables is enough, if nobody else has its key under
another spelling. -/
theorem preserves_coherent_changeVariable (oneSpelling : Set.InjOn Text.strip spellings)
    {caller : CallerId} (spelled : caller.text ∈ spellings) (name : String)
    (value : Option String) :
    Preserves (Coherent spellings) (Builtin.changeVariable caller name value) := by
  refine preserves_iff.mpr fun bot coherent => ?_
  obtain ⟨unhindered, fails⟩ :=
    Store.run_of_unhindered coherent.unhindered caller (.setVariable name value)
  have elsewhere (key : String) (other : Users.key caller ≠ key) :=
    Store.environment_run (.setVariable name value) bot.store key
      fun same => absurd same other
  have found := Store.found_run caller (.setVariable name value) bot.store
  rw [Action.run_setVariable, run_map] at unhindered fails elsewhere found
  unfold Builtin.changeVariable
  rw [run_bind, run_onStore]
  cases bot.disturbances.lookup .setVariable with
  | some failure => exact coherent
  | none =>
    rcases ran : (Store.setVariable caller name value).run bot.store with ⟨result, store⟩
    rw [ran] at unhindered fails elsewhere found
    cases result with
    | error failure =>
      refine coherent.takeStore unhindered ?_
      funext key
      rw [Store.environment, Store.environment, found, fails failure rfl]
      rfl
    | ok done =>
      refine ⟨unhindered, fun text known remembered => ?_⟩
      replace remembered : (bot.remembered.erase caller.text).get? text = some known := remembered
      rw [Table.get?_erase] at remembered
      split at remembered
      · cases remembered
      · rename_i other
        obtain ⟨member, held⟩ := coherent.remembers text known remembered
        refine ⟨member, ?_⟩
        rw [← held, ← elsewhere _ fun same => other (oneSpelling spelled member same)]
        exact congrFun (Store.environment_log store []) _

theorem withstands_coherent (oneSpelling : Set.InjOn Text.strip spellings) :
    Withstands (Coherent spellings) fun caller => caller.text ∈ spellings where
  read operation query := preserves_coherent_onStore (Store.sparesVariables_read query) operation
  changeVariable _ name value spelled :=
    preserves_coherent_changeVariable oneSpelling spelled name value
  setAlias caller name command _ :=
    preserves_coherent_of_action (Action.run_setAlias caller name command) rfl (by decide) _
  addScope caller scope _ :=
    preserves_coherent_of_action (Action.run_addScope caller scope) rfl (by decide) _
  removeScope caller scope _ :=
    preserves_coherent_of_action (Action.run_removeScope caller scope) rfl (by decide) _

theorem preserves_coherent_assignLevel (oneSpelling : Set.InjOn Text.strip spellings)
    (check : Argument) (caller : CallerId) (level : Int) :
    Preserves (Coherent spellings) (Builtin.assignLevel check caller level) := by
  refine Builtin.preserves_assignLevel (withstands_coherent oneSpelling) (fun level => ?_) check
    level
  exact preserves_coherent_of_action (Action.run_setLevel caller level) rfl (by decide) _

/-! ### Asking for variables -/

/-- What a caller gets who asks for its variables. -/
def known (bot : Bot) (caller : CallerId) : Except Failure (Table String) := do
  let key ← caller.written
  match bot.remembered.get? key with
  | some known => return known
  | none =>
    match bot.disturbances.lookup .getVariables with
    | some failure => throw failure
    | none => bot.store.environment (Users.key caller)

theorem run_variablesOf_fst (bot : Bot) (caller : CallerId) :
    ((storedTables.variablesOf caller).run bot).1 = bot.known caller := by
  rw [CallerTables.run_variablesOf]
  unfold known
  cases caller.written with
  | error failure => rfl
  | ok text =>
    rw [ok_bind]
    dsimp only
    cases bot.remembered.get? text with
    | some known => rfl
    | none =>
      have asked : (storedTables.variables? caller).run bot =
        (onStore .getVariables (Store.variables? caller)).run bot := rfl
      rw [asked, run_onStore]
      cases bot.disturbances.lookup .getVariables with
      | some failure => rfl
      | none =>
        rw [← Store.run_variables?]
        dsimp only
        cases ((Store.variables? caller).run bot.store).1 with
        | error failure => rfl
        | ok stored => rfl

/-- The variables that the store gives are those that are found in it, before and after. -/
theorem run_getVariables {bot later : Bot} {caller : CallerId} {stored : Option (Table String)}
    (asked : (storedTables.variables? caller).run bot = (.ok stored, later)) :
    bot.store.environment (Users.key caller) = .ok (stored.getD []) ∧
      later.store.environment = bot.store.environment := by
  have done : (onStore .getVariables (Store.variables? caller)).run bot = (.ok stored, later) :=
    asked
  obtain ⟨store, ran, rfl⟩ := run_onStore_eq_ok done
  have same := (Store.sparesVariables_read (Users.variables? · (Users.key caller))).environment
    bot.store
  rw [← Store.variables?, ran] at same
  rw [← Store.run_variables?, ran]
  exact ⟨rfl, (Store.environment_log store []).trans same⟩

/-- A coherent bot gives a caller what its store has for the caller, remembered or not. -/
theorem Coherent.known_eq {bot : Bot} (coherent : bot.Coherent spellings) {caller : CallerId}
    (written : caller.written = .ok caller.text)
    (undisturbed : bot.disturbances.lookup .getVariables = none) :
    bot.known caller = bot.store.environment (Users.key caller) := by
  unfold known
  rw [written, ok_bind, undisturbed]
  cases found : bot.remembered.get? caller.text with
  | none => rfl
  | some known => exact (coherent.remembers _ _ found).2.symm

/-- A coherent bot gives a caller no variables but those that its store has for the caller. -/
theorem Coherent.environment_of_variablesOf {bot later : Bot} (coherent : bot.Coherent spellings)
    {caller : CallerId} {known : Table String}
    (asked : (storedTables.variablesOf caller).run bot = (.ok known, later)) :
    bot.store.environment (Users.key caller) = .ok known := by
  have gives : bot.known caller = .ok known :=
    (run_variablesOf_fst bot caller).symm.trans (congrArg Prod.fst asked)
  cases written : caller.written with
  | error failure =>
    rw [Bot.known, written] at gives
    cases gives
  | ok text =>
    obtain rfl := CallerId.text_of_written written
    cases found : bot.remembered.get? caller.text with
    | some remembered =>
      rw [Bot.known, written, ok_bind, found] at gives
      obtain rfl := Except.ok.inj gives
      exact (coherent.remembers _ _ found).2
    | none =>
      cases disturbed : bot.disturbances.lookup .getVariables with
      | some failure =>
        rw [Bot.known, written, ok_bind, found, disturbed] at gives
        cases gives
      | none => exact (coherent.known_eq written disturbed).symm.trans gives

/-- A coherent bot gives a caller its variables wherever they can be read. -/
theorem Coherent.run_variablesOf {bot : Bot} (coherent : bot.Coherent spellings)
    {caller : CallerId} (written : caller.written = .ok caller.text)
    (undisturbed : bot.disturbances.lookup .getVariables = none) {known : Table String}
    (held : bot.store.environment (Users.key caller) = .ok known) :
    ∃ later, (storedTables.variablesOf caller).run bot = (.ok known, later) := by
  have gives := (run_variablesOf_fst bot caller).trans (coherent.known_eq written undisturbed)
  exact ⟨_, Prod.ext (gives.trans held) rfl⟩

/-- What is remembered of a caller who was asked about is what the store has for it. -/
theorem preserves_coherent_variablesOf {caller : CallerId} (spelled : caller.text ∈ spellings) :
    Preserves (Coherent spellings) (storedTables.variablesOf caller) := by
  refine preserves_iff.mpr fun bot coherent => ?_
  have kept : Preserves (Coherent spellings) (storedTables.variables? caller) :=
    preserves_coherent_onStore (Store.sparesVariables_read _) .getVariables
  have remains := (kept bot coherent).1
  rw [CallerTables.run_variablesOf]
  cases written : caller.written with
  | error failure => exact coherent
  | ok text =>
    obtain rfl := CallerId.text_of_written written
    dsimp only
    cases bot.remembered.get? caller.text with
    | some remembered => exact coherent
    | none =>
      rcases asked : (storedTables.variables? caller).run bot with ⟨result, later⟩
      rw [asked] at remains
      cases result with
      | error failure => exact remains
      | ok stored =>
        obtain ⟨held, same⟩ := run_getVariables asked
        refine ⟨remains.unhindered, fun text known found => ?_⟩
        dsimp only at found
        rw [Table.get?_insert] at found
        split at found
        · rename_i here
          obtain rfl := Option.some.inj found
          rw [← here]
          exact ⟨spelled, (congrFun same _).trans held⟩
        · exact remains.remembers text known found

/-! ### Runs -/

/-- Work that changes no variables. All that is remembered after it was remembered before or is what
the store has for a caller. -/
structure RespectsVariables {α : Type} (spellings : Set String) (work : BotM α) : Prop where
  unhindered : ∀ bot : Bot, bot.store.hindrance? = none →
    (work.run bot).2.store.hindrance? = none
  environment : ∀ bot : Bot, (work.run bot).2.store.environment = bot.store.environment
  remembers : ∀ (bot : Bot) (text : String) (known : Table String),
    (work.run bot).2.remembered.get? text = some known →
      bot.remembered.get? text = some known ∨
        text ∈ spellings ∧ bot.store.environment (Text.strip text) = .ok known

theorem RespectsVariables.preserves {α : Type} {work : BotM α}
    (respects : RespectsVariables spellings work) : Preserves (Coherent spellings) work := by
  refine preserves_iff.mpr fun bot coherent => ?_
  refine ⟨respects.unhindered bot coherent.unhindered, fun text known found => ?_⟩
  rw [respects.environment]
  rcases respects.remembers bot text known found with old | asked
  · exact coherent.remembers text known old
  · exact asked

/-- Handlers other than those of the builtin commands that change no variables. -/
def OthersRespectVariables (spellings : Set String)
    (others : Handler → List Argument → BotM Outcome) : Prop :=
  ∀ handler arguments, (∀ builtin, handler ≠ .builtin builtin) →
    RespectsVariables spellings (others handler arguments)

theorem othersRespectVariables_outcomeOf : OthersRespectVariables spellings outcomeOf := by
  intro handler arguments foreign
  have kept : Keeps (fun bot : Bot => (bot.store, bot.remembered)) (outcomeOf handler arguments) :=
    othersKeep_outcomeOf (fun _ _ => rfl) handler arguments foreign
  have store (bot : Bot) : ((outcomeOf handler arguments).run bot).2.store = bot.store :=
    congrArg Prod.fst (kept bot)
  have remembered (bot : Bot) :
      ((outcomeOf handler arguments).run bot).2.remembered = bot.remembered :=
    congrArg Prod.snd (kept bot)
  refine ⟨fun bot unhindered => ?_, fun bot => ?_, fun bot text known found => ?_⟩
  · rw [store]
    exact unhindered
  · rw [store]
  · rw [remembered] at found
    exact .inl found

end Bot

namespace Services

open Switchboard.Bot

variable {others : Handler → List Argument → BotM Outcome} {spellings : Set String}

theorem coherent_after (oneSpelling : Set.InjOn Text.strip spellings)
    (respects : OthersRespectVariables spellings others) {bot : Bot} {message : Message}
    (spelled : message.caller.text ∈ spellings) (coherent : bot.Coherent spellings) :
    ((servicesWith others).after bot message).Coherent spellings := by
  refine preserves_after (withstands_coherent oneSpelling) silent_coherent
    (fun _ => preserves_coherent_variablesOf)
    (fun handler arguments foreign => (respects handler arguments foreign).preserves)
    spelled (fun command check target level later _ holds => ?_) coherent
  exact (preserves_coherent_assignLevel oneSpelling check (.name target) level later holds).1

/-- A caller sets a variable and uses it in the next line. -/
def usedVariable : List Message := [
  { text := "my.env.set A 1", caller := .number 7 },
  { text := "my.env.get A$A", caller := .number 7 }]

end Services
end Switchboard
