import Switchboard.Proofs.Binding
import Switchboard.Proofs.Kinship
import Switchboard.Proofs.Outline

/-!
Lines that go by nothing that a bot has in memory alone. Bots that a caller cannot tell apart, and
that remember its variables as their stores have them, decide about a line of the caller alike and
answer it alike; and they are such bots again when they have answered it.
-/
namespace Switchboard

open Work

namespace Bot

/-! ### Handlers -/

/-- All of a bot that handlers find as it was when the bot started. -/
structure Equipment where
  config : Config
  graph : Graph

def equipment (bot : Bot) : Equipment where
  config := bot.config
  graph := bot.graph

theorem equipment_takeStore (bot : Bot) (store : Store) :
    (bot.takeStore store).equipment = bot.equipment := rfl

theorem keeps_equipment_onStore {α : Type} (operation : StoreOperation) (work : StoreM α) :
    Keeps equipment (onStore operation work) :=
  keeps_onStore (fun bot => equipment_takeStore bot _) operation

theorem unmoved_equipment : Unmoved equipment where
  remembered _ _ := rfl
  read operation query := keeps_equipment_onStore operation (Store.read query)
  setVariable _ _ _ := keeps_equipment_onStore _ _
  setAlias _ _ _ := keeps_equipment_onStore _ _
  addScope _ _ := keeps_equipment_onStore _ _
  removeScope _ _ := keeps_equipment_onStore _ _

/-- Work for a caller that goes by nothing that a bot has in memory alone, and that leaves what is
remembered of the caller, the configuration and the commands in order. -/
structure Stateless (caller : CallerId) (work : BotM Outcome) : Prop where
  agree : Agree (Akin caller) Eq work work
  coherent : Preserves (Coherent {caller.text}) work
  equipment : Keeps equipment work

variable {caller : CallerId} {bot twin : Bot}

theorem stateless_run (builtin : Builtin) {arguments : List Argument}
    (own : ∀ id, .caller id ∈ arguments → id = caller)
    (writable : ∀ n, .value (.int n) ∈ arguments → hasWritableDigits n = true) :
    Stateless caller (builtin.run arguments) where
  agree := Builtin.agree_run builtin own writable
  coherent := by
    have oneSpelling : Set.InjOn Text.strip {caller.text} := Set.injOn_singleton Text.strip _
    refine Builtin.preserves_run (withstands_coherent oneSpelling) builtin arguments ?_ ?_
    · exact fun id member => congrArg CallerId.text (own id member)
    · exact fun check target level _ _ =>
        preserves_coherent_assignLevel oneSpelling check (.name target) level
  equipment := by
    refine Builtin.keeps_run unmoved_equipment builtin (fun _ => ?_) arguments
    exact Builtin.keeps_assignLevel unmoved_equipment fun _ _ => keeps_equipment_onStore _ _

/-- Work that changes nothing but what is recorded, and that goes by the configuration and the
commands alone. -/
theorem stateless_of_unrecorded {work : BotM Outcome} (kept : Keeps unrecorded work)
    (gives : ∀ bot twin : Bot, bot.equipment = twin.equipment →
      (work.run bot).1 = (work.run twin).1) : Stateless caller work where
  agree bot twin akin := by
    have equipment : bot.equipment = twin.equipment :=
      congrArg (fun scene => Equipment.mk scene.config scene.graph) akin.scene
    exact ⟨concur_eq_iff.mpr (gives bot twin equipment), akin.of_unrecorded (kept bot) (kept twin)⟩
  coherent := by
    have recorded (bot : Bot) : bot.unrecorded.Coherent {caller.text} ↔
        bot.Coherent {caller.text} := ⟨fun ⟨u, r⟩ => ⟨u, r⟩, fun ⟨u, r⟩ => ⟨u, r⟩⟩
    refine preserves_iff.mpr fun bot coherent => ?_
    rw [← recorded, kept bot, recorded]
    exact coherent
  equipment := kept.weaken fun bot later same => by
    calc
      later.equipment = later.unrecorded.equipment := rfl
      _ = bot.unrecorded.equipment := congrArg Bot.equipment same
      _ = bot.equipment := rfl

/-- Handlers other than those of the builtin commands that are stateless when a caller calls them.
-/
def OthersAreStateless (caller : CallerId) (others : Handler → List Argument → BotM Outcome) :
    Prop :=
  ∀ handler arguments, (∀ builtin, handler ≠ .builtin builtin) →
    Stateless caller (others handler arguments)

/-- Scripts and helps are stateless. -/
theorem othersAreStateless_outcomeOf : OthersAreStateless caller outcomeOf := by
  intro handler arguments foreign
  have kept : Keeps unrecorded (outcomeOf handler arguments) :=
    othersKeep_outcomeOf (fun _ _ => rfl) handler arguments foreign
  refine stateless_of_unrecorded kept fun bot twin same => ?_
  cases handler with
  | builtin builtin => exact absurd rfl (foreign builtin)
  | helpOfHelp => rfl
  | script script => simp only [outcomeOf, Script.run, run_bind, run_modify, run_ofExcept]
  | help id name =>
    have graph : bot.graph = twin.graph := congrArg Equipment.graph same
    simp only [outcomeOf, run_bind, run_get, run_ofExcept, graph]
    cases Graph.describe (twin.graph.node id) name with
    | error failure => rfl
    | ok text => rfl

/-! ### Deciding about a line -/

/-- Bots that a caller cannot tell apart and that remember of it what their stores have. -/
def Kin (caller : CallerId) (bot twin : Bot) : Prop :=
  Akin caller bot twin ∧ bot.Coherent {caller.text} ∧ twin.Coherent {caller.text}

/-- What akin bots agree about and coherent bots keep, kin agree about. -/
theorem agree_kin {α : Type} {results : α → α → Prop} {work : BotM α}
    (agree : Agree (Akin caller) results work work)
    (kept : Preserves (Coherent {caller.text}) work) : Agree (Kin caller) results work work :=
  agree.and kept kept

theorem heard_kin : Heard (Kin caller) where
  config _ _ kin := kin.1.config
  record event := agree_kin (heard_akin.record event) <| preserves_iff.mpr fun bot coherent =>
    (silent_coherent.keeps_record event bot).mpr coherent
  deliver message segment := agree_kin (heard_akin.deliver message segment) <|
    preserves_iff.mpr fun bot coherent =>
      (silent_coherent.keeps_deliver message segment bot).mpr coherent

theorem agree_kin_read {α : Type} {query : Users.Entries → α} (operation : StoreOperation)
    (gives : ∀ users others, Table.Related Json.Twin users others → query users = query others) :
    Agree (Kin caller) Eq (onStore operation (Store.read query))
      (onStore operation (Store.read query)) :=
  agree_kin (agree_read operation gives)
    (preserves_coherent_onStore (Store.sparesVariables_read query) operation)

/-- Asking for variables leaves a caller nothing to tell bots apart by. -/
theorem akin_after_variablesOf (akin : Akin caller bot twin) :
    Akin caller ((storedTables.variablesOf caller).run bot).2
      ((storedTables.variablesOf caller).run twin).2 := by
  have steady : Preserves (IsSteady caller) (storedTables.variablesOf caller) := by
    refine (storedTables_failOnly fun operation query => ?_).variablesOf (fun _ _ => trivial)
      (fun bot known steady => steady.remember known) caller
    refine preserves_iff.mpr fun bot steady => ?_
    rw [run_onStore, steady.undisturbed]
    exact steady.takeStore (steady.store.read query)
  have scene : Keeps Bot.scene (storedTables.variablesOf caller) := by
    refine (storedTables_keep fun operation query => ?_).variablesOf (fun _ _ => rfl) caller
    exact keeps_onStore
      (fun bot => congrArg (Scene.mk _ _ _) (Store.file_read query bot.store)) operation
  exact {
    steady := (steady bot akin.steady).1
    steadyTwin := (steady twin akin.steadyTwin).1
    scene := ((scene bot).trans akin.scene).trans (scene twin).symm }

/-- Kin get the same variables. -/
theorem agree_kin_variablesOf :
    Agree (Kin caller) (Table.Related Eq) (storedTables.variablesOf caller)
      (storedTables.variablesOf caller) := by
  intro bot twin kin
  obtain ⟨akin, coherent, coherentTwin⟩ := kin
  have kept : Preserves (Coherent {caller.text}) (storedTables.variablesOf caller) :=
    preserves_coherent_variablesOf rfl
  refine ⟨?_, akin_after_variablesOf akin, (kept bot coherent).1, (kept twin coherentTwin).1⟩
  rw [run_variablesOf_fst, run_variablesOf_fst]
  cases written : caller.written with
  | error failure =>
    rw [known, known, written]
    exact .error failure
  | ok text =>
    obtain rfl := CallerId.text_of_written written
    rw [coherent.known_eq written (akin.steady.undisturbed ▸ rfl),
      coherentTwin.known_eq written (akin.steadyTwin.undisturbed ▸ rfl)]
    refine akin.store.found.map fun users others alike => ?_
    obtain ⟨twins, tidy, tidyOther⟩ := alike
    exact Users.environment_of_twins twins tidy tidyOther

theorem comparable_kin : storedTables.Comparable caller (Kin caller) where
  config _ _ kin := kin.1.config
  graph _ _ kin := kin.1.graph
  variablesOf := agree_kin_variablesOf.weaken fun _ _ related =>
    Line.tokenize_congr fun name => Table.eq_of_rel (related.values name)
  level? := agree_kin_read _ fun _ _ twins => Users.level?_eq_of_twins twins _
  alias? _ := agree_kin_read _ fun _ _ twins => Users.alias?_eq_of_twins twins _ _
  scopes := agree_kin_read _ fun _ _ twins => Users.scopes_eq_of_twins twins _

end Bot

namespace Services

open Switchboard.Bot

variable {others : Handler → List Argument → BotM Outcome} {caller : CallerId}

/-! ### Answering a line -/

/-- The handler that a line leads to is stateless with the arguments that were bound for it. -/
theorem stateless_handle (stateless : OthersAreStateless caller others) {message : Message}
    (own : message.caller = caller) {text : String} {bot later : Bot} {admission : Admission}
    (admitted : (storedTables.gate message text).run bot = (.ok admission, later)) :
    Stateless caller ((servicesWith others).handle admission.handler admission.arguments) := by
  obtain ⟨command, handler, arguments⟩ := admission
  cases handler with
  | help id name => exact stateless _ _ nofun
  | helpOfHelp => exact stateless _ _ nofun
  | script script => exact stateless _ _ nofun
  | builtin builtin =>
    refine stateless_run builtin (fun id member => ?_) fun n member => ?_
    · exact (CallerTables.caller_of_gate admitted member).trans own
    · obtain ⟨reading, middle, id, node, -, bound⟩ := CallerTables.arguments_of_gate admitted
      have writable := Binding.isWritable_of_bindParameters bound member
      rwa [Datum.isWritable] at writable

/-- Kin answer a line of the caller alike, and are kin afterwards. -/
theorem agree_run (stateless : OthersAreStateless caller others) {message : Message}
    (own : message.caller = caller) :
    Agree (Kin caller) Eq ((servicesWith others).run message)
      ((servicesWith others).run message) := by
  obtain rfl := own
  intro bot twin kin
  have received : Kin message.caller (bot.receive message) (twin.receive message) :=
    (heard_kin.record (.lineReceived message.caller (lineOf message.text)) bot twin kin).2
  have gated : Agree (Kin message.caller) Eq
      ((servicesWith others).gate message (lineOf message.text))
      ((servicesWith others).gate message (lineOf message.text)) :=
    comparable_kin.agree_gate (lineOf message.text)
  -- Both decide alike, so one handler is called with one list of arguments, or one fault is told.
  obtain ⟨concur, still⟩ := gated _ _ received
  have same := concur_eq_iff.mp concur
  rw [run_gate, run_gate]
  rcases decided : ((servicesWith others).gate message (lineOf message.text)).run
    (bot.receive message) with ⟨result, later⟩
  rcases decidedTwin : ((servicesWith others).gate message (lineOf message.text)).run
    (twin.receive message) with ⟨resultTwin, laterTwin⟩
  rw [decided, decidedTwin] at same still
  obtain rfl : result = resultTwin := same
  cases result with
  | error fault => exact heard_kin.agree_settle message fault later laterTwin still
  | ok admission =>
    have handled := stateless_handle stateless rfl decided
    exact heard_kin.agree_answer _ message (agree_kin handled.agree handled.coherent) later
      laterTwin still

/-- Lines leave the configuration and the commands as they are. -/
theorem equipment_after (stateless : OthersAreStateless caller others) (bot : Bot)
    (message : Message) : ((servicesWith others).after bot message).equipment = bot.equipment := by
  have silent : Silent fun later : Bot => later.equipment = bot.equipment :=
    ⟨fun _ _ => rfl, fun _ _ => rfl⟩
  have asks (other : CallerId) : Keeps equipment (storedTables.variablesOf other) :=
    unmoved_equipment.storedTables.variablesOf (fun _ _ => rfl) other
  refine preserves_after (unmoved_equipment.withstands bot.equipment) silent
    (fun other _ => keeps_iff.mp (asks other) _)
    (fun handler arguments foreign =>
      keeps_iff.mp (stateless handler arguments foreign).equipment _)
    trivial (fun command check target level later _ same => ?_) rfl
  refine Eq.trans ?_ same
  exact Builtin.keeps_assignLevel unmoved_equipment (fun _ _ => keeps_equipment_onStore _ _) check
    (.name target) level later

end Services
end Switchboard
