import Switchboard.Console.Session
import Switchboard.Proofs.SharedFile
import Switchboard.Proofs.Stateless

/-!
Restarting the console. A session that is ended after some lines and started again over the state
file that it left goes on as if it had not been ended: for whatever the bot has in memory then, a
new bot reads from the file or asks for. It shows only if a variable of the caller is no text and
has fields that do not stand in ascending order, as no session writes them.
-/
namespace Switchboard

open Work

namespace Bot

/-! ### Starting -/

/-- A bot that has not run a line yet. -/
structure IsNew (file : StateFile) (bot : Bot) : Prop where
  store : bot.store = { file }
  remembered : bot.remembered = []
  disturbances : bot.disturbances = []
  outbox : bot.outbox = {}

/-- New bots over two files with one configuration and the same commands. -/
structure AreNew (file other : StateFile) (bot twin : Bot) : Prop where
  new : bot.IsNew file
  newTwin : twin.IsNew other
  equipment : bot.equipment = twin.equipment

variable {file other : StateFile} {bot twin : Bot}

theorem AreNew.config (areNew : AreNew file other bot twin) : bot.config = twin.config :=
  congrArg Equipment.config areNew.equipment

theorem IsNew.withGraph (isNew : bot.IsNew file) (graph : Graph) :
    IsNew file { bot with graph } :=
  ⟨isNew.store, isNew.remembered, isNew.disturbances, isNew.outbox⟩

theorem IsNew.logging (isNew : bot.IsNew file) (events : List Event) :
    (bot.logging events).IsNew file :=
  ⟨isNew.store, isNew.remembered, isNew.disturbances, isNew.outbox⟩

theorem agree_record_new (event : Event) :
    Agree (AreNew file other) Eq (record event) (record event) :=
  .modify fun _ _ areNew =>
    ⟨areNew.new.logging [event], areNew.newTwin.logging [event], areNew.equipment⟩

theorem agree_onGraph_new {α : Type} (work : GraphM α) :
    Agree (AreNew file other) Eq (onGraph work) (onGraph work) := by
  refine agree_onGraph (fun bot twin areNew => congrArg Equipment.graph areNew.equipment) ?_ work
  intro bot twin graph areNew
  refine ⟨areNew.new.withGraph graph, areNew.newTwin.withGraph graph, ?_⟩
  exact congrArg (Equipment.mk · graph) areNew.config

end Bot

namespace Plugin

open Switchboard.Bot

variable {file other : StateFile}

theorem agree_select (available : Table Module) (selection : Selection) :
    Agree (AreNew file other) Eq (select available selection) (select available selection) := by
  cases selection with
  | pattern glob => exact .pure rfl
  | names names =>
    refine .filterMapM names fun stem => ?_
    split
    · exact .pure rfl
    · exact (agree_record_new _).bind fun _ _ _ => .pure rfl

theorem agree_setUp (title : Document) (stem : String) (module : Module) :
    Agree (AreNew file other) Eq (setUp title stem module) (setUp title stem module) := by
  refine (agree_record_new _).bind fun _ _ _ => ?_
  extract_lets settled
  have agree : Agree (AreNew file other) Eq settled settled := by
    refine (Agree.ofExcept (concur_eq_iff.mpr rfl)).bind fun name _ same => ?_
    subst same
    refine Agree.get.bind fun bot twin areNew => ?_
    rw [areNew.config]
    exact (Agree.ofExcept (concur_eq_iff.mpr rfl)).bind fun settings _ same => same ▸ .pure rfl
  cases module.setup with
  | missing => exact .throw _
  | fails cause => exact agree.discard.bind fun _ _ _ => .throw _
  | declares spec =>
    refine agree.bind fun found _ same => ?_
    subst same
    exact agree_onGraph_new _

theorem agree_loadOne (entry : String × Module) :
    Agree (AreNew file other) Eq (loadOne entry) (loadOne entry) := by
  obtain ⟨stem, module⟩ := entry
  unfold loadOne
  dsimp only
  cases module.broken with
  | some cause => exact (agree_record_new _).bind fun _ _ _ => .pure rfl
  | none =>
    have ready : Agree (AreNew file other) Eq
        (some <$> setUp (module.title stem) stem module)
        (some <$> setUp (module.title stem) stem module) := (agree_setUp _ stem module).map some
    refine Agree.bind (ready.tryCatch fun cause => ?_) fun ready? _ same => ?_
    · exact (agree_record_new _).bind fun _ _ _ => .pure rfl
    · subst same
      cases ready? with
      | none => exact .pure rfl
      | some found =>
        refine (agree_onGraph_new _).bind fun _ _ _ => ?_
        exact (agree_record_new _).bind fun _ _ _ => .pure rfl

/-- Plugins are loaded by the configuration and the commands alone. -/
theorem agree_load (directory : Option Directory) (selection : Selection) :
    Agree (AreNew file other) Eq (load directory selection) (load directory selection) := by
  refine Agree.get.bind fun bot twin areNew => ?_
  rw [areNew.config]
  refine (Agree.ofExcept (concur_eq_iff.mpr rfl)).bind fun modules _ same => ?_
  subst same
  refine (agree_select modules selection).bind fun chosen _ same => ?_
  subst same
  exact .filterMapM chosen agree_loadOne

end Plugin

namespace Console

open Switchboard.Bot

/-- Bots are started alike over any two files. -/
theorem start_alike (config : Config) (place : Except Obstacle (Option Plugin.Directory))
    (file other : StateFile) :
    Concur (AreNew file other) (start config file place) (start config other place) := by
  have new (file : StateFile) : IsNew file { config, store := { file } } := ⟨rfl, rfl, rfl, rfl⟩
  have builtins {bot twin : Bot} (areNew : AreNew file other bot twin) :
      AreNew file other bot.withBuiltins twin.withBuiltins := by
    unfold withBuiltins
    exact Agree.snd (.forM _ fun _ _ => (agree_onGraph_new _).discard) areNew
  have before := builtins ⟨new file, new other, rfl⟩
  unfold start
  extract_lets bot loading twin
  have agree : Agree (AreNew file other) Eq loading loading := by
    unfold loading
    cases config.pluginsDir with
    | none => exact .pure rfl
    | some path =>
      refine (Agree.ofExcept (concur_eq_iff.mpr rfl)).bind fun directory _ same => ?_
      subst same
      exact (Plugin.agree_load directory config.plugins).discard
  obtain ⟨concur, started⟩ := agree bot.withBuiltins twin.withBuiltins before
  exact concur.map fun _ _ _ => started

/-! ### Answering lines -/

variable {others : Handler → List Argument → BotM Outcome} {caller : CallerId} {bot twin : Bot}

/-- Kin print the same in answer to a line, and are kin afterwards. -/
theorem answerWith_kin (stateless : OthersAreStateless caller others) (kin : Kin caller bot twin)
    (line : String) :
    (answerWith (servicesWith others) caller bot line).1 =
        (answerWith (servicesWith others) caller twin line).1 ∧
      Kin caller (answerWith (servicesWith others) caller bot line).2
        (answerWith (servicesWith others) caller twin line).2 := by
  let message : Message := { text := line, caller }
  have answered : Agree (Kin caller) Eq ((servicesWith others).run message)
    ((servicesWith others).run message) := Services.agree_run stateless rfl
  obtain ⟨-, akin, coherent, coherentTwin⟩ := answered bot twin kin
  have printed := congrArg (fun replies : List Reply =>
    String.join (replies.map fun reply => print reply.segment)) akin.replies
  refine ⟨printed, ⟨?_, ?_, ?_⟩, ?_, ?_⟩
  · exact ⟨akin.steady.undisturbed, akin.steady.reliable, akin.steady.store⟩
  · exact ⟨akin.steadyTwin.undisturbed, akin.steadyTwin.reliable, akin.steadyTwin.store⟩
  · exact congrArg (fun scene : Scene => { scene with replies := [] }) akin.scene
  · exact ⟨coherent.unhindered, coherent.remembers⟩
  · exact ⟨coherentTwin.unhindered, coherentTwin.remembers⟩

theorem file_answerWith (services : Services) (line : String) :
    (answerWith services caller bot line).2.store.file =
      (services.after bot { text := line, caller }).store.file := rfl

/-- Whatever was printed before comes first. -/
theorem foldl_answerWith (services : Services) (printed : String) (lines : List String) :
    lines.foldl (fun (state : String × Bot) line =>
        (state.1 ++ (answerWith services caller state.2 line).1,
          (answerWith services caller state.2 line).2)) (printed, bot) =
      (printed ++ (answerLines services caller bot lines).1,
        (answerLines services caller bot lines).2) := by
  induction lines generalizing printed bot with
  | nil => exact congrArg (·, bot) (String.append_empty).symm
  | cons line rest ih =>
    have first := @ih (answerWith services caller bot line).2
      ("" ++ (answerWith services caller bot line).1)
    unfold answerLines
    rw [List.foldl_cons, ih, List.foldl_cons]
    dsimp only
    rw [first, String.empty_append, String.append_assoc]

theorem answerLines_nil (services : Services) : answerLines services caller bot [] = ("", bot) :=
  rfl

theorem answerLines_cons (services : Services) (line : String) (rest : List String) :
    answerLines services caller bot (line :: rest) =
      ((answerWith services caller bot line).1 ++
          (answerLines services caller (answerWith services caller bot line).2 rest).1,
        (answerLines services caller (answerWith services caller bot line).2 rest).2) := by
  have all := @foldl_answerWith caller (answerWith services caller bot line).2 services
    ("" ++ (answerWith services caller bot line).1) rest
  rw [String.empty_append] at all
  exact all

theorem answerLines_append (services : Services) (first rest : List String) :
    answerLines services caller bot (first ++ rest) =
      ((answerLines services caller bot first).1 ++
          (answerLines services caller (answerLines services caller bot first).2 rest).1,
        (answerLines services caller (answerLines services caller bot first).2 rest).2) := by
  induction first generalizing bot with
  | nil => rw [List.nil_append, answerLines_nil, String.empty_append]
  | cons line first ih => simp only [List.cons_append, answerLines_cons, ih, String.append_assoc]

/-- Kin print the same in answer to lines, and are kin afterwards. -/
theorem answerLines_kin (stateless : OthersAreStateless caller others)
    (kin : Kin caller bot twin) (lines : List String) :
    (answerLines (servicesWith others) caller bot lines).1 =
        (answerLines (servicesWith others) caller twin lines).1 ∧
      Kin caller (answerLines (servicesWith others) caller bot lines).2
        (answerLines (servicesWith others) caller twin lines).2 := by
  induction lines generalizing bot twin with
  | nil => exact ⟨rfl, kin⟩
  | cons line rest ih =>
    obtain ⟨printed, still⟩ := answerWith_kin stateless kin line
    obtain ⟨more, last⟩ := ih still
    rw [answerLines_cons, answerLines_cons]
    exact ⟨congrArg₂ (· ++ ·) printed more, last⟩

/-- When lines were answered, no replies are left to print, and the configuration and the commands
are as they were. -/
theorem after_answerLines (stateless : OthersAreStateless caller others)
    (printed : bot.outbox.replies = []) (lines : List String) :
    (answerLines (servicesWith others) caller bot lines).2.outbox.replies = [] ∧
      (answerLines (servicesWith others) caller bot lines).2.equipment = bot.equipment := by
  induction lines generalizing bot with
  | nil => exact ⟨printed, rfl⟩
  | cons line rest ih =>
    rw [answerLines_cons]
    obtain ⟨cleared, same⟩ :=
      @ih (answerWith (servicesWith others) caller bot line).2 rfl
    exact ⟨cleared, same.trans (Services.equipment_after stateless bot _)⟩

/-! ### Sessions -/

/-- What a session prints in answer to its input, and the state file that it leaves. -/
def session (services : Services) (config : Config)
    (place : Except Obstacle (Option Plugin.Directory)) (caller : CallerId) (file : StateFile)
    (input : String) : Except Failure (String × StateFile) := do
  let bot ← start config file place
  let (printed, last) := answerLines services caller bot (Text.lines input)
  return (printed, last.store.file)

theorem kin_of_new {file : StateFile} (isNew : bot.IsNew file) (plain : file.IsPlain)
    (tidy : Store.IsTidy { file } (Users.key caller)) : Kin caller bot bot := by
  have store : bot.store.IsSteady (Users.key caller) := isNew.store ▸ .new plain tidy
  have steady : bot.IsSteady caller :=
    ⟨isNew.disturbances, congrArg Outbox.disturbances isNew.outbox, store⟩
  have unhindered : bot.store.hindrance? = none := Store.hindrance?_eq_none.mpr
    ⟨store.synced.steady, store.synced.plain.roomy, store.synced.plain.content_ne⟩
  have coherent : bot.Coherent {caller.text} := coherent_of_fresh isNew.remembered unhindered
  exact ⟨⟨steady, steady, rfl⟩, coherent, coherent⟩

theorem session_of_start {services : Services} {config : Config}
    {place : Except Obstacle (Option Plugin.Directory)} {file : StateFile}
    (started : start config file place = .ok bot) (input : String) :
    session services config place caller file input =
      .ok ((answerLines services caller bot (Text.lines input)).1,
        (answerLines services caller bot (Text.lines input)).2.store.file) := by
  rw [session, started]
  rfl

theorem exists_of_printed {result : Except Failure (String × StateFile)} {printed : String}
    (gives : result.toOption.map Prod.fst = some printed) :
    ∃ file, result = .ok (printed, file) := by
  cases result with
  | error failure => cases gives
  | ok state =>
    obtain rfl : state.1 = printed := Option.some.inj gives
    exact ⟨state.2, rfl⟩

/-- After any lines, a bot is kin to one that is started over the file it has left. -/
theorem kin_restarted (stateless : OthersAreStateless caller others) {config : Config}
    {place : Except Obstacle (Option Plugin.Directory)} {file : StateFile} (plain : file.IsPlain)
    (tidy : Store.IsTidy { file } (Users.key caller))
    (started : start config file place = .ok bot) (lines : List String) :
    let later := (answerLines (servicesWith others) caller bot lines).2
    ∃ twin, start config later.store.file place = .ok twin ∧ Kin caller later twin := by
  intro later
  obtain ⟨twin, startedTwin, areNew⟩ : ∃ twin, start config later.store.file place = .ok twin ∧
      AreNew file later.store.file bot twin := by
    have alike := start_alike config place file later.store.file
    rw [started] at alike
    generalize start config later.store.file place = result at alike ⊢
    cases alike with
    | ok areNew => exact ⟨_, rfl, areNew⟩
  -- Of the bot that stops only its own side is used: that its store is steady says that its file is
  -- one to start over.
  obtain ⟨akin, coherent, -⟩ : Kin caller later later :=
    (answerLines_kin stateless (kin_of_new areNew.new plain tidy) lines).2
  obtain ⟨akinTwin, coherentTwin, -⟩ : Kin caller twin twin :=
    kin_of_new areNew.newTwin akin.steady.store.synced.plain akin.steady.store.fresh
  obtain ⟨cleared, kept⟩ :=
    after_answerLines stateless (congrArg Outbox.replies areNew.new.outbox) lines
  have equipment : later.equipment = twin.equipment := kept.trans areNew.equipment
  have replies : later.outbox.replies = twin.outbox.replies :=
    cleared.trans (congrArg Outbox.replies areNew.newTwin.outbox).symm
  have scene : later.scene = twin.scene := (Scene.mk.injEq ..).mpr
    ⟨congrArg Equipment.config equipment, congrArg Equipment.graph equipment, replies,
      (congrArg Store.file areNew.newTwin.store).symm⟩
  exact ⟨twin, startedTwin, ⟨akin.steady, akinTwin.steady, scene⟩, coherent, coherentTwin⟩

/-- A line that sets a variable, and one that asks for it. -/
def settingInput : String := "my.env.set A 1\n"

def askingInput : String := "my.env.get A\n"

open SharedFile

/-- A line that removes a variable which the caller does not have. The entries are saved as they
are. -/
def savingInput : String := "my.env.del B\n"

/-- A bot that has in its store what a file with a table in a variable describes. -/
structure HoldsTable (fields : Table Document) (bot : Bot) : Prop where
  undisturbed : bot.disturbances = []
  synced : bot.store.IsSynced
  file : bot.store.file = tableFile fields
  held : bot.store.reloaded.memory.state = tableState fields

theorem holdsTable_of_new {fields : Table Document} (sound : (tableState fields).IsSound)
    {bot : Bot} (undisturbed : bot.disturbances = [])
    (new : bot.store = { file := tableFile fields }) : HoldsTable fields bot where
  undisturbed := undisturbed
  synced := by
    rw [new]
    exact .new (isPlain_tableFile fields)
  file := by rw [new]
  held := by
    rw [new, Store.state_reloaded (Store.isBehind_new _)]
    exact described_tableFile sound

theorem HoldsTable.read {α : Type} {fields : Table Document} (operation : StoreOperation)
    (query : Users.Entries → α) :
    Preserves (HoldsTable fields) (onStore operation (Store.read query)) := by
  refine preserves_iff.mpr fun bot holds => ?_
  have found : bot.store.found = .ok (tableUsers fields) := by
    rw [Store.found_eq holds.synced.plain.obstacle?, holds.held]
    rfl
  rw [run_onStore, holds.undisturbed]
  dsimp only [List.lookup]
  rw [Store.run_read, found]
  have synced := holds.synced.reloaded
  refine ⟨holds.undisturbed, ⟨synced.steady, synced.plain, synced.mirrors⟩, ?_, ?_⟩
  · exact (Store.file_reloaded _).trans holds.file
  · refine (congrArg Memory.state (Store.memory_reloaded_log _ _)).trans ?_
    rw [Store.reloaded_reloaded]
    exact holds.held

/-- What the first session leaves is what a store leaves that saves the entries. -/
theorem file_after_saving {fields : Table Document} {bot : Bot} (holds : HoldsTable fields bot)
    {message : Message} {command : String} {later : Bot}
    (admitted : (storedTables.gate message (lineOf message.text)).run (bot.receive message) =
      (.ok { command, handler := .builtin .removeVariable
             arguments := [.caller (.number 1), .value (.text "B")] }, later)) :
    (services.after bot message).store.file =
      (tableFile fields).replace (.text (tableState fields).render) := by
  have received : HoldsTable fields (bot.receive message) :=
    ⟨holds.undisturbed, holds.synced, holds.file, holds.held⟩
  have kept := ((storedTables_failOnly HoldsTable.read).gate (fun _ _ => trivial)
    (fun bot _ holds => ⟨holds.undisturbed, holds.synced, holds.file, holds.held⟩) message
    (lineOf message.text) _ received).1
  rw [admitted] at kept
  obtain ⟨undisturbed, synced, file, held⟩ : HoldsTable fields later := kept
  obtain ⟨-, saved, -⟩ := run_saveRequest synced held
  rw [saveRequest, Request.run, Action.run_setVariable, run_map, file] at saved
  -- All that touches the file is the operation of the store.
  have silent : Silent fun bot : Bot => bot.store.file := ⟨fun _ _ => rfl, fun _ _ => rfl⟩
  have removes : services.handle (.builtin .removeVariable)
        [.caller (.number 1), .value (.text "B")] =
      Builtin.changeVariable (.number 1) "B" none >>= fun _ =>
        pure (Builtin.said ("B" ++ " removed.")) := rfl
  have forgets : Keeps (fun bot : Bot => bot.store.file) (forgetVariables (.number 1)) :=
    .modify fun _ => rfl
  rw [Services.after_admitted services silent admitted, removes,
    Keeps.after_bind (fun bot : Bot => bot.store.file) fun _ => .pure _, Builtin.changeVariable,
    Keeps.after_bind (fun bot : Bot => bot.store.file) fun _ => forgets, run_onStore, undisturbed]
  exact saved

/-- Whose variable a line removes, and its name. -/
def removal? (admission : Admission) : Option (CallerId × String) :=
  match admission.handler, admission.arguments with
  | .builtin .removeVariable, [.caller caller, .value (.text name)] => some (caller, name)
  | _, _ => none

theorem eq_of_removal? {admission : Admission} {caller : CallerId} {name : String}
    (removes : removal? admission = some (caller, name)) :
    admission = {
      command := admission.command
      handler := .builtin .removeVariable
      arguments := [.caller caller, .value (.text name)] } := by
  obtain ⟨command, handler, arguments⟩ := admission
  unfold removal? at removes
  split at removes
  · rename_i is has
    obtain ⟨rfl, rfl⟩ := Prod.mk.inj (Option.some.inj removes)
    dsimp only at is has
    rw [is, has]
  · cases removes

/-- The table as it is saved. -/
def savedFile : StateFile :=
  (tableFile looseFields).replace (.text (String.ofList (Json.write 0 (.table
    [("users", .table (tableUsers [("a", .int 2), ("b", .int 1)])), ("version", .int 1)]))))

theorem render_looseFields :
    (tableFile looseFields).replace (.text (tableState looseFields).render) = savedFile := by
  have order : "users" < "version" := by decide
  have sorted : Json.sortFields (tableState looseFields).document = .table
      [("users", .table (tableUsers [("a", .int 2), ("b", .int 1)])), ("version", .int 1)] := by
    rw [State.document, Json.sortFields_table]
    simp only [List.map_cons, List.map_nil, tableState, sortFields_looseFields,
      Table.sorted_pair order]
    rfl
  rw [State.render, Json.render, sorted]
  rfl

/-- The first session saves the table, its fields in ascending order. -/
theorem session_saving :
    session services {} (.ok none) (.number 1) (tableFile looseFields) savingInput =
      .ok ("B removed.\n", savedFile) := by
  obtain ⟨bot, same⟩ : ∃ bot, withBuiltins { store := { file := tableFile looseFields } } = bot :=
    ⟨_, rfl⟩
  have started : start {} (tableFile looseFields) (.ok none) = .ok bot := congrArg Except.ok same
  have store : bot.store = { file := tableFile looseFields } :=
    same ▸ view_withBuiltins Bot.store (fun _ _ => rfl) _
  have holds : HoldsTable looseFields bot := by
    refine holdsTable_of_new isSound_looseFields ?_ store
    exact same ▸ view_withBuiltins Bot.disturbances (fun _ _ => rfl) _
  have removes : ((storedTables.gate { text := "my.env.del B", caller := .number 1 }
      (lineOf "my.env.del B")).run (bot.receive { text := "my.env.del B", caller := .number 1 })
      ).1.toOption.bind removal? = some (.number 1, "B") := by
    rw [← same]
    decide +kernel
  obtain ⟨admission, gives, removal⟩ := Option.bind_eq_some_iff.mp removes
  have admitted := run_eq_of_toOption gives
  rw [eq_of_removal? removal] at admitted
  have left := file_after_saving holds admitted
  rw [render_looseFields] at left
  have line : Text.lines savingInput = ["my.env.del B"] := by decide +kernel
  have file : (answerLines services (.number 1) bot (Text.lines savingInput)).2.store.file =
      savedFile := by
    rw [line, answerLines_cons, answerLines_nil, file_answerWith, left]
  have first : (session services {} (.ok none) (.number 1) (tableFile looseFields)
      savingInput).toOption.map Prod.fst = some "B removed.\n" := by
    decide +kernel
  rw [session_of_start started] at first ⊢
  rw [file]
  generalize (answerLines services (.number 1) bot (Text.lines savingInput)).1 = printed at first ⊢
  obtain rfl : printed = "B removed.\n" := Option.some.inj first
  rfl

end Console
end Switchboard
