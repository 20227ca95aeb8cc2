import Switchboard.Proofs.Dispatch
import Switchboard.Proofs.Verdict

/-!
Which message gets which handler called. Where the tables of the store can be read, what is decided
about a message is its verdict: either one handler is called, once and with the arguments that were
bound for it, or none is and the caller is told of the stage that the message failed at.
-/
namespace Switchboard

open Work

namespace Bot

/-- All of a bot that asking the tables of its store leaves alone. -/
structure Frame where
  config : Config
  graph : Graph
  outbox : Outbox
  calls : List HandlerCall
  disturbances : List (StoreOperation × Failure)
  users? : Option Users.Entries

def frame (bot : Bot) : Frame where
  config := bot.config
  graph := bot.graph
  outbox := bot.outbox
  calls := bot.calls
  disturbances := bot.disturbances
  users? := bot.store.users?

/-- The operations that ask the tables of callers. -/
def readings : List StoreOperation :=
  [.getVariables, .getLevel, .getAlias, .getScopes]

/-- A bot whose store can be read, and has these entries. -/
structure Reads (bot : Bot) (users : Users.Entries) : Prop where
  found : bot.store.users? = some users
  undisturbed : ∀ operation ∈ readings, bot.disturbances.lookup operation = none

/-- What a bot knows of a caller by itself and by the entries of its store. -/
def profile (bot : Bot) (users : Users.Entries) (caller : CallerId) : Profile where
  known :=
    (bot.remembered.get? caller.text).getD
      ((Users.variables? users (Users.key caller)).getD [])
  level := (bot.config.isSuperuser caller).map fun superuser =>
    if superuser then .unbounded else .finite ((Users.level? users (Users.key caller)).getD 0)
  alias? := Users.alias? users (Users.key caller)
  scopes := Users.scopes users (Users.key caller)

theorem keeps_frame_read {α : Type} (operation : StoreOperation) (query : Users.Entries → α) :
    Keeps frame (onStore operation (Store.read query)) := by
  refine keeps_onStore (fun bot => ?_) operation
  refine congrArg
    (Frame.mk bot.config bot.graph bot.outbox bot.calls bot.disturbances) ?_
  exact (Store.users?_log _ []).trans (Store.keeps_users?_read query bot.store)

variable {bot later : Bot} {users : Users.Entries} {caller : CallerId}

theorem Reads.of_frame (reads : bot.Reads users) (same : later.frame = bot.frame) :
    later.Reads users where
  found := by
    rw [← reads.found]
    exact congrArg Frame.users? same
  undisturbed := by
    have disturbances : later.disturbances = bot.disturbances :=
      congrArg Frame.disturbances same
    rw [disturbances]
    exact reads.undisturbed

theorem Reads.run (reads : bot.Reads users) {operation : StoreOperation}
    (member : operation ∈ readings) {α : Type} (query : Users.Entries → α) :
    ∃ later, (onStore operation (Store.read query)).run bot = (.ok (query users), later) ∧
      later.frame = bot.frame := by
  have kept := keeps_frame_read operation query bot
  have done : (onStore operation (Store.read query)).run bot =
      (.ok (query users), bot.takeStore bot.store.reloaded) := by
    rw [run_onStore, reads.undisturbed operation member, Store.run_read_some reads.found]
  rw [done] at kept
  exact ⟨_, done, kept⟩

theorem level_of_frame (same : later.frame = bot.frame) :
    (later.profile users caller).level = (bot.profile users caller).level := by
  have config : later.config = bot.config := congrArg Frame.config same
  rw [profile, profile, config]

theorem run_variablesOf (reads : bot.Reads users) (written : caller.written = .ok caller.text) :
    ∃ later, (storedTables.variablesOf caller).run bot =
      (.ok (bot.profile users caller).known, later) ∧ later.frame = bot.frame := by
  have key : (MonadExcept.ofExcept caller.written : BotM String).run bot =
      (.ok caller.text, bot) := by
    rw [written, run_ofExcept]
  unfold CallerTables.variablesOf
  rw [run_bind_ok _ key, run_bind_ok _ (run_get bot)]
  unfold profile
  cases bot.remembered.get? caller.text with
  | some known => exact ⟨bot, rfl, rfl⟩
  | none =>
    obtain ⟨later, read, same⟩ :=
      reads.run (by decide : .getVariables ∈ readings) (Users.variables? · (Users.key caller))
    exact ⟨_, run_bind_ok _ read, same⟩

theorem run_levelOf (reads : bot.Reads users) (caller : CallerId) :
    ∃ later, (storedTables.levelOf caller).run bot = ((bot.profile users caller).level, later) ∧
      later.frame = bot.frame := by
  unfold CallerTables.levelOf
  rw [run_bind_ok _ (run_get bot)]
  unfold profile
  cases bot.config.isSuperuser caller with
  | error failure => exact ⟨bot, rfl, rfl⟩
  | ok superuser =>
    cases superuser with
    | true => exact ⟨bot, rfl, rfl⟩
    | false =>
      obtain ⟨later, read, same⟩ :=
        reads.run (by decide : .getLevel ∈ readings) (Users.level? · (Users.key caller))
      exact ⟨later, run_bind_ok _ read, same⟩

/-- A caller whose id cannot be written is told apart from nobody. -/
theorem isSuperuser_of_unwritten {failure : Failure} (unwritten : caller.written = .error failure)
    (config : Config) : config.isSuperuser caller = .error failure := by
  rw [Config.isSuperuser, unwritten, error_bind]

theorem run_readLine (reads : bot.Reads users) (message : Message) :
    ∃ later, (storedTables.readLine message.caller (lineOf message.text)).run bot =
      ((bot.profile users message.caller).reading message, later) ∧ later.frame = bot.frame := by
  cases written : message.caller.written with
  | error failure =>
    have unread : (storedTables.variablesOf message.caller).run bot = (.error failure, bot) := by
      rw [CallerTables.variablesOf, written]
      exact run_bind_error _ (run_ofExcept _ bot)
    refine ⟨bot, ?_, rfl⟩
    rw [CallerTables.readLine, run_bind_error _ unread, Profile.reading, profile,
      isSuperuser_of_unwritten written]
    rfl
  | ok text =>
    obtain rfl := CallerId.text_of_written written
    obtain ⟨middle, known, first⟩ := run_variablesOf reads written
    obtain ⟨later, ranked, second⟩ := run_levelOf (reads.of_frame first) message.caller
    rw [level_of_frame first] at ranked
    refine ⟨later, ?_, second.trans first⟩
    rw [CallerTables.readLine, run_bind_ok _ known]
    unfold Profile.reading
    cases level : (bot.profile users message.caller).level with
    | error failure =>
      rw [level] at ranked
      rw [run_bind_error _ ranked]
      rfl
    | ok level? =>
      rw [level] at ranked
      rw [run_bind_ok _ ranked, run_ofExcept]
      rfl

theorem run_find? (reads : bot.Reads users) (name : String) (caller : CallerId) :
    ∃ later, (storedTables.find? name caller).run bot =
      (.ok (bot.graph.findScoped? Graph.root name (Users.scopes users (Users.key caller))), later) ∧
        later.frame = bot.frame := by
  unfold CallerTables.find? Graph.findScoped?
  rw [run_bind_ok _ (run_get bot)]
  cases bot.graph.find? Graph.root name with
  | some id => exact ⟨bot, rfl, rfl⟩
  | none =>
    obtain ⟨later, read, same⟩ :=
      reads.run (by decide : .getScopes ∈ readings) (Users.scopes · (Users.key caller))
    refine ⟨later, ?_, same⟩
    have graph : later.graph = bot.graph := congrArg Frame.graph same
    refine (run_bind_ok _ read).trans ?_
    rw [run_bind_ok _ (run_get later), graph, Option.none_or]
    rfl

theorem run_resolveAlias (reads : bot.Reads users) (profile : Profile) (message : Message)
    (aliased : profile.alias? = Users.alias? users (Users.key message.caller)) :
    ∃ later, (storedTables.resolveAlias message.caller ((profile.words message).headD helpName)).run
      bot = (.ok (profile.command message), later) ∧ later.frame = bot.frame := by
  have undisturbed : .getAlias ∈ readings := by decide
  obtain ⟨later, read, same⟩ := reads.run undisturbed (Users.alias? · (Users.key message.caller)
    (Text.cutText '.' ((profile.words message).headD helpName)).1)
  refine ⟨later, (run_bind_ok _ read).trans ?_, same⟩
  rw [Profile.command, aliased]
  rfl

theorem run_admission (reads : bot.Reads users) (profile : Profile) (message : Message)
    (scopes : profile.scopes = Users.scopes users (Users.key message.caller)) (reading : Reading) :
    ∃ later, (storedTables.admission (profile.command message) message reading).run bot =
      (profile.admission bot.graph message reading, later) ∧ later.frame = bot.frame := by
  obtain ⟨later, found, same⟩ := run_find? reads (profile.command message) message.caller
  have graph : later.graph = bot.graph := congrArg Frame.graph same
  refine ⟨later, ?_, same⟩
  unfold CallerTables.admission Profile.admission
  rw [run_bind_ok _ found, scopes]
  cases bot.graph.findScoped? Graph.root (profile.command message)
      (Users.scopes users (Users.key message.caller)) with
  | none => rfl
  | some id =>
    dsimp only
    rw [run_bind_ok _ (run_get later), run_ofExcept, graph]

/-- Where the tables can be read, what is decided about a message is what its caller's profile
says. -/
theorem run_gate (reads : bot.Reads users) (message : Message) :
    ∃ later, (storedTables.gate message (lineOf message.text)).run bot =
      ((bot.profile users message.caller).gate bot.graph message, later) ∧
        later.frame = bot.frame := by
  obtain ⟨first, read, sameFirst⟩ := run_readLine reads message
  unfold CallerTables.gate Profile.gate
  cases accepted : (bot.profile users message.caller).reading message with
  | error failure =>
    refine ⟨first, ?_, sameFirst⟩
    rw [accepted] at read
    rw [run_bind, run_under, read]
    rfl
  | ok reading =>
    -- Each stage leaves the frame alone, so the next one reads the same entries.
    have words := Profile.words_of_reading accepted
    have readsFirst := reads.of_frame sameFirst
    obtain ⟨second, resolved, sameSecond⟩ :=
      run_resolveAlias readsFirst (bot.profile users message.caller) message rfl
    have readsSecond := readsFirst.of_frame sameSecond
    obtain ⟨third, admitted, sameThird⟩ :=
      run_admission readsSecond (bot.profile users message.caller) message rfl reading
    have frame := sameSecond.trans sameFirst
    have graph : second.graph = bot.graph := congrArg Frame.graph frame
    refine ⟨third, ?_, sameThird.trans frame⟩
    rw [accepted] at read
    rw [← words] at resolved
    rw [graph] at admitted
    rw [run_bind, run_under, read]
    dsimp only [Except.mapError]
    rw [run_bind, run_under, resolved]
    dsimp only [Except.mapError]
    rw [run_under, admitted]
    rfl

/-- A line that leaves a quote open is refused by what it says and by the caller's level alone. -/
theorem gate_of_open (reads : bot.Reads users) {message : Message} {tables : CallerTables}
    (dangling : (bot.profile users message.caller).flags message ≠ {})
    (variables? : tables.variables? = storedTables.variables?)
    (level? : tables.level? = storedTables.level?) :
    (tables.gate message (lineOf message.text)).run bot =
      (storedTables.gate message (lineOf message.text)).run bot := by
  have same : tables.readLine = storedTables.readLine := by
    unfold CallerTables.readLine CallerTables.variablesOf CallerTables.levelOf
    rw [variables?, level?]
  obtain ⟨failure, refused⟩ := Profile.reading_of_open dangling
  obtain ⟨later, read, -⟩ := run_readLine reads message
  rw [refused] at read
  unfold CallerTables.gate
  rw [same, run_bind, run_bind, run_under, read]
  rfl

end Bot

namespace Services

open Switchboard.Bot

/-- Handlers of which every call is recorded, once and with its arguments. -/
def Records (handle : Handler → List Argument → BotM Outcome) (identify : Handler → Document) :
    Prop :=
  ∀ handler arguments bot, ((handle handler arguments).run bot).2.calls =
    bot.calls ++ [{ id := identify handler, arguments }]

/-- What a verdict makes of a message: the handler that was admitted is called with the arguments
that were bound for it and answers the caller, or the caller is told of the fault. -/
def Obeys (bot : Bot) (message : Message) : Except Fault Admission → Prop
  | .ok admission => ∃ later, later.frame = bot.frame ∧
    ∀ handle, ((Services.mk storedTables handle).run message).run bot =
      (answer admission.command message
        (handle admission.handler admission.arguments)).run later
  | .error fault => ∃ later, later.frame = bot.frame ∧
    ∀ handle, ((Services.mk storedTables handle).run message).run bot =
      (deliver message (.text (bot.config.errorPrefix ++ fault.text))).run later

/-- The calls that a verdict leads to. -/
def callsOf (identify : Handler → Document) : Except Fault Admission → List HandlerCall
  | .ok admission => [{ id := identify admission.handler, arguments := admission.arguments }]
  | .error _ => []

theorem obeys_of_gate {bot later : Bot} {message : Message} {verdict : Except Fault Admission}
    (decided : (storedTables.gate message (lineOf message.text)).run (bot.receive message) =
      (verdict, later))
    (frame : later.frame = bot.frame) : Obeys bot message verdict := by
  cases verdict with
  | ok admission =>
    refine ⟨later, frame, fun handle => ?_⟩
    rw [Services.run_gate, decided]
  | error fault =>
    refine ⟨later.logging (fault.events message.caller), frame, fun handle => ?_⟩
    have config : later.config = bot.config := congrArg Frame.config frame
    rw [Services.run_gate, decided]
    dsimp only
    rw [run_settle, run_replyError]
    unfold logging
    rw [config]

theorem calls_of_gate {bot later : Bot} {message : Message} {verdict : Except Fault Admission}
    (decided : (storedTables.gate message (lineOf message.text)).run (bot.receive message) =
      (verdict, later))
    (frame : later.frame = bot.frame) {handle : Handler → List Argument → BotM Outcome}
    {identify : Handler → Document} (records : Records handle identify) :
    ((Services.mk storedTables handle).after bot message).calls =
      bot.calls ++ callsOf identify verdict := by
  have silent : Silent calls := ⟨fun _ _ => rfl, fun _ _ => rfl⟩
  have same : later.calls = bot.calls := congrArg Frame.calls frame
  cases verdict with
  | ok admission =>
    rw [after_admitted (Services.mk storedTables handle) silent decided, records, same]
    rfl
  | error fault =>
    rw [after_refused (Services.mk storedTables handle) silent decided, same]
    exact (List.append_nil _).symm

/-- A blank line of a caller who set nothing. -/
def blankLine : Message :=
  { text := "  ", caller := .name "ann" }

/-- A bot without superusers and with no commands but the help. -/
def bareBot : Bot :=
  { config := { superusers := [] } }

end Services
end Switchboard
