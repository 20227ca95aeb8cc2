import Switchboard.Proofs.Refusal

/-!
The run of a message: a line that is refused is answered with the fault that it is refused for, and
one that is admitted with the work of the handler that it leads to. What is replied and logged for
it is seen by nothing else.
-/
namespace Switchboard

open Work

namespace Bot

theorem keeps_onGraph {α γ : Type} {view : Bot → γ}
    (unseen : ∀ (bot : Bot) (graph : Graph), view { bot with graph } = view bot)
    (work : GraphM α) : Keeps view (onGraph work) := by
  intro bot
  unfold onGraph
  rw [run_bind_ok _ (run_get bot)]
  rcases work.run bot.graph with ⟨result, graph⟩
  cases result <;> exact unseen bot graph

/-- The builtin commands are put into the graph, and nothing else happens. -/
theorem view_withBuiltins {γ : Type} (view : Bot → γ)
    (unseen : ∀ (bot : Bot) (graph : Graph), view { bot with graph } = view bot) (bot : Bot) :
    view bot.withBuiltins = view bot := by
  unfold withBuiltins
  refine Keeps.forM Builtin.commands (fun command _ => ?_) bot
  exact (keeps_onGraph unseen _).discard

/-- Does the work of a handler, and tells the caller if it fails. -/
def answer (command : String) (message : Message) (work : BotM Outcome) : BotM Unit :=
  tryCatch (conclude command message work) fun failure => settle message { command, failure }

/-- What a caller is told of a fault. -/
def Fault.text (fault : Fault) : String :=
  match fault.failure with
  | .permissionDenied .. | .unmatchedQuote _ => fault.failure.message
  | .handled text _ => text
  | failure =>
    fault.command ++ ": " ++ if failure.isCallers then failure.message else failure.internalText

/-- What is logged of a fault before the caller is told. -/
def Fault.events (fault : Fault) (caller : CallerId) : List Event :=
  match fault.failure with
  | .handled text logged => if logged then [.failureReported fault.command caller text] else []
  | failure =>
    if failure.isCallers then []
    else [.dispatchFailed fault.command caller failure.description]

/-- The bot with more in its log. -/
def logging (bot : Bot) (events : List Event) : Bot :=
  { bot with log := bot.log ++ events }

theorem run_record (event : Event) (bot : Bot) :
    (record event).run bot = (.ok (), bot.logging [event]) := rfl

theorem logging_nil (bot : Bot) : bot.logging [] = bot := by
  rw [logging, List.append_nil]

theorem run_replyError (message : Message) (text : String) (bot : Bot) :
    (replyError message text).run bot =
      (deliver message (.text (bot.config.errorPrefix ++ text))).run bot := by
  rw [replyError, run_bind_ok _ (run_get bot)]

theorem run_report (command : String) (message : Message) (text : String) (logged : Bool)
    (bot : Bot) :
    (report command message text logged).run bot =
      (replyError message text).run (bot.logging
        (if logged then [.failureReported command message.caller text] else [])) := by
  cases logged with
  | true => exact run_bind_ok _ (run_record _ bot)
  | false =>
    rw [if_neg Bool.false_ne_true, logging_nil]
    rfl

/-- A fault is logged if it calls for it, and told to the caller in one reply. -/
theorem run_settle (message : Message) (fault : Fault) (bot : Bot) :
    (settle message fault).run bot =
      (replyError message fault.text).run (bot.logging (fault.events message.caller)) := by
  obtain ⟨command, failure⟩ := fault
  unfold settle Fault.text Fault.events
  cases failure
  case handled text logged => exact run_report command message text logged bot
  all_goals first
    | exact congrArg _ (logging_nil bot).symm
    | exact run_bind_ok _ (run_record _ bot)

/-- The bot when a message has come in. -/
def receive (bot : Bot) (message : Message) : Bot :=
  bot.logging [.lineReceived message.caller (lineOf message.text)]

theorem run_deliver (message : Message) (segment : Segment) (bot : Bot) :
    (deliver message segment).run bot =
      match bot.outbox.disturbances.lookup bot.outbox.tried with
      | some failure =>
        (.error failure, { bot with outbox := { bot.outbox with tried := bot.outbox.tried + 1 } })
      | none =>
        (.ok (), { bot with outbox := { bot.outbox with
          tried := bot.outbox.tried + 1
          replies := bot.outbox.replies ++ [{ caller := message.caller, segment }] } }) := by
  simp only [deliver, run_bind, run_get]
  cases bot.outbox.disturbances.lookup bot.outbox.tried with
  | some failure => rfl
  | none => rfl

/-- A view of bots that sees neither what was replied nor what was logged. -/
structure Silent {γ : Type} (view : Bot → γ) : Prop where
  outbox : ∀ (bot : Bot) (outbox : Outbox), view { bot with outbox } = view bot
  log : ∀ (bot : Bot) (log : List Event), view { bot with log } = view bot

theorem silent_standing : Silent standing where
  outbox _ _ := rfl
  log _ _ := rfl

namespace Silent

variable {γ : Type} {view : Bot → γ}

theorem keeps_record (silent : Silent view) (event : Event) : Keeps view (record event) :=
  .modify fun bot => silent.log bot _

theorem keeps_deliver (silent : Silent view) (message : Message) (segment : Segment) :
    Keeps view (deliver message segment) := by
  intro bot
  rw [run_deliver]
  split
  · exact silent.outbox bot _
  · exact silent.outbox bot _

theorem keeps_replyError (silent : Silent view) (message : Message) (text : String) :
    Keeps view (replyError message text) :=
  Keeps.get.bind fun _ => silent.keeps_deliver message _

theorem keeps_report (silent : Silent view) (command : String) (message : Message) (text : String)
    (logged : Bool) : Keeps view (report command message text logged) := by
  unfold report
  split
  · exact (silent.keeps_record _).bind fun _ => silent.keeps_replyError message text
  · exact silent.keeps_replyError message text

theorem keeps_settle (silent : Silent view) (message : Message) (fault : Fault) :
    Keeps view (settle message fault) := by
  unfold settle
  split
  · exact silent.keeps_replyError _ _
  · exact silent.keeps_replyError _ _
  · exact silent.keeps_report _ _ _ _
  · refine .ite (silent.keeps_replyError _ _) ?_
    exact (silent.keeps_record _).bind fun _ => silent.keeps_replyError _ _

theorem keeps_deliverOutcome (silent : Silent view) (command : String) (message : Message)
    (outcome : Outcome) : Keeps view (deliverOutcome command message outcome) := by
  unfold deliverOutcome
  split
  · exact silent.keeps_report _ _ _ _
  · split
    · exact .throw _
    · refine .forM _ fun segment _ => ?_
      exact (Keeps.ofExcept _).bind fun _ => silent.keeps_deliver _ _

theorem keeps_passOn (silent : Silent view) (command : String) (message : Message)
    (failure : Failure) : Keeps view (passOn command message failure) := by
  unfold passOn
  split
  · exact .throw _
  · exact .throw _
  · exact (silent.keeps_record _).bind fun _ => .throw _

/-- All that is seen after a handler was answered is what the handler left. -/
theorem after_answer (silent : Silent view) (command : String) (message : Message)
    (work : BotM Outcome) (bot : Bot) :
    view ((answer command message work).run bot).2 = view (work.run bot).2 := by
  rw [answer, Keeps.after_tryCatch view fun _ => silent.keeps_settle _ _]
  rw [conclude, Keeps.after_tryCatch view (silent.keeps_passOn command message)]
  exact Keeps.after_bind view (silent.keeps_deliverOutcome command message) bot

end Silent

end Bot

namespace Services

/-- The bot after a message. -/
def after (services : Services) (bot : Bot) (message : Message) : Bot :=
  ((services.run message).run bot).2

/-- The bot after one message after another. -/
def afterAll (services : Services) (bot : Bot) (messages : List Message) : Bot :=
  messages.foldl services.after bot

/-- What a dispatch fails with is told to the caller. -/
theorem run_dispatch (services : Services) (message : Message) (bot : Bot) :
    (services.run message).run bot =
      match (services.dispatch message (Bot.lineOf message.text)).run (bot.receive message) with
      | (.ok (), later) => (.ok (), later)
      | (.error fault, later) => (Bot.settle message fault).run later := by
  have received : (Bot.record (.lineReceived message.caller (Bot.lineOf message.text))).run bot =
      (.ok (), bot.receive message) := rfl
  unfold run
  dsimp only
  rw [run_bind_ok _ received, run_bind_ok _ (run_get _)]
  rcases (services.dispatch message (Bot.lineOf message.text)).run (bot.receive message) with
    ⟨result, later⟩
  cases result <;> rfl

/-- A line that is refused is answered with the fault that it is refused for, and one that is
admitted with the work of the handler that it leads to. -/
theorem run_gate (services : Services) (message : Message) (bot : Bot) :
    (services.run message).run bot =
      match (services.gate message (Bot.lineOf message.text)).run (bot.receive message) with
      | (.error fault, later) => (Bot.settle message fault).run later
      | (.ok admission, later) =>
        (Bot.answer admission.command message
          (services.handle admission.handler admission.arguments)).run later := by
  rw [run_dispatch, dispatch, run_bind]
  rcases (services.gate message (Bot.lineOf message.text)).run (bot.receive message) with
    ⟨result, later⟩
  cases result with
  | error fault => rfl
  | ok admission =>
    simp only [Bot.run_under, Bot.answer, run_tryCatch]
    rcases (Bot.conclude admission.command message
      (services.handle admission.handler admission.arguments)).run later with ⟨result, last⟩
    cases result <;> rfl

section After

variable {γ : Type} {view : Bot → γ} (services : Services) {bot later : Bot} {message : Message}

theorem after_refused (silent : Bot.Silent view) {fault : Bot.Fault}
    (refused : (services.gate message (Bot.lineOf message.text)).run (bot.receive message) =
      (.error fault, later)) : view (services.after bot message) = view later := by
  rw [after, run_gate, refused]
  exact silent.keeps_settle message fault later

theorem after_admitted (silent : Bot.Silent view) {admission : Admission}
    (admitted : (services.gate message (Bot.lineOf message.text)).run (bot.receive message) =
      (.ok admission, later)) :
    view (services.after bot message) =
      view ((services.handle admission.handler admission.arguments).run later).2 := by
  rw [after, run_gate, admitted]
  exact silent.after_answer admission.command message _ later

end After

/-- What every message of a run keeps is kept by the run. -/
theorem afterAll_preserves (services : Services) {holds : Bot → Prop} {bot : Bot}
    {messages : List Message} (before : holds bot)
    (step : ∀ earlier message rest, messages = earlier ++ message :: rest →
      holds (services.afterAll bot earlier) →
      holds (services.after (services.afterAll bot earlier) message)) :
    holds (services.afterAll bot messages) := by
  induction messages generalizing bot with
  | nil => exact before
  | cons message messages ih =>
    have first := step [] message messages rfl before
    refine ih first fun earlier other rest split => ?_
    exact step (message :: earlier) other rest (by rw [split, List.cons_append])

section Preserves

open Switchboard.Bot

variable {holds : Bot → Prop} {callers : CallerId → Prop}

/-- What withstands the commands of some callers is kept when a line of one of them is run, if
asking for variables keeps it, the other handlers keep it, and the line assigns no level that
matters to it. -/
theorem preserves_after {others : Handler → List Argument → BotM Outcome}
    (withstands : Withstands holds callers) (silent : Silent holds)
    (known : ∀ caller, callers caller → Preserves holds (storedTables.variablesOf caller))
    (foreign : ∀ handler arguments, (∀ builtin, handler ≠ .builtin builtin) →
      Preserves holds (others handler arguments))
    {bot : Bot} {message : Message} (own : callers message.caller)
    (assigned : ∀ command check target level later,
      (storedTables.gate message (lineOf message.text)).run (bot.receive message) =
        (.ok { command, handler := .builtin .setLevel
               arguments := [check, .value (.text target), .value (.int level)] }, later) →
      holds later → holds ((Builtin.assignLevel check (.name target) level).run later).2)
    (before : holds bot) : holds ((servicesWith others).after bot message) := by
  have gated := withstands.storedTables.gate_of_variablesOf (fun _ _ => trivial)
    (known message.caller own) (lineOf message.text)
  have received : holds (bot.receive message) := (silent.log bot _).mpr before
  rcases decided : (storedTables.gate message (lineOf message.text)).run (bot.receive message) with
    ⟨result, later⟩
  have kept := (gated _ received).1
  rw [decided] at kept
  cases result with
  | error fault =>
    rw [after_refused (servicesWith others) silent decided]
    exact kept
  | ok admission =>
    rw [after_admitted (servicesWith others) silent decided]
    obtain ⟨command, handler, arguments⟩ := admission
    by_cases assigns : ∃ check target level, handler = .builtin .setLevel ∧
        arguments = [check, .value (.text target), .value (.int level)]
    · obtain ⟨check, target, level, rfl, rfl⟩ := assigns
      exact assigned command check target level later decided kept
    · refine (preserves_handle foreign handler arguments (fun builtin same => ?_) later kept).1
      refine Builtin.preserves_run withstands builtin arguments (fun caller member => ?_) ?_
      · exact CallerTables.caller_of_gate decided member ▸ own
      · rintro check target level rfl shape
        exact absurd ⟨check, target, level, same, shape⟩ assigns

end Preserves

end Services
end Switchboard
