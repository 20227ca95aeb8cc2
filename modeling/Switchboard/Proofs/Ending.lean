import Switchboard.Proofs.Dispatch
import Switchboard.Proofs.Leaf

/-!
How dispatches end. Whatever the tables of callers and the handlers do, a message is answered in one
of four ways: with what its handler gave back, with an error of the caller's own, with a failure
that the handler reports, or with an internal error.
-/
namespace Switchboard

open Work

/-! ### Endings -/

/-- How a dispatch ends. -/
inductive Ending where
  /-- With what the handler gave back, part by part. -/
  | answered (parts : List Segment)
  /-- With an error of the caller's own. -/
  | refused (fault : Bot.Fault)
  /-- With a failure that the handler reports. -/
  | reported (command text : String) (logged : Bool)
  /-- With an internal error, after some parts were sent. -/
  | broken (parts : List Segment) (fault : Bot.Fault)

namespace Ending

/-- What is sent to the caller. -/
def parts (errorPrefix : String) : Ending → List Segment
  | .answered parts => parts
  | .refused fault => [.text (errorPrefix ++ fault.text)]
  | .reported _ text _ => [.text (errorPrefix ++ text)]
  | .broken parts fault =>
    parts ++ [.text (errorPrefix ++ (fault.command ++ ": " ++ fault.failure.internalText))]

/-- What is logged of the end. -/
def events (caller : CallerId) : Ending → List Event
  | .answered _ | .refused _ => []
  | .reported command text logged => if logged then [.failureReported command caller text] else []
  | .broken _ fault => [.dispatchFailed fault.command caller fault.failure.description]

end Ending

/-- How a dispatch ends by what its handler came to. -/
inductive Concludes (command : String) : Except Failure Outcome → Ending → Prop
  /-- There are leaves to send, and all of them can be shown. -/
  | answered {outcome : Outcome} {parts : List Segment}
      (plain : ∀ text logged, outcome ≠ .failure (.handled text logged))
      (shown : Leaf.sent outcome.leaves = parts.map .ok) (filled : parts ≠ []) :
      Concludes command (.ok outcome) (.answered parts)
  | denied (level : Document) (reason : Option String) :
      Concludes command (.error (.permissionDenied level reason))
        (.refused ⟨command, .permissionDenied level reason⟩)
  | raised (text : String) (logged : Bool) :
      Concludes command (.error (.handled text logged)) (.reported command text logged)
  | returned (text : String) (logged : Bool) :
      Concludes command (.ok (.failure (.handled text logged))) (.reported command text logged)
  | failed {failure : Failure} (unreported : failure.isReported = false)
      (granted : ∀ level reason, failure ≠ .permissionDenied level reason) :
      Concludes command (.error failure) (.broken [] ⟨command, failure⟩)
  | empty {outcome : Outcome} (empty : Leaf.sent outcome.leaves = []) :
      Concludes command (.ok outcome) (.broken [] ⟨command, .emptyReply⟩)
  /-- One leaf cannot be shown; those before it are sent. -/
  | unshown {outcome : Outcome} {parts : List Segment} {failure : Failure}
      {rest : List (Except Failure Segment)}
      (plain : ∀ text logged, outcome ≠ .failure (.handled text logged))
      (shown : Leaf.sent outcome.leaves = parts.map .ok ++ .error failure :: rest) :
      Concludes command (.ok outcome) (.broken parts ⟨command, failure⟩)

/-- How the dispatch of a message ends. -/
inductive Services.Ends (services : Services) (bot : Bot) (message : Message) : Ending → Prop
  | refused {fault : Bot.Fault} {later : Bot}
      (decided : (services.gate message (Bot.lineOf message.text)).run (bot.receive message) =
        (.error fault, later))
      (own : fault.failure.isCallers = true) : services.Ends bot message (.refused fault)
  | broken {fault : Bot.Fault} {later : Bot}
      (decided : (services.gate message (Bot.lineOf message.text)).run (bot.receive message) =
        (.error fault, later))
      (foreign : fault.failure.isCallers = false) : services.Ends bot message (.broken [] fault)
  | concluded {admission : Admission} {later : Bot} {ending : Ending}
      (decided : (services.gate message (Bot.lineOf message.text)).run (bot.receive message) =
        (.ok admission, later))
      (concludes : Concludes admission.command
        ((services.handle admission.handler admission.arguments).run later).1 ending) :
      services.Ends bot message ending

/-! ### What is sent and logged -/

namespace Bot

/-- The bot after parts of a reply were sent. -/
def replied (bot : Bot) (message : Message) (parts : List Segment) : Bot :=
  { bot with outbox := { bot.outbox with
      tried := bot.outbox.tried + parts.length
      replies := bot.outbox.replies ++ parts.map fun segment =>
        { caller := message.caller, segment } } }

variable {bot : Bot} {message : Message}

theorem replied_nil (bot : Bot) (message : Message) : bot.replied message [] = bot := by
  simp only [replied, List.length_nil, Nat.add_zero, List.map_nil, List.append_nil]

theorem replied_replied (bot : Bot) (message : Message) (first second : List Segment) :
    (bot.replied message first).replied message second = bot.replied message (first ++ second) := by
  simp only [replied, List.length_append, List.map_append, List.append_assoc, Nat.add_assoc]

/-- A delivery succeeds where nothing disturbs it. -/
theorem run_deliver_reliable (reliable : bot.outbox.disturbances = []) (segment : Segment) :
    (deliver message segment).run bot = (.ok (), bot.replied message [segment]) := by
  rw [run_deliver, reliable]
  rfl

theorem run_settle_reliable (reliable : bot.outbox.disturbances = []) (fault : Fault) :
    (settle message fault).run bot =
      (.ok (), (bot.logging (fault.events message.caller)).replied message
        [.text (bot.config.errorPrefix ++ fault.text)]) := by
  have later : (bot.logging (fault.events message.caller)).outbox.disturbances = [] := reliable
  rw [run_settle, run_replyError]
  exact run_deliver_reliable later _

/-- The parts in front of the first that cannot be shown, and what keeps it from being shown. -/
def sendable : List (Except Failure Segment) → List Segment × Option Failure
  | [] => ([], none)
  | .ok segment :: rest => (segment :: (sendable rest).1, (sendable rest).2)
  | .error failure :: _ => ([], some failure)

theorem sendable_map_ok (parts : List Segment) : sendable (parts.map .ok) = (parts, none) := by
  induction parts with
  | nil => rfl
  | cons part parts ih => rw [List.map_cons, sendable, ih]

theorem sendable_append_error (parts : List Segment) (failure : Failure)
    (rest : List (Except Failure Segment)) :
    sendable (parts.map .ok ++ .error failure :: rest) = (parts, some failure) := by
  induction parts with
  | nil => rfl
  | cons part parts ih => rw [List.map_cons, List.cons_append, sendable, ih]

theorem eq_of_sendable_none {shown : List (Except Failure Segment)} {parts : List Segment}
    (all : sendable shown = (parts, none)) : shown = parts.map .ok := by
  induction shown generalizing parts with
  | nil => cases all; rfl
  | cons first rest ih =>
    cases first with
    | error failure => cases all
    | ok segment =>
      obtain ⟨rfl, none⟩ := Prod.mk.inj all
      rw [List.map_cons, ← ih (Prod.ext rfl none)]

theorem eq_of_sendable_some {shown : List (Except Failure Segment)} {parts : List Segment}
    {failure : Failure} (stopped : sendable shown = (parts, some failure)) :
    ∃ rest, shown = parts.map .ok ++ .error failure :: rest := by
  induction shown generalizing parts with
  | nil => cases stopped
  | cons first rest ih =>
    cases first with
    | error cause => cases stopped; exact ⟨rest, rfl⟩
    | ok segment =>
      obtain ⟨rfl, some⟩ := Prod.mk.inj stopped
      obtain ⟨after, same⟩ := ih (Prod.ext rfl some)
      exact ⟨after, by rw [List.map_cons, List.cons_append, ← same]⟩

/-- The parts are sent one by one, up to one that cannot be shown. -/
theorem run_deliverAll (reliable : bot.outbox.disturbances = [])
    (shown : List (Except Failure Segment)) :
    (deliverAll message shown).run bot =
      (match (sendable shown).2 with
        | none => .ok ()
        | some failure => .error failure, bot.replied message (sendable shown).1) := by
  induction shown generalizing bot with
  | nil =>
    rw [sendable, replied_nil]
    rfl
  | cons first rest ih =>
    cases first with
    | error failure =>
      rw [sendable, replied_nil]
      exact run_bind_error _ (run_bind_error _ (run_ofExcept _ bot))
    | ok segment =>
      have sent : (do deliver message (← MonadExcept.ofExcept (Except.ok segment)) : BotM Unit).run
          bot = (.ok (), bot.replied message [segment]) :=
        (run_bind_ok _ (run_ofExcept _ bot)).trans (run_deliver_reliable reliable segment)
      have later : (bot.replied message [segment]).outbox.disturbances = [] := reliable
      refine (run_bind_ok _ sent).trans ((ih later).trans ?_)
      rw [replied_replied]
      rfl

theorem run_passOn_failed {failure : Failure} (unreported : failure.isReported = false)
    (granted : ∀ level reason, failure ≠ .permissionDenied level reason) (command : String) :
    (passOn command message failure).run bot =
      (.error (.command failure.internalText),
        bot.logging [.dispatchFailed command message.caller failure.description]) := by
  cases failure
  case permissionDenied level reason => exact absurd rfl (granted level reason)
  case handled text logged => cases unreported
  all_goals exact run_bind_ok _ (run_record _ bot)

/-- The bot after a dispatch that ended like this. -/
def ended (bot : Bot) (message : Message) (ending : Ending) : Bot :=
  (bot.logging (ending.events message.caller)).replied message
    (ending.parts bot.config.errorPrefix)

/-- A failure of the work of a handler ends the dispatch. -/
theorem run_answer_of_conclude {command : String} {work : BotM Outcome} {failure : Failure}
    {later : Bot} (concluded : (conclude command message work).run bot = (.error failure, later)) :
    (answer command message work).run bot = (settle message ⟨command, failure⟩).run later := by
  rw [answer, run_tryCatch, concluded]

theorem deliverOutcome_plain {outcome : Outcome} (command : String)
    (plain : ∀ text logged, outcome ≠ .failure (.handled text logged)) :
    deliverOutcome command message outcome =
      match Leaf.sent outcome.leaves with
      | [] => throw .emptyReply
      | segments => deliverAll message segments := by
  rw [← Outcome.segments_eq_sent]
  unfold deliverOutcome
  split
  · rename_i text logged
    exact absurd rfl (plain text logged)
  · rfl

/-- A handler that breaks off, after parts that were sent, leaves an internal error. -/
theorem run_answer_broken {command : String} {work : BotM Outcome} {failure : Failure}
    {later : Bot} (reliable : later.outbox.disturbances = [])
    (unreported : failure.isReported = false)
    (granted : ∀ level reason, failure ≠ .permissionDenied level reason) (parts : List Segment)
    (broke : (work >>= deliverOutcome command message).run bot =
      (.error failure, later.replied message parts)) :
    (answer command message work).run bot =
      (.ok (), later.ended message (.broken parts ⟨command, failure⟩)) := by
  have concluded : (conclude command message work).run bot =
      (.error (.command failure.internalText), (later.replied message parts).logging
        [.dispatchFailed command message.caller failure.description]) := by
    rw [conclude, run_tryCatch, broke]
    exact run_passOn_failed unreported granted command
  rw [run_answer_of_conclude concluded]
  have still : ((later.replied message parts).logging
      [.dispatchFailed command message.caller failure.description]).outbox.disturbances = [] :=
    reliable
  have quiet : Fault.events ⟨command, .command failure.internalText⟩ message.caller = [] := rfl
  rw [run_settle_reliable still, quiet, logging_nil, ended, Ending.parts, ← replied_replied]
  rfl

theorem run_answer_delivered {command : String} {work : BotM Outcome} {outcome : Outcome}
    {later last : Bot} (done : work.run bot = (.ok outcome, later))
    (delivered : (deliverOutcome command message outcome).run later = (.ok (), last)) :
    (answer command message work).run bot = (.ok (), last) := by
  have concluded : (conclude command message work).run bot = (.ok (), last) := by
    rw [conclude, run_tryCatch, run_bind_ok _ done, delivered]
  rw [answer, run_tryCatch, concluded]

/-- A failure that passes as it is gets told to the caller. -/
theorem run_answer_passed {command : String} {work : BotM Outcome} {failure : Failure} {later : Bot}
    (reliable : later.outbox.disturbances = []) (failed : work.run bot = (.error failure, later))
    (passed : (passOn command message failure).run later = (.error failure, later)) :
    (answer command message work).run bot =
      (.ok (), (later.logging (Fault.events ⟨command, failure⟩ message.caller)).replied message
        [.text (later.config.errorPrefix ++ Fault.text ⟨command, failure⟩)]) := by
  have concluded : (conclude command message work).run bot = (.error failure, later) := by
    rw [conclude, run_tryCatch, run_bind_error _ failed]
    exact passed
  rw [run_answer_of_conclude concluded]
  exact run_settle_reliable reliable _

/-- A dispatch ends as its handler's work concludes. -/
theorem run_answer_concludes {command : String} {work : BotM Outcome} {later : Bot}
    {result : Except Failure Outcome} {ending : Ending}
    (reliable : later.outbox.disturbances = []) (done : work.run bot = (result, later))
    (concludes : Concludes command result ending) :
    (answer command message work).run bot = (.ok (), later.ended message ending) := by
  cases concludes with
  | @answered outcome parts plain shown filled =>
    refine run_answer_delivered done ?_
    have delivers : deliverOutcome command message outcome =
        deliverAll message (parts.map .ok) := by
      rw [deliverOutcome_plain command plain, shown]
      cases parts with
      | nil => exact absurd rfl filled
      | cons part parts => rfl
    rw [delivers, run_deliverAll reliable, sendable_map_ok, ended, Ending.events, logging_nil]
    rfl
  | denied level reason => exact run_answer_passed reliable done rfl
  | raised text logged => exact run_answer_passed reliable done rfl
  | returned text logged =>
    refine run_answer_delivered done ?_
    have still : (later.logging (if logged then [.failureReported command message.caller text]
        else [])).outbox.disturbances = [] := reliable
    refine (run_report command message text logged later).trans ?_
    rw [run_replyError]
    exact run_deliver_reliable still _
  | @failed failure unreported granted =>
    refine run_answer_broken reliable unreported granted [] ?_
    rw [replied_nil]
    exact run_bind_error _ done
  | @empty outcome empty =>
    refine run_answer_broken reliable rfl (fun _ _ same => Failure.noConfusion same) [] ?_
    have plain : ∀ text logged, outcome ≠ .failure (.handled text logged) := by
      rintro text logged rfl
      cases empty
    rw [replied_nil, run_bind_ok _ done, deliverOutcome_plain command plain, empty]
    rfl
  | @unshown outcome parts failure rest plain shown =>
    have member : .error failure ∈ Leaf.sent outcome.leaves := by
      rw [shown]
      exact List.mem_append_right _ List.mem_cons_self
    obtain rfl := Leaf.overlong_of_sent member
    refine run_answer_broken reliable rfl (fun _ _ same => Failure.noConfusion same) parts ?_
    have delivers : deliverOutcome command message outcome =
        deliverAll message (parts.map .ok ++ .error .overlong :: rest) := by
      rw [deliverOutcome_plain command plain, shown]
      cases parts <;> rfl
    rw [run_bind_ok _ done, delivers, run_deliverAll reliable, sendable_append_error]

end Bot

/-! ### One ending for each dispatch -/

namespace Concludes

variable {command : String} {result : Except Failure Outcome}

/-- The ending of a result, computed. -/
def ending (command : String) : Except Failure Outcome → Ending
  | .error (.permissionDenied level reason) => .refused ⟨command, .permissionDenied level reason⟩
  | .error (.handled text logged) => .reported command text logged
  | .error failure => .broken [] ⟨command, failure⟩
  | .ok (.failure (.handled text logged)) => .reported command text logged
  | .ok outcome =>
    match Bot.sendable (Leaf.sent outcome.leaves) with
    | (parts, some failure) => .broken parts ⟨command, failure⟩
    | ([], none) => .broken [] ⟨command, .emptyReply⟩
    | (parts, none) => .answered parts

theorem ending_plain {outcome : Outcome}
    (plain : ∀ text logged, outcome ≠ .failure (.handled text logged)) :
    ending command (.ok outcome) =
      match Bot.sendable (Leaf.sent outcome.leaves) with
      | (parts, some failure) => .broken parts ⟨command, failure⟩
      | ([], none) => .broken [] ⟨command, .emptyReply⟩
      | (parts, none) => .answered parts := by
  unfold ending
  split
  case h_4 text logged same => exact absurd (Except.ok.inj same) (plain text logged)
  case h_5 other same =>
    obtain rfl := Except.ok.inj same
    rfl
  all_goals contradiction

theorem ending_failed {failure : Failure} (unreported : failure.isReported = false)
    (granted : ∀ level reason, failure ≠ .permissionDenied level reason) :
    ending command (.error failure) = .broken [] ⟨command, failure⟩ := by
  cases failure
  case permissionDenied level reason => exact absurd rfl (granted level reason)
  case handled text logged => cases unreported
  all_goals rfl

theorem ending_eq {found : Ending} (concludes : Concludes command result found) :
    ending command result = found := by
  cases concludes with
  | @answered outcome parts plain shown filled =>
    rw [ending_plain plain, shown, Bot.sendable_map_ok]
    cases parts with
    | nil => exact absurd rfl filled
    | cons part parts => rfl
  | denied level reason => rfl
  | raised text logged => rfl
  | returned text logged => rfl
  | failed unreported granted => exact ending_failed unreported granted
  | @empty outcome empty =>
    have plain : ∀ text logged, outcome ≠ .failure (.handled text logged) := by
      rintro text logged rfl
      cases empty
    rw [ending_plain plain, empty]
    rfl
  | unshown plain shown => rw [ending_plain plain, shown, Bot.sendable_append_error]

theorem of_plain {outcome : Outcome}
    (plain : ∀ text logged, outcome ≠ .failure (.handled text logged)) :
    ∃ found, Concludes command (.ok outcome) found := by
  rcases sendable : Bot.sendable (Leaf.sent outcome.leaves) with ⟨parts, stopped⟩
  cases stopped with
  | some failure =>
    obtain ⟨rest, shown⟩ := Bot.eq_of_sendable_some sendable
    exact ⟨_, .unshown plain shown⟩
  | none =>
    have shown := Bot.eq_of_sendable_none sendable
    cases parts with
    | nil => exact ⟨_, .empty shown⟩
    | cons part parts => exact ⟨_, .answered plain shown (List.cons_ne_nil part parts)⟩

theorem exists_ending (command : String) (result : Except Failure Outcome) :
    ∃ found, Concludes command result found := by
  cases result with
  | error failure =>
    cases failure
    case permissionDenied level reason => exact ⟨_, .denied level reason⟩
    case handled text logged => exact ⟨_, .raised text logged⟩
    all_goals exact ⟨_, .failed rfl fun _ _ same => Failure.noConfusion same⟩
  | ok outcome =>
    cases outcome
    case failure cause =>
      cases cause
      case handled text logged => exact ⟨_, .returned text logged⟩
      all_goals
        exact of_plain fun _ _ same => Failure.noConfusion (Outcome.failure.inj same)
    all_goals exact of_plain fun _ _ same => Outcome.noConfusion same

end Concludes

namespace Bot

/-- All of a bot that tells how its dispatches end. -/
structure Answers where
  config : Config
  outbox : Outbox
  endings : List Event

def answers (bot : Bot) : Answers where
  config := bot.config
  outbox := bot.outbox
  endings := bot.endings

theorem answers_receive (bot : Bot) (message : Message) :
    (bot.receive message).answers = bot.answers := by
  simp [answers, receive, logging, endings, Event.isEnding]

theorem filter_events (ending : Ending) (caller : CallerId) :
    (ending.events caller).filter Event.isEnding = ending.events caller := by
  cases ending with
  | reported command text logged => cases logged <;> rfl
  | answered parts => rfl
  | refused fault => rfl
  | broken parts fault => rfl

/-- A dispatch logs of its end what its ending says, be it before or after what the store still has
to hand over. -/
theorem endings_ended (bot : Bot) (message : Message) (ending : Ending) :
    (bot.ended message ending).endings.Perm (bot.endings ++ ending.events message.caller) := by
  have same : (bot.ended message ending).endings =
      bot.log.filter Event.isEnding ++ (ending.events message.caller ++ bot.store.endings) := by
    rw [← List.append_assoc, ← filter_events ending, ← List.filter_append]
    rfl
  rw [same, endings, List.append_assoc]
  exact List.Perm.append_left _ List.perm_append_comm

theorem events_of_own {fault : Fault} (own : fault.failure.isCallers = true) (caller : CallerId) :
    fault.events caller = [] := by
  obtain ⟨command, failure⟩ := fault
  cases failure <;> first | rfl | cases own

/-- A fault that is neither the caller's doing nor reported is an internal error. -/
theorem settled_of_foreign {fault : Fault} (foreign : fault.failure.isCallers = false)
    (unreported : fault.failure.isReported = false) (caller : CallerId) :
    fault.events caller = [.dispatchFailed fault.command caller fault.failure.description] ∧
      fault.text = fault.command ++ ": " ++ fault.failure.internalText := by
  obtain ⟨command, failure⟩ := fault
  cases failure
  case handled text logged => cases unreported
  all_goals first
    | exact ⟨rfl, rfl⟩
    | cases foreign

end Bot

namespace Services

open Switchboard.Bot

/-- Tables and handlers that neither send nor log anything for a dispatch on their own, tables
further that fail in no way that a handler would report. -/
structure Fair (services : Services) (bot : Bot) : Prop where
  tables : services.Keep fun state => (state.answers, state.disturbances)
  handle : ∀ handler arguments, Keeps answers (services.handle handler arguments)
  unreported : services.FailOnly (fun state => state.disturbances = bot.disturbances)
    (·.isReported = false)

variable {services : Services} {bot : Bot} {message : Message}

theorem Ends.unique {first second : Ending} (one : services.Ends bot message first)
    (other : services.Ends bot message second) : first = second := by
  cases one with
  | refused decided own =>
    cases other with
    | refused again _ => cases decided.symm.trans again; rfl
    | broken again foreign =>
      cases decided.symm.trans again
      rw [own] at foreign
      cases foreign
    | concluded again _ => cases decided.symm.trans again
  | broken decided foreign =>
    cases other with
    | refused again own =>
      cases decided.symm.trans again
      rw [foreign] at own
      cases own
    | broken again _ => cases decided.symm.trans again; rfl
    | concluded again _ => cases decided.symm.trans again
  | concluded decided concludes =>
    cases other with
    | refused again _ => cases decided.symm.trans again
    | broken again _ => cases decided.symm.trans again
    | concluded again concluding =>
      cases decided.symm.trans again
      rw [← concludes.ending_eq, ← concluding.ending_eq]

theorem exists_ends (services : Services) (bot : Bot) (message : Message) :
    ∃ ending, services.Ends bot message ending := by
  rcases decided : (services.gate message (lineOf message.text)).run (bot.receive message) with
    ⟨verdict, later⟩
  cases verdict with
  | error fault =>
    cases own : fault.failure.isCallers with
    | true => exact ⟨_, .refused decided own⟩
    | false => exact ⟨_, .broken decided own⟩
  | ok admission =>
    obtain ⟨ending, concludes⟩ := Concludes.exists_ending admission.command
      ((services.handle admission.handler admission.arguments).run later).1
    exact ⟨ending, .concluded decided concludes⟩

/-- A dispatch ends in the one way that it is said to end in. -/
theorem run_ends (reliable : bot.outbox.disturbances = []) (fair : services.Fair bot)
    {ending : Ending} (ends : services.Ends bot message ending) :
    ∃ later : Bot, (services.run message).run bot = (.ok (), later.ended message ending) ∧
      later.answers = bot.answers := by
  have kept := fair.tables.gate (fun _ _ => rfl) message (lineOf message.text) (bot.receive message)
  have settled := (fair.unreported.gate (fun _ own => own) (fun _ _ same => same) message
    (lineOf message.text) (bot.receive message) rfl).2
  rw [run_gate]
  rcases decided : (services.gate message (lineOf message.text)).run (bot.receive message) with
    ⟨verdict, later⟩
  -- The message is decided about once, so its ending speaks of the same verdict and the same bot.
  rw [decided] at kept settled
  have answers : later.answers = bot.answers :=
    (congrArg Prod.fst kept).trans (answers_receive bot message)
  have still : later.outbox.disturbances = [] := by
    rw [← reliable]
    exact congrArg (fun answers => answers.outbox.disturbances) answers
  cases ends with
  | refused again own =>
    cases decided.symm.trans again
    refine ⟨later, ?_, answers⟩
    dsimp only
    rw [run_settle_reliable still, events_of_own own]
    rfl
  | @broken fault last again foreign =>
    cases decided.symm.trans again
    refine ⟨later, ?_, answers⟩
    obtain ⟨events, text⟩ := settled_of_foreign foreign (settled fault rfl) message.caller
    dsimp only
    rw [run_settle_reliable still, events, text]
    rfl
  | @concluded admission last ending again concludes =>
    cases decided.symm.trans again
    dsimp only
    have handled := fair.handle admission.handler admission.arguments later
    rcases done : (services.handle admission.handler admission.arguments).run later with
      ⟨result, last⟩
    rw [done] at handled concludes
    have reliable : last.outbox.disturbances = [] := by
      rw [← still]
      exact congrArg (fun answers => answers.outbox.disturbances) handled
    exact ⟨last, run_answer_concludes reliable done concludes, handled.trans answers⟩

/-! ### The tables and handlers of a bot -/

theorem failsOnly_read {α : Type} (query : Users.Entries → α) :
    FailsOnly (fun _ => True) (·.isReported = false) (Store.read query) := by
  have reload : FailsOnly (fun _ => True) (·.isReported = false) Store.reload := by
    refine FailsOnly.get.bind fun store => ?_
    dsimp only
    split
    · exact .throw rfl
    · exact .modify fun _ _ => trivial
  have entries : FailsOnly (fun _ => True) (·.isReported = false) Store.entries := by
    refine FailsOnly.get.bind fun store => ?_
    split
    · exact .pure _
    · exact .throw rfl
  exact reload.bind fun _ => entries.bind fun _ => .pure _

/-- An operation of the store fails as the store does, or as it is disturbed. -/
theorem failsOnly_onStore {disturbances : List (StoreOperation × Failure)}
    (unreported : ∀ operation failure, disturbances.lookup operation = some failure →
      failure.isReported = false)
    {α : Type} (operation : StoreOperation) (query : Users.Entries → α) :
    FailsOnly (fun state => state.disturbances = disturbances) (·.isReported = false)
      (onStore operation (Store.read query)) := by
  intro state same
  rw [run_onStore, same]
  cases disturbed : disturbances.lookup operation with
  | some failure =>
    refine ⟨same, fun other failed => ?_⟩
    obtain rfl : failure = other := Except.error.inj failed
    exact unreported operation failure disturbed
  | none => exact ⟨same, (failsOnly_read query state.store trivial).2⟩

/-- The store and the handlers of a bot are fair, unless the store is disturbed by what only a
handler would report. -/
theorem fair_services
    (unreported : ∀ operation failure, bot.disturbances.lookup operation = some failure →
      failure.isReported = false) : Bot.services.Fair bot where
  tables := by
    have kept : ∀ {α : Type} (operation : StoreOperation) (query : Users.Entries → α),
        Keeps (fun state => (state.answers, state.disturbances))
          (onStore operation (Store.read query)) := by
      intro α operation query
      refine keeps_onStore (fun state => ?_) operation
      refine congrArg
        (fun endings => (Answers.mk state.config state.outbox endings, state.disturbances)) ?_
      exact endings_takeStore (Store.keeps_endings_read query state.store)
    exact ⟨fun _ => kept _ _, fun _ => kept _ _, fun _ _ => kept _ _, fun _ => kept _ _⟩
  handle := by
    intro handler arguments
    refine keeps_handle (othersKeep_outcomeOf fun _ _ => rfl) handler arguments fun builtin _ => ?_
    refine (keeps_premises_run builtin arguments).weaken fun state later same => ?_
    exact congrArg
      (fun premises => Answers.mk premises.config premises.outbox premises.endings) same
  unreported := by
    have fails : ∀ {α : Type} (operation : StoreOperation) (query : Users.Entries → α),
        FailsOnly (fun state => state.disturbances = bot.disturbances) (·.isReported = false)
          (onStore operation (Store.read query)) :=
      fun operation query => failsOnly_onStore unreported operation query
    exact ⟨fun _ => fails _ _, fun _ => fails _ _, fun _ _ => fails _ _, fun _ => fails _ _⟩

end Services
end Switchboard
