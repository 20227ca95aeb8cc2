import Switchboard.Proofs.Refusal

/-!
What is decided about a message by what is known of its caller. The message passes through stages in
a fixed order: the caller has a level, no quote is left open, the command is found, it can be
called, the level suffices, and the arguments can be bound. The first stage that it fails at
decides.
-/
namespace Switchboard

open Work

theorem QuoteFlags.eq_closed {flags : QuoteFlags} (double : flags.double = false)
    (single : flags.single = false) : flags = {} := by
  obtain ⟨first, second⟩ := flags
  cases double
  cases single
  rfl

namespace Graph

/-- What a name leads to: the command that it names directly, or else the one under the first of
the scopes that has one. -/
inductive Resolves (graph : Graph) (scopes : List String) (name : String) : Option NodeId → Prop
  | direct {id : NodeId} (found : graph.find? root name = some id) :
      Resolves graph scopes name (some id)
  | scoped {id : NodeId} {before after : List String} {scope : String}
      (missing : graph.find? root name = none) (split : scopes = before ++ scope :: after)
      (passed : ∀ other ∈ before, graph.find? root (scopedName other name) = none)
      (found : graph.find? root (scopedName scope name) = some id) :
      Resolves graph scopes name (some id)
  | missing (missing : graph.find? root name = none)
      (passed : ∀ other ∈ scopes, graph.find? root (scopedName other name) = none) :
      Resolves graph scopes name none

theorem resolves_iff {graph : Graph} {scopes : List String} {name : String}
    {target? : Option NodeId} :
    graph.Resolves scopes name target? ↔ graph.findScoped? root name scopes = target? := by
  unfold findScoped? findUnder?
  constructor
  · rintro (found | ⟨missing, split, passed, found⟩ | ⟨missing, passed⟩)
    · rw [found, Option.some_or]
    · rw [missing, Option.none_or]
      exact List.findSome?_eq_some_iff.mpr ⟨_, _, _, split, found, passed⟩
    · rw [missing, Option.none_or]
      exact List.findSome?_eq_none_iff.mpr passed
  · intro same
    cases direct : graph.find? root name with
    | some id =>
      rw [direct, Option.some_or] at same
      subst same
      exact .direct direct
    | none =>
      rw [direct, Option.none_or] at same
      cases target? with
      | some id =>
        obtain ⟨before, scope, after, split, found, passed⟩ := List.findSome?_eq_some_iff.mp same
        exact .scoped direct split passed found
      | none => exact .missing direct (List.findSome?_eq_none_iff.mp same)

end Graph

/-- What the tables say about a caller; the level is a failure where ids cannot be compared. -/
structure Profile where
  known : Table String
  level : Except Failure Level
  alias? : String → Option String
  scopes : List String

namespace Profile

open Switchboard.Bot

/-- The quotes that a message leaves open. -/
def flags (profile : Profile) (message : Message) : QuoteFlags :=
  (Line.tokenize profile.known (lineOf message.text)).2

/-- The tokens that a message stands for; one without tokens asks for help. -/
def words (profile : Profile) (message : Message) : List String :=
  let tokens := (Line.tokenize profile.known (lineOf message.text)).1
  if tokens = [] then [helpName] else tokens

/-- The name of the command that a message asks for, with the caller's alias put in. -/
def command (profile : Profile) (message : Message) : String :=
  let requested := (profile.words message).headD helpName
  withHead requested (profile.alias? (Text.cutText '.' requested).1)

/-- A message as it is read at a level. -/
def line (profile : Profile) (message : Message) (level : Level) : Reading where
  tokens := profile.words message
  flags := profile.flags message
  level := level

/-- A caller whose level is known and not below zero. -/
def IsAdmitted (profile : Profile) : Prop :=
  ∃ level, profile.level = .ok level ∧ level.isBelow 0 = false

end Profile

open Switchboard.Bot in
/-- What becomes of a message, by the first stage that it fails at. -/
inductive Verdict (graph : Graph) (profile : Profile) (message : Message) :
    Except Fault Admission → Prop
  /-- The caller's id, or one that it is compared with, cannot be written. -/
  | unwritable {failure : Failure} (level : profile.level = .error failure) :
      Verdict graph profile message (.error ⟨Text.firstWord (lineOf message.text), failure⟩)
  | doubleQuote {level : Level} (ranked : profile.level = .ok level)
      (dangling : (profile.flags message).double = true) :
      Verdict graph profile message
        (.error ⟨Text.firstWord (lineOf message.text), .unmatchedQuote "\""⟩)
  | singleQuote {level : Level} (ranked : profile.level = .ok level)
      (closed : (profile.flags message).double = false)
      (dangling : (profile.flags message).single = true) :
      Verdict graph profile message
        (.error ⟨Text.firstWord (lineOf message.text), .unmatchedQuote "'"⟩)
  | notFound {level : Level} (ranked : profile.level = .ok level)
      (closed : profile.flags message = {})
      (missing : graph.Resolves profile.scopes (profile.command message) none) :
      Verdict graph profile message (.error ⟨profile.command message, .notFound⟩)
  | notExecutable {level : Level} {id : NodeId} (ranked : profile.level = .ok level)
      (closed : profile.flags message = {})
      (found : graph.Resolves profile.scopes (profile.command message) (some id))
      (bare : (graph.node id).handler = none) :
      Verdict graph profile message (.error ⟨profile.command message, .notExecutable⟩)
  | permissionDenied {level : Level} {id : NodeId} {handler : Handler}
      (ranked : profile.level = .ok level) (closed : profile.flags message = {})
      (found : graph.Resolves profile.scopes (profile.command message) (some id))
      (handled : (graph.node id).handler = some handler)
      (below : level.isBelow (graph.node id).permission = true) :
      Verdict graph profile message
        (.error ⟨profile.command message,
          .permissionDenied (.int (graph.node id).permission) none⟩)
  | unbound {level : Level} {id : NodeId} {handler : Handler} {failure : Failure}
      (ranked : profile.level = .ok level) (closed : profile.flags message = {})
      (found : graph.Resolves profile.scopes (profile.command message) (some id))
      (handled : (graph.node id).handler = some handler)
      (above : level.isBelow (graph.node id).permission = false)
      (failed : (profile.line message level).arguments message id (graph.node id) =
        .error failure) :
      Verdict graph profile message (.error ⟨profile.command message, failure⟩)
  | called {level : Level} {id : NodeId} {handler : Handler} {arguments : List Argument}
      (ranked : profile.level = .ok level) (closed : profile.flags message = {})
      (found : graph.Resolves profile.scopes (profile.command message) (some id))
      (handled : (graph.node id).handler = some handler)
      (above : level.isBelow (graph.node id).permission = false)
      (bound : (profile.line message level).arguments message id (graph.node id) = .ok arguments) :
      Verdict graph profile message (.ok ⟨profile.command message, handler, arguments⟩)

/-! ### Verdicts and gates -/

namespace Profile

open Switchboard.Bot

/-- How a message is read by what is known of its caller. -/
def reading (profile : Profile) (message : Message) : Except Failure Reading := do
  Bot.reading profile.known (← profile.level) (lineOf message.text)

/-- What a message that was read has for the command that it asks for. -/
def admission (profile : Profile) (graph : Graph) (message : Message) (reading : Reading) :
    Except Failure Admission :=
  match graph.findScoped? Graph.root (profile.command message) profile.scopes with
  | none => .error .notFound
  | some id => reading.admission (profile.command message) message id (graph.node id)

/-- Everything that is decided about a message by what is known of its caller. -/
def gate (profile : Profile) (graph : Graph) (message : Message) : Except Fault Admission := do
  let reading ← (profile.reading message).mapError fun failure =>
    { command := Text.firstWord (lineOf message.text), failure }
  (profile.admission graph message reading).mapError fun failure =>
    { command := profile.command message, failure }

theorem reading_eq (profile : Profile) (message : Message) {level : Level}
    (ranked : profile.level = .ok level) (closed : profile.flags message = {}) :
    profile.reading message = .ok (profile.line message level) := by
  have double : (profile.flags message).double = false := by rw [closed]
  have single : (profile.flags message).single = false := by rw [closed]
  unfold reading
  rw [ranked, ok_bind]
  unfold Bot.reading
  dsimp only
  rw [if_neg (by rw [← flags, double]; exact Bool.false_ne_true)]
  rw [if_neg (by rw [← flags, single]; exact Bool.false_ne_true)]
  rfl

theorem words_of_reading {profile : Profile} {message : Message} {line : Reading}
    (read : profile.reading message = .ok line) : line.tokens = profile.words message := by
  unfold reading at read
  cases ranked : profile.level with
  | error failure =>
    rw [ranked] at read
    cases read
  | ok level =>
    rw [ranked, ok_bind] at read
    unfold Bot.reading at read
    dsimp only at read
    split at read
    · cases read
    · split at read <;> cases read
      rfl

/-- A message that leaves a quote open cannot be read. -/
theorem reading_of_open {profile : Profile} {message : Message}
    (dangling : profile.flags message ≠ {}) :
    ∃ failure, profile.reading message = .error failure := by
  unfold reading
  cases profile.level with
  | error failure => exact ⟨failure, rfl⟩
  | ok level =>
    rw [ok_bind]
    unfold Bot.reading
    dsimp only
    split
    · exact ⟨_, rfl⟩
    · rename_i double
      split
      · exact ⟨_, rfl⟩
      · rename_i single
        exact absurd (QuoteFlags.eq_closed (Bool.eq_false_iff.mpr double)
          (Bool.eq_false_iff.mpr single)) dangling

/-- A message whose reading fails names its first word. -/
theorem gate_of_unread {profile : Profile} {graph : Graph} {message : Message} {failure : Failure}
    (failed : profile.reading message = .error failure) :
    profile.gate graph message = .error ⟨Text.firstWord (lineOf message.text), failure⟩ := by
  unfold gate
  rw [failed]
  rfl

/-- A message that can be read is decided about by what its command resolves to. -/
theorem gate_of_missing {profile : Profile} {graph : Graph} {message : Message} {level : Level}
    (ranked : profile.level = .ok level) (closed : profile.flags message = {})
    (missing : graph.Resolves profile.scopes (profile.command message) none) :
    profile.gate graph message = .error ⟨profile.command message, .notFound⟩ := by
  unfold gate admission
  rw [reading_eq profile message ranked closed, Graph.resolves_iff.mp missing]
  rfl

theorem gate_of_found {profile : Profile} {graph : Graph} {message : Message} {level : Level}
    (ranked : profile.level = .ok level) (closed : profile.flags message = {}) {id : NodeId}
    (found : graph.Resolves profile.scopes (profile.command message) (some id)) :
    profile.gate graph message =
      ((profile.line message level).admission (profile.command message) message id
        (graph.node id)).mapError fun failure => ⟨profile.command message, failure⟩ := by
  unfold gate admission
  rw [reading_eq profile message ranked closed, Graph.resolves_iff.mp found]
  rfl

theorem gate_of_verdict {profile : Profile} {graph : Graph} {message : Message}
    {result : Except Fault Admission} (verdict : Verdict graph profile message result) :
    profile.gate graph message = result := by
  cases verdict with
  | unwritable level =>
    refine gate_of_unread ?_
    rw [reading, level, error_bind]
  | doubleQuote ranked dangling =>
    refine gate_of_unread ?_
    rw [reading, ranked, ok_bind, Bot.reading]
    exact if_pos dangling
  | singleQuote ranked closed dangling =>
    refine gate_of_unread ?_
    rw [reading, ranked, ok_bind, Bot.reading]
    refine (if_neg ?_).trans (if_pos dangling)
    exact Bool.eq_false_iff.mp closed
  | notFound ranked closed missing => exact gate_of_missing ranked closed missing
  | notExecutable ranked closed found bare =>
    rw [gate_of_found ranked closed found, Reading.admission_of_bare bare]
    rfl
  | permissionDenied ranked closed found handled below =>
    rw [gate_of_found ranked closed found, Reading.admission_of_below handled below]
    rfl
  | unbound ranked closed found handled above failed =>
    rw [gate_of_found ranked closed found, Reading.admission_of_above handled above, failed]
    rfl
  | called ranked closed found handled above bound =>
    rw [gate_of_found ranked closed found, Reading.admission_of_above handled above, bound]
    rfl

/-- Every message has a verdict. -/
theorem exists_verdict (graph : Graph) (profile : Profile) (message : Message) :
    ∃ result, Verdict graph profile message result := by
  cases ranked : profile.level with
  | error failure => exact ⟨_, .unwritable ranked⟩
  | ok level =>
    cases double : (profile.flags message).double with
    | true => exact ⟨_, .doubleQuote ranked double⟩
    | false =>
      cases single : (profile.flags message).single with
      | true => exact ⟨_, .singleQuote ranked double single⟩
      | false =>
        have closed := QuoteFlags.eq_closed double single
        cases target : graph.findScoped? Graph.root (profile.command message) profile.scopes with
        | none => exact ⟨_, .notFound ranked closed (Graph.resolves_iff.mpr target)⟩
        | some id =>
          have found := Graph.resolves_iff.mpr target
          cases handled : (graph.node id).handler with
          | none => exact ⟨_, .notExecutable ranked closed found handled⟩
          | some handler =>
            cases below : level.isBelow (graph.node id).permission with
            | true => exact ⟨_, .permissionDenied ranked closed found handled below⟩
            | false =>
              cases bound : (profile.line message level).arguments message id (graph.node id) with
              | error failure => exact ⟨_, .unbound ranked closed found handled below bound⟩
              | ok arguments => exact ⟨_, .called ranked closed found handled below bound⟩

/-- A message has one verdict, which is what is decided about it. -/
theorem verdict_iff {profile : Profile} {graph : Graph} {message : Message}
    {result : Except Fault Admission} :
    Verdict graph profile message result ↔ profile.gate graph message = result := by
  constructor
  · exact gate_of_verdict
  · rintro rfl
    obtain ⟨result, verdict⟩ := exists_verdict graph profile message
    rw [gate_of_verdict verdict]
    exact verdict

end Profile
end Switchboard
