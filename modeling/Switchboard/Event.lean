import Switchboard.Caller
import Switchboard.Command.Label

/-!
What is written to the log.
-/
namespace Switchboard

/-- How grave an event is. -/
inductive Severity where
  | info
  | warning
  | error
deriving DecidableEq, Repr

def Severity.name : Severity → String
  | .info => "info"
  | .warning => "warning"
  | .error => "error"

/-- An event of the log. -/
inductive Event where
  /-- A line is about to be dispatched. -/
  | lineReceived (caller : CallerId) (text : String)
  /-- A handler reported a failure that it wants in the log. -/
  | failureReported (command : String) (caller : CallerId) (text : String)
  /-- A dispatch failed without the caller's doing. -/
  | dispatchFailed (command : String) (caller : CallerId) (text : String)
  | pluginMissing (plugin : String)
  | pluginLoading (plugin : Document)
  | pluginFailed (plugin : Document) (cause : Failure)
  | pluginLoaded (plugin : Label)
  | pluginUnloaded (plugin : Label)
  /-- The state file holds no document. -/
  | stateUnreadable
  /-- The state file holds a document that is no state. -/
  | stateMalformed
  /-- The state file is of another version. -/
  | stateVersionDiffers (version : Document)

namespace Event

def name : Event → String
  | .lineReceived .. => "commands.run"
  | .failureReported .. => "commands.handled_error"
  | .dispatchFailed .. => "commands.internal_error"
  | .pluginMissing _ => "commands.plugin.not_found"
  | .pluginLoading _ => "commands.plugin.loading"
  | .pluginFailed .. => "commands.plugin.load_failed"
  | .pluginLoaded _ => "commands.plugin.loaded"
  | .pluginUnloaded _ => "commands.plugin.unloaded"
  | .stateUnreadable => "user_state.load_failed"
  | .stateMalformed => "user_state.invalid_state"
  | .stateVersionDiffers _ => "user_state.version_mismatch"

def severity : Event → Severity
  | .lineReceived .. | .pluginLoading _ | .pluginLoaded _ | .pluginUnloaded _ => .info
  | .dispatchFailed .. | .pluginFailed .. => .error
  | _ => .warning

end Event
end Switchboard
