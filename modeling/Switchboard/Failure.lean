import Switchboard.Rule.Basic
import Switchboard.Text.Path

/-!
Everything that can go wrong, told apart by its cause, and the text that each failure shows.
-/
namespace Switchboard

/-- A failure by its cause. The first group is the caller's own doing and is shown as it is; what a
handler or a plugin raises by itself carries its text. -/
inductive Failure where
  | notFound
  | notExecutable
  | permissionDenied (level : Document) (reason : Option String)
  | badArgument (rule : Rule) (detail : String)
  | unknownNamed (names : List String)
  | tooManyArguments
  | tooFewArguments
  | unmatchedQuote (mark : String)
  | command (text : String)
  /-- A handler gave nothing to reply. -/
  | emptyReply
  /-- A failure that a handler reports to the caller; it is logged if `logged` says so. -/
  | handled (text : String) (logged : Bool)
  | general (text : String)
  | invalidRule (text : String)
  | invalidPlugin (text : String)
  | invalidConfig (text : String)
  | invalidValue (text : String)
  | runtime (text : String)
  | missingKey (key : Option String)
  | other (text : String)
  | mismatch (text : String)
  | noAttribute (text : String)
  | outOfRange (text : String)
  /-- Bytes that are not the UTF-8 form of any text. -/
  | undecodable
  /-- A plugin source that cannot be read. -/
  | malformedSource
  /-- Settings that do not fit the schema of their plugin. -/
  | invalidSettings
  /-- A directory stands where a file has to be written. -/
  | isDirectory
  /-- A path that leads nowhere. -/
  | unreachable (path : Path) (obstacle : Obstacle)

namespace Failure

/-- The text of a failure; it may be empty. -/
def message : Failure → String
  | .notFound => "not found"
  | .notExecutable => "not executable"
  | .permissionDenied level reason =>
    let why := match reason with
      | none | some "" => ""
      | some reason => " for " ++ reason
    "permission denied" ++ why ++ " (Require " ++ level.display ++ ")"
  | .badArgument rule detail => rule.label ++ ": " ++ detail
  | .unknownNamed names => ", ".intercalate names ++ ": unknown named arg"
  | .tooManyArguments => "too many args"
  | .tooFewArguments => "too few args"
  | .unmatchedQuote mark => "unmatched " ++ mark
  | .emptyReply => "Empty reply"
  | .handled text _ => text
  | .missingKey key => (key.map Text.quoted).getD ""
  | .command text | .general text | .invalidRule text | .invalidPlugin text | .invalidConfig text
  | .invalidValue text | .runtime text | .other text | .mismatch text | .noAttribute text
  | .outOfRange text => text
  | .undecodable => "invalid start byte"
  | .malformedSource => "invalid syntax"
  | .invalidSettings => "invalid settings"
  | .isDirectory => "[Errno 21] Is a directory"
  | .unreachable path obstacle => obstacle.message path

/-- The class that a failure belongs to; it is shown where a failure has no text. -/
def className : Failure → String
  | .notFound => "NotFound"
  | .notExecutable => "NotExecutable"
  | .permissionDenied .. => "PermissionDenied"
  | .badArgument .. => "ArgumentError"
  | .unknownNamed _ => "UnknownNamedArgument"
  | .tooManyArguments => "TooManyArguments"
  | .tooFewArguments => "TooFewArguments"
  | .unmatchedQuote _ => "UnmatchedQuote"
  | .command _ => "CommandError"
  | .emptyReply => "EmptyReply"
  | .handled .. => "HandledError"
  | .general _ => "WillbotError"
  | .invalidRule _ => "RuleError"
  | .invalidPlugin _ => "PluginError"
  | .invalidConfig _ => "ConfigError"
  | .invalidValue _ => "ValueError"
  | .runtime _ => "RuntimeError"
  | .missingKey _ => "KeyError"
  | .other _ => "Exception"
  | .mismatch _ => "TypeError"
  | .noAttribute _ => "AttributeError"
  | .outOfRange _ => "IndexError"
  | .undecodable => "UnicodeDecodeError"
  | .malformedSource => "SyntaxError"
  | .invalidSettings => "ValidationError"
  | .isDirectory => "IsADirectoryError"
  | .unreachable _ .tooLong => "OSError"
  | .unreachable _ .notDirectory => "NotADirectoryError"
  | .unreachable _ .nullCharacter => "ValueError"

/-- A result whose only failure is an obstacle on the path that a text spells. -/
def ofObstacle {α : Type} (s : String) : Except Obstacle α → Except Failure α
  | .ok value => .ok value
  | .error obstacle => .error (.unreachable (Path.ofText s) obstacle)

/-- The text of a failure, or its class if it has no text. -/
def description (failure : Failure) : String :=
  if failure.message = "" then failure.className else failure.message

/-- How a failure that is no doing of the caller is shown to the caller. -/
def internalText (failure : Failure) : String :=
  failure.description ++ " (internal error)"

/-- Whether the caller caused the failure, so that its text is all there is to show. -/
def isCallers : Failure → Bool
  | .notFound | .notExecutable | .permissionDenied .. | .badArgument .. | .unknownNamed _
  | .tooManyArguments | .tooFewArguments | .unmatchedQuote _ | .command _ => true
  | _ => false

end Failure
end Switchboard
