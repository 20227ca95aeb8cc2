import Switchboard.Binding
import Switchboard.Bot.Builtin
import Switchboard.Command.Help
import Switchboard.Line.Option
import Switchboard.Line.Token

/-!
Dispatching a line: it is split into tokens, the first of them is taken for a command, the others
are bound to its arguments, and what its handler gives back is delivered. A failure on the way
becomes a reply that names the command as far as it was known.
-/
namespace Switchboard.Bot

/-- A failure together with the name of the command as it was known then. -/
structure Fault where
  command : String
  failure : Failure

abbrev DispatchM := ExceptT Fault (StateM Bot)

/-- Work whose failures name the command in this way. -/
def under {α : Type} (command : String) (work : BotM α) : DispatchM α :=
  ExceptT.adapt (fun failure => { command, failure }) work

/-- Reports a failure that a handler means for its caller. -/
def report (command : String) (message : Message) (text : String) (logged : Bool) : BotM Unit := do
  if logged then record (.failureReported command message.caller text)
  replyError message text

/-- Puts a failure into the log that is not the caller's doing. -/
def recordFailure (command : String) (message : Message) (failure : Failure) : BotM Unit :=
  record (.dispatchFailed command message.caller failure.description)

/-- What a handler gives back for some arguments. -/
def outcomeOf (handler : Handler) (arguments : List Argument) : BotM Outcome := do
  match handler with
  | .help id name =>
    let text ← MonadExcept.ofExcept (Graph.describe ((← get).graph.node id) name)
    return .datum (.text text)
  | .helpOfHelp => return .datum (.text Graph.helpOfHelpText)
  | .builtin builtin => builtin.run arguments
  | .script script => script.run arguments

/-- Delivers parts of a reply one by one, up to one that cannot be written. -/
def deliverAll (message : Message) (segments : List (Except Failure Segment)) : BotM Unit :=
  segments.forM fun segment => do
    deliver message (← MonadExcept.ofExcept segment)

/-- Delivers what a handler gave back. A failure that it gave back is reported; giving back nothing
is a failure of its own. -/
def deliverOutcome (command : String) (message : Message) (outcome : Outcome) : BotM Unit :=
  match outcome with
  | .failure (.handled text logged) => report command message text logged
  | outcome =>
    match outcome.segments with
    | [] => throw .emptyReply
    | segments => deliverAll message segments

/-- What a failure of a handler passes as. Denied permissions and reported failures pass as they
are; any other failure is logged and passes as an internal error. -/
def passOn (command : String) (message : Message) (failure : Failure) : BotM Unit :=
  match failure with
  | .permissionDenied .. | .handled .. => throw failure
  | _ => do
    recordFailure command message failure
    throw (.command failure.internalText)

/-- Does the work of a handler and delivers what it gives back. -/
def conclude (command : String) (message : Message) (work : BotM Outcome) : BotM Unit :=
  tryCatch (do deliverOutcome command message (← work)) (passOn command message)

/-- What a line says after its caller's variables were put in. -/
structure Reading where
  tokens : List String
  flags : QuoteFlags
  level : Level

/-- What a line says to a caller with these variables and this level. A line without tokens asks for
help; a quote that is left open is a failure. -/
def reading (known : Table String) (level : Level) (text : String) : Except Failure Reading :=
  let (tokens, flags) := Line.tokenize known text
  if flags.double then .error (.unmatchedQuote "\"")
  else if flags.single then .error (.unmatchedQuote "'")
  else .ok { tokens := if tokens = [] then [helpName] else tokens, flags, level }

/-- A name with another first part, if there is one to take its place. -/
def withHead (name : String) (head? : Option String) : String :=
  match head? with
  | none => name
  | some head => head ++ ((Text.cutText '.' name).2.elim "" ("." ++ ·))

end Bot

/-- What a dispatch relies on: the tables of callers, and what the handlers do. -/
structure Services extends CallerTables where
  handle : Handler → List Argument → BotM Outcome

/-- The handler that a line leads to, under the name that its command was found by, and the
arguments that the line has for it. -/
structure Admission where
  command : String
  handler : Handler
  arguments : List Argument

namespace Bot.Reading

def arguments (reading : Reading) (message : Message) (id : NodeId) (node : Node) :
    Except Failure (List Argument) :=
  let invocation : Invocation :=
    { message, caller := message.caller, flags := reading.flags, tokens := reading.tokens
      node := some id, level := reading.level }
  let (positional, named) := Line.splitOptions reading.tokens.tail
  Binding.bindParameters invocation (node.parameters.getD []) positional named

/-- What a line has for the command at `id`: the handler with the arguments that are bound for it,
if the caller may call it. -/
def admission (reading : Reading) (command : String) (message : Message) (id : NodeId)
    (node : Node) : Except Failure Admission :=
  match node.handler with
  | none => .error .notExecutable
  | some handler =>
    if reading.level.isBelow node.permission then
      .error (.permissionDenied (.int node.permission) none)
    else do
      return { command, handler, arguments := ← reading.arguments message id node }

end Bot.Reading

namespace CallerTables

open Switchboard.Bot

def readLine (tables : CallerTables) (caller : CallerId) (text : String) : BotM Reading := do
  let known ← tables.variablesOf caller
  let level ← tables.levelOf caller
  MonadExcept.ofExcept (reading known level text)

/-- The name of a command after its first part was looked up among the caller's aliases. -/
def resolveAlias (tables : CallerTables) (caller : CallerId) (name : String) : BotM String := do
  return withHead name (← tables.alias? caller (Text.cutText '.' name).1)

/-- Finds a command and what a line has for it. -/
def admission (tables : CallerTables) (command : String) (message : Message) (reading : Reading) :
    BotM Admission := do
  match ← tables.find? command message.caller with
  | none => throw .notFound
  | some id => MonadExcept.ofExcept (reading.admission command message id ((← get).graph.node id))

/-- Everything about a line that is decided before a handler is called. -/
def gate (tables : CallerTables) (message : Message) (text : String) : DispatchM Admission := do
  let reading ← under (Text.firstWord text) (tables.readLine message.caller text)
  let requested := reading.tokens.headD helpName
  let command ← under requested (tables.resolveAlias message.caller requested)
  under command (tables.admission command message reading)

end CallerTables

namespace Bot

/-- Replies to a caller whose line failed. -/
def settle (message : Message) (fault : Fault) : BotM Unit := do
  match fault.failure with
  | .permissionDenied .. | .unmatchedQuote _ => replyError message fault.failure.message
  | .handled text logged => report fault.command message text logged
  | failure =>
    if failure.isCallers then
      replyError message (fault.command ++ ": " ++ failure.message)
    else
      recordFailure fault.command message failure
      replyError message (fault.command ++ ": " ++ failure.internalText)

/-- The line of a message: its text without leading blanks, or the help if nothing is left. -/
def lineOf (text : String) : String :=
  let line := Text.stripLeft text
  if line = "" then helpName else line

end Bot

namespace Services

open Switchboard.Bot

def dispatch (services : Services) (message : Message) (text : String) : DispatchM Unit := do
  let admission ← services.gate message text
  under admission.command
    (conclude admission.command message (services.handle admission.handler admission.arguments))

/-- Runs a message. Only a reply that tells of a failure and cannot be delivered is a failure. -/
def run (services : Services) (message : Message) : BotM Unit := do
  let text := lineOf message.text
  record (.lineReceived message.caller text)
  let (result, bot) := (services.dispatch message text).run (← get)
  set bot
  match result with
  | .ok () => return ()
  | .error fault => settle message fault

end Services

namespace Bot

/-- The store, with handlers of which those of the builtin commands are what they always are. -/
def servicesWith (others : Handler → List Argument → BotM Outcome) : Services where
  toCallerTables := storedTables
  handle
    | .builtin builtin, arguments => builtin.run arguments
    | handler, arguments => others handler arguments

/-- What a bot relies on by itself. -/
def services : Services :=
  servicesWith outcomeOf

def run (message : Message) : BotM Unit :=
  services.run message

def withBuiltins (bot : Bot) : Bot :=
  (Builtin.commands.forM fun (name, spec) => discard (register (.text name) spec)).run bot |>.2

end Switchboard.Bot
