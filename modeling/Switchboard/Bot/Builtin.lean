import Switchboard.Bot.Script
import Switchboard.Line.Reference

/-!
The commands that every bot has: callers look after their own variables, aliases and scopes, and
after permission levels.
-/
namespace Switchboard.Builtin

/-! ### Declarations -/

/-- The declaration of a command that one of the builtin handlers runs. -/
def command (builtin : Builtin) (help : Option String) (aliases arguments : List String) : Spec :=
  .table [
    ("help", help.elim .null .text),
    ("aliases", .list (aliases.map .text)),
    ("args", .list (arguments.map .text)),
    ("handler", .live (.handler (.builtin builtin)))]

/-- The declaration of a command that only holds others. -/
def group (help : String) (children : List (String × Spec)) : Spec :=
  .table [("help", .text help), ("children", .table children)]

def variableCommands : Spec :=
  group "Variables expanded as $NAME or $\x7bNAME\x7d in your commands." [
    ("set", command .setVariable
      (some ("Set <name> to the rest of the line." ++
        " Put -- before a value that starts with a dash."))
      [] ["$uid", "name:str", "value:text"]),
    ("get", command .showVariables (some "Show one variable, or all of them.") ["ls"]
      ["$uid", "name:str:opt"]),
    ("del", command .removeVariable (some "Remove a variable.") ["rm"] ["$uid", "name:str"])]

def aliasCommands : Spec :=
  group "Replace the first segment of a command name with your own." [
    ("set", command .setAlias (some "Make <alias> stand for <command>.") []
      ["$uid", "alias:str", "command:str"]),
    ("del", command .removeAlias none ["rm"] ["$uid", "alias:str"]),
    ("list", command .listAliases none ["ls"] ["$uid"])]

def scopeCommands : Spec :=
  group "Reach commands under these prefixes without typing them." [
    ("add", command .addScope none [] ["$uid", "prefix:str"]),
    ("del", command .removeScope none ["rm"] ["$uid", "prefix:str"]),
    ("list", command .listScopes none ["ls"] ["$uid"])]

def levelCommands : Spec :=
  group "Show or change permission levels." [
    ("get", command .showLevel (some "Show the level of [caller], defaulting to you.") []
      ["$uid", "caller:str:opt"]),
    ("set", command .setLevel
      (some ("Set the level of <caller>; you need at least that level" ++
        " and at least their current one."))
      [] ["$checkPerm", "caller:str", "level:num:int"])]

def commands : List (String × Spec) := [
  ("my", group "Your own settings." [
    ("env", variableCommands), ("alias", aliasCommands), ("with", scopeCommands)]),
  ("perm", levelCommands)]

/-! ### Handlers -/

/-- A text as what a handler gives back. -/
def said (s : String) : Outcome :=
  .datum (.text s)

/-- A failure that is reported to the caller. -/
def refused (s : String) : Outcome :=
  .failure (.handled s false)

/-- Whether a text can be the name of a variable; one line feed may follow. -/
def isVariableName (name : String) : Bool :=
  Line.isVariableName (Text.dropFinalNewline name.toList)

/-- Whether a text can be an alias: no dots and no blanks, save that one line feed may follow. -/
def isAliasName (name : String) : Bool :=
  let cs := Text.dropFinalNewline name.toList
  ! cs.isEmpty && cs.all fun c => c != '.' && ! Text.isBlank c

def storedVariables (caller : CallerId) : BotM (Table String) := do
  return (← Bot.onStore .getVariables (Store.variables? caller)).getD []

def shownVariable (entry : String × String) : String :=
  entry.1 ++ "=" ++ entry.2

def shownAlias (entry : String × String) : String :=
  entry.1 ++ " -> " ++ entry.2

/-- Whether a name leads to a command. -/
def isKnown (name : String) : BotM Bool := do
  return ((← get).graph.find? Graph.root name).isSome

/-- Shows one variable, or all of them in the order of their names. -/
def answerVariables (caller : CallerId) (name : Option String) : BotM Outcome := do
  let known ← storedVariables caller
  match name with
  | none =>
    if known = [] then return said "no variables set."
    return said ("\n".intercalate (known.sorted.map shownVariable))
  | some name =>
    match known.get? name with
    | none => return said (name ++ " is not set.")
    | some value => return said (shownVariable (name, value))

/-- Sets or removes a variable; what is remembered of the caller's variables is forgotten. -/
def changeVariable (caller : CallerId) (name : String) (value : Option String) : BotM Unit := do
  Bot.onStore .setVariable (Store.setVariable caller name value)
  Bot.forgetVariables caller

def answerLevel (caller : CallerId) : BotM Outcome := do
  if ← MonadExcept.ofExcept ((← get).config.isSuperuser caller) then
    return said (caller.text ++ ": unbounded")
  let level ← Bot.onStore .getLevel (Store.level? caller)
  return said (caller.text ++ ": " ++ toString (level.getD 0))

/-- Sets the level of a caller. Whoever does it needs the level that the caller has and the one that
the caller gets. Level zero is the same as none. -/
def assignLevel (check : Argument) (caller : CallerId) (level : Int) : BotM Outcome := do
  if ← MonadExcept.ofExcept ((← get).config.isSuperuser caller) then
    return refused (caller.text ++ ": superuser levels cannot be changed")
  let held := (← Bot.onStore .getLevel (Store.level? caller)).getD 0
  MonadExcept.ofExcept (check.ask (.value (.int held)) (some "changing this caller"))
  MonadExcept.ofExcept (check.ask (.value (.int level)) (some "granting this level"))
  Bot.onStore .setLevel (Store.setLevel caller (if level = 0 then none else some level))
  return said (caller.text ++ ": " ++ toString level)

/-- Runs a builtin handler with the arguments that its declaration asks for. -/
def run (builtin : Builtin) (arguments : List Argument) : BotM Outcome := do
  match builtin, arguments with
  | .setVariable, [.caller caller, .value (.text name), .value (.text value)] =>
    if ! isVariableName name then return refused ("invalid variable name " ++ Text.quoted name)
    changeVariable caller name (some value)
    return said (shownVariable (name, value))
  | .showVariables, [.caller caller, .value (.text name)] => answerVariables caller (some name)
  | .showVariables, [.caller caller, _] => answerVariables caller none
  | .removeVariable, [.caller caller, .value (.text name)] =>
    changeVariable caller name none
    return said (name ++ " removed.")
  | .setAlias, [.caller caller, .value (.text name), .value (.text target)] =>
    if ! isAliasName name then return refused "alias must be a single name without dots"
    if ! (← isKnown target) then return refused (target ++ ": not found")
    Bot.onStore .setAlias (Store.setAlias caller name (some target))
    return said (shownAlias (name, target))
  | .removeAlias, [.caller caller, .value (.text name)] =>
    Bot.onStore .setAlias (Store.setAlias caller name none)
    return said ("alias " ++ name ++ " removed.")
  | .listAliases, [.caller caller] =>
    let aliases ← Bot.onStore .getAliases (Store.aliases caller)
    if aliases = [] then return said "no aliases."
    return said ("\n".intercalate (aliases.sorted.map shownAlias))
  | .addScope, [.caller caller, .value (.text scope)] =>
    if ! (← isKnown scope) then return refused (scope ++ ": not found")
    let added ← Bot.onStore .addScope (Store.addScope caller scope)
    return said ((if added then "now using " else "already using ") ++ scope ++ ".")
  | .removeScope, [.caller caller, .value (.text scope)] =>
    let removed ← Bot.onStore .removeScope (Store.removeScope caller scope)
    return said ((if removed then "no longer using " else "not using ") ++ scope ++ ".")
  | .listScopes, [.caller caller] =>
    let scopes ← Bot.onStore .getScopes (Store.scopes caller)
    if scopes = [] then return said "no scopes."
    return said (", ".intercalate scopes)
  | .showLevel, [.caller _, .value (.text name)] => answerLevel (.name name)
  | .showLevel, [.caller caller, _] => answerLevel caller
  | .setLevel, [check, .value (.text name), .value (.int level)] =>
    assignLevel check (.name name) level
  | _, _ => throw (.mismatch "wrong arguments")

end Switchboard.Builtin
