import Switchboard.Console.Session

/-!
The console program. It reads the files that a session is started from, dispatches the lines of the
standard input one by one, and keeps the state file in step with the store.
-/
namespace Switchboard.Console

/-- How the program is called. -/
def usage : String :=
  "usage: switchboard [-h] [-c CONFIG] [--caller CALLER] [--debug]"

def readContent (path : Path) : IO (Option Content) := do
  if path.hasNull then return some (.barred .nullCharacter)
  try
    return some (.ofBytes (← IO.FS.readBinFile path.text))
  catch
    | .noFileOrDirectory .. => return none
    | .inappropriateType _ 20 _ => return some (.barred .notDirectory)
    | .invalidArgument _ 36 _ => return some (.barred .tooLong)
    | _ => return some .directory

/-- The text of a file, empty if there is none. -/
def readText (path : String) : IO String := do
  match ← readContent (Path.ofText path) with
  | some (.text s) => return s
  | _ => return ""

/-- The number of the user in what the system tells about a process. -/
def userNumber? (status : String) : Option String :=
  (Text.segments '\n' status).findSome? fun line =>
    match Text.segments '\t' line with
    | "Uid:" :: number :: _ => some number
    | _ => none

def readEnvironment : IO Environment := do
  let bindings := Environment.bindingsOfText (← readText "/proc/self/environ")
  let accounts := Account.listOfText (← readText "/etc/passwd")
  return Environment.ofAccounts bindings accounts (userNumber? (← readText "/proc/self/status"))

/-- The plugins in a directory, if there is one. -/
def readPlugins (path : Path) : IO (Except Obstacle (Option Plugin.Directory)) := do
  match ← readContent (path.join (Path.ofText Plugin.Directory.manifestFile)) with
  | some (.text s) => return .ok (Plugin.Directory.ofText? s)
  | some (.barred obstacle) => return .error obstacle
  | _ => return .ok none

/-- The state file after another look at its path. Only other content is news. -/
def lookAgain (file : StateFile) : IO StateFile := do
  let content ← readContent file.path
  if content = file.content then return file
  match content with
  | some content => return file.replace content
  | none => return file.remove

/-- Writes the state file, by way of a file beside it. -/
def writeState (file : StateFile) (text : String) : IO Unit := do
  let draft := (file.draft (toString (10000000 + (← IO.rand 0 89999999)))).text
  IO.FS.createDirAll file.path.parent.text
  IO.FS.writeFile draft text
  IO.FS.rename draft file.path.text

/-- Prints the notes about what a bot logged, and clears its log. -/
def tellEvents (bot : Bot) : IO Bot := do
  bot.log.forM fun event => IO.eprintln (note event)
  return { bot with log := [] }

/-- Dispatches lines until the input ends. -/
partial def converse (caller : CallerId) (bot : Bot) : IO Unit := do
  let line ← (← IO.getStdin).getLine
  if line.isEmpty then return
  let file ← lookAgain bot.store.file
  let store := { bot.store with file }
  let (printed, bot) :=
    answer caller { bot with store } (String.ofList (Text.dropFinalNewline line.toList))
  if bot.store.file.content ≠ file.content then
    if let some text := bot.store.file.text? then writeState file text
  let bot ← tellEvents bot
  IO.print printed
  (← IO.getStdout).flush
  converse caller bot

/-- Starts a session from the files that the command line names. -/
def openSession (options : Options) : IO (Except Failure (CallerId × Bot)) := do
  let env ← readEnvironment
  match options.start with
  | .error failure => return .error failure
  | .ok (configText, caller) =>
    match Failure.ofObstacle configText (env.path configText) with
    | .error failure => return .error failure
    | .ok path =>
    match Config.ofFile env path (← readContent path) with
    | .error failure => return .error failure
    | .ok config =>
      let statePath := config.statePath.getD (path.withName Config.stateFileName)
      let file ← lookAgain { path := statePath }
      let place ← match config.pluginsDir with
        | some directory => readPlugins directory
        | none => pure (.ok none)
      return (start config file place).map fun bot => (caller, bot)

/-- Runs a session and gives the exit code. -/
def runSession (options : Options) : IO UInt32 := do
  match ← openSession options with
  | .error failure =>
    let (told, code) := refusal failure
    IO.eprint told
    return code
  | .ok (caller, bot) =>
    converse caller (← tellEvents bot)
    return 0

end Switchboard.Console

open Switchboard.Console in
/-- The program. -/
def main (arguments : List String) : IO UInt32 := do
  match Request.ofArguments arguments with
  | .session options => runSession options
  | .help =>
    IO.println usage
    return 0
  | .misuse =>
    IO.eprintln usage
    return 2
