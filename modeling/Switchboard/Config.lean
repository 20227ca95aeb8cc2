import Switchboard.Caller
import Switchboard.Data.Toml.Reader
import Switchboard.Store.File
import Switchboard.Text.Blank
import Switchboard.Text.Path

/-!
The configuration: who is a superuser, where plugins and the state file are, which plugins are
loaded at the start, and the settings of each plugin. It is read from a document, which a TOML file
holds.
-/
namespace Switchboard

/-- A choice among the plugins that there are. -/
inductive Selection where
  /-- All those whose names match a pattern. -/
  | pattern (glob : String)
  /-- The listed ones, in this order. -/
  | names (names : List String)
deriving DecidableEq, Repr

/-- The configuration of a bot. -/
structure Config where
  /-- What stands in front of every error text. -/
  errorPrefix : String := ""
  pluginsDir : Option Path := none
  plugins : Selection := .pattern "*"
  superusers : List CallerId := [.number 0]
  statePath : Option Path := none
  /-- The settings of the plugins by the plugins' names. -/
  settings : Table (Table Document) := []

namespace Config

/-- Whether a caller is a superuser. Ids are compared by their texts, so all of them have to be
written. -/
def isSuperuser (config : Config) (caller : CallerId) : Except Failure Bool := do
  let text ← caller.written
  return (← config.superusers.mapM CallerId.written).contains text

/-- The settings of a plugin, empty if there are none. -/
def settingsFor (config : Config) (plugin : String) : Table Document :=
  (config.settings.get? plugin).getD []

/-! ### Reading a document -/

/-- The table under a key; one that is missing is empty. -/
def tableAt (fields : Table Document) (key : String) : Except Failure (Table Document) :=
  match fields.get? key with
  | none => .ok []
  | some d =>
    match d.fields? with
    | some t => .ok t
    | none => .error (.invalidConfig (key ++ " must be a table"))

/-- The path in a field that is called `title` in errors, seen from `base` if it is relative. -/
def pathAt? (env : Environment) (base : Path) (title : String) (value : Option Document) :
    Except Failure (Option Path) :=
  match value with
  | none => .ok none
  | some (.text s) =>
    if Text.strip s = "" then .error (.invalidConfig (title ++ " must be a non-empty string"))
    else do
      let path ← Failure.ofObstacle s (env.path (Text.strip s))
      return some (base.join path)
  | some _ => .error (.invalidConfig (title ++ " must be a non-empty string"))

def errorPrefixOf : Option Document → Except Failure String
  | none => .ok ""
  | some (.text s) => .ok s
  | some _ => .error (.invalidConfig "commands.error-prefix must be a string")

def pluginNameOf : Document → Except Failure String
  | .text s => if s = "" then .error malformed else .ok s
  | _ => .error malformed
where
  malformed : Failure := .invalidConfig "commands.plugins must list plugin names"

/-- The choice of plugins in a field. -/
def selectionOf : Option Document → Except Failure Selection
  | none => .ok (.pattern "*")
  | some (.text glob) => .ok (.pattern glob)
  | some (.list names) => return .names (← names.mapM pluginNameOf)
  | some _ => .error (.invalidConfig "commands.plugins must be a glob or a list of names")

/-- A caller id in the list of superusers. -/
def superuserOf? : Document → Option CallerId
  | .int n => some (.number n)
  | .text s => some (.name s)
  | _ => none

/-- The superusers in a field, each once. -/
def superusersOf : Option Document → Except Failure (List CallerId)
  | none => .ok [.number 0]
  | some (.list ids) =>
    match ids.mapM superuserOf? with
    | some callers => .ok callers.eraseDups
    | none => .error malformed
  | some _ => .error malformed
where
  malformed : Failure := .invalidConfig "commands.superusers must be a list of caller ids"

/-- The settings of one plugin. -/
def sectionOf (entry : String × Document) : Except Failure (String × Table Document) :=
  match entry.2.fields? with
  | some given => .ok (entry.1, given)
  | none => .error (.invalidConfig ("plugins." ++ entry.1 ++ " must be a table"))

/-- The configuration that a document describes; its relative paths are seen from `base`. Fields
that have no meaning are passed over. -/
def ofDocument (env : Environment) (base : Path) (d : Document) : Except Failure Config :=
  match d.fields? with
  | some fields => do
    let commands ← tableAt fields "commands"
    let errorPrefix ← errorPrefixOf (commands.get? "error-prefix")
    let pluginsDir ← pathAt? env base "commands.plugins-dir" (commands.get? "plugins-dir")
    let plugins ← selectionOf (commands.get? "plugins")
    let superusers ← superusersOf (commands.get? "superusers")
    let statePath ← pathAt? env base "commands.state-path" (commands.get? "state-path")
    let settings ← (← tableAt fields "plugins").mapM sectionOf
    return { errorPrefix, pluginsDir, plugins, superusers, statePath, settings }
  | none => .error (.noAttribute ("'" ++ d.typeName ++ "' object has no attribute 'get'"))

/-! ### Reading a file -/

/-- The name of the state file if the configuration names none. -/
def stateFileName : String := "willbot_state.json"

/-- The failure of a configuration file that cannot be read. -/
def unreadable (path : Path) (cause : String) : Failure :=
  .invalidConfig ("cannot read config " ++ path.text ++ ": " ++ cause)

/-- The configuration in the text of the file at `path`. Relative paths are seen from the directory
of the file, and that is also where the state file is unless the configuration says otherwise. -/
def ofText (env : Environment) (path : Path) (s : String) : Except Failure Config :=
  match Toml.parse (String.ofList (Text.unifyNewlines s.toList)) with
  | .error .malformed => .error (.invalidConfig ("invalid TOML in " ++ path.text))
  | .error (.tooLong digits) => .error (.invalidValue (WholeFault.lengthMessage digits))
  | .ok fields => do
    let config ← ofDocument env path.parent (.table fields)
    return { config with statePath := config.statePath.or (path.withName stateFileName) }

/-- The configuration in the file at `path`, which has this content. -/
def ofFile (env : Environment) (path : Path) (content : Option Content) :
    Except Failure Config :=
  match content with
  | none => .error (unreadable path (path.systemMessage 2 "No such file or directory"))
  | some .directory => .error (unreadable path (path.systemMessage 21 "Is a directory"))
  | some (.barred .nullCharacter) => .error (.unreachable path .nullCharacter)
  | some (.barred obstacle) => .error (unreadable path (obstacle.message path))
  | some .undecodable => .error .undecodable
  | some (.text s) => ofText env path s

end Config
end Switchboard
