import Switchboard.Data.Json.Reader
import Switchboard.Plugin.Manifest
import Switchboard.Plugin.Schema
import Switchboard.Text.Path

/-!
Plugins: files of a directory, each of which sets up one command.
-/
namespace Switchboard.Plugin

/-- What happens when a plugin is set up. -/
inductive Setup where
  /-- The plugin cannot be set up. -/
  | missing
  | fails (cause : Failure)
  /-- The plugin declares a command. -/
  | declares (spec : Spec)

/-- The module in a plugin file. -/
structure Module where
  /-- Why the module cannot be read, if it cannot. -/
  broken : Option Failure := none
  /-- The name that the module gives itself. -/
  name : Document := .null
  schema : Schema := .absent
  setup : Setup := .missing

/-- What a name in the directory of plugins stands for. -/
inductive Source where
  | directory
  | module (module : Module)

/-- The directory of plugins, by file names. -/
abbrev Directory := Table Source

def fileSuffix : String := ".py"

/-- The name of a plugin file without its ending. Files of other endings and those whose names start
with an underscore are no plugins. -/
def stem? (file : String) : Option String :=
  if file.toList.head? = some '_' ∨ ¬ fileSuffix.toList.isSuffixOf file.toList then none
  else
    match file.toList.take (file.length - fileSuffix.length) with
    | [] => none
    | cs => some (String.ofList cs)

namespace Directory

/-- The directory that was found at a path. A path that is too long cannot be looked for; at the end
of any other path that leads nowhere there is no directory. -/
def found (path : Path) : Except Obstacle (Option Directory) → Except Failure (Option Directory)
  | .ok directory => .ok directory
  | .error .tooLong => .error (.unreachable path .tooLong)
  | .error _ => .ok none

/-- The plugins of a directory by their stems, in the order of the file names. -/
def plugins (directory : Directory) : Table Module :=
  (Table.sorted directory).filterMap fun
    | (file, .module found) => (stem? file).map fun stem => (stem, found)
    | (_, .directory) => none

end Directory

namespace Module

/-- The name of a plugin: the one that it gives itself, or the stem of its file. -/
def title (module : Module) (stem : String) : Document :=
  if module.name.truthy then module.name else .text stem

end Module

/-! ### Reading manifests -/

namespace FieldType

/-- The type of a setting by its tag. -/
def ofTag? : String → Option FieldType
  | "str" => some .text
  | "int" => some .whole
  | "bool" => some .truth
  | _ => none

end FieldType

namespace Field

/-- The setting that a list describes: its name, its type, and a list of its fallback. -/
def ofDocument? : Document → Option Field
  | .list (.text name :: .text tag :: rest) =>
    (FieldType.ofTag? tag).map fun type =>
      let fallback := match rest with
        | .list (value :: _) :: _ => some value
        | _ => none
      { name, type, fallback }
  | _ => none

end Field

namespace Schema

/-- The schema of some settings; of several with one name the last one counts. -/
def ofFields (known : List Field) : Schema :=
  .fields ((Table.ofList (known.map fun field => (field.name, field))).map Prod.snd)

/-- The schema that a datum describes. -/
def ofDocument : Document → Schema
  | .null => .absent
  | .list items =>
    match items.mapM Field.ofDocument? with
    | some known => ofFields known
    | none => .malformed
  | _ => .malformed

end Schema

namespace Module

/-- The module that a table describes, with what happens when it is set up. -/
def ofTable (fields : Table Document) (setup : Setup) : Module where
  broken := match fields.get? "import_error" with
    | none | some .null => none
    | some d => some (Failure.ofDocument d)
  name := (fields.get? "name").getD .null
  schema := Schema.ofDocument ((fields.get? "schema").getD .null)
  setup

/-- The setup that a datum describes, with its declaration read by `declare`. -/
def setupOf (declare : Document → Except Failure Spec) (d : Document) : Setup :=
  match d.field? "raise", d.field? "spec" with
  | some cause, _ => .fails (Failure.ofDocument cause)
  | none, some spec =>
    match declare spec with
    | .ok spec => .declares spec
    | .error cause => .fails cause
  | none, none => .missing

def ofManifest (fields : Table Document) : Module :=
  ofTable fields
    (setupOf (fun d => .ok (Datum.substitute Empty.elim d)) ((fields.get? "setup").getD .null))

end Module

namespace Directory

/-- The file of a directory that holds the manifests of its plugins. -/
def manifestFile : String := "plugins.json"

/-- The directory whose manifests a text holds: a table in JSON from file names to modules. -/
def ofText? (s : String) : Option Directory :=
  match Json.parse? s with
  | some (.table files) =>
    some <| files.map fun
      | (file, .table fields) => (file, .module (Module.ofManifest fields))
      | (file, _) => (file, .module { broken := some .malformedSource })
  | _ => none

end Directory
end Switchboard.Plugin
