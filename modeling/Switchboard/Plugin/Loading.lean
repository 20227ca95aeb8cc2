import Switchboard.Bot.Basic
import Switchboard.Plugin.Basic
import Switchboard.Text.Glob

/-!
Loading plugins into a bot and taking them out again. A plugin that cannot be loaded is logged and
passed over.
-/
namespace Switchboard.Plugin

/-- The chosen ones among the plugins of a directory. Listed names that are no plugins are logged.
-/
def select (available : Table Module) : Selection → BotM (Table Module)
  | .pattern glob => return available.filter fun entry => Text.globMatches glob entry.1
  | .names names =>
    names.filterMapM fun stem => do
      match available.get? stem with
      | some found => return some (stem, found)
      | none =>
        Bot.record (.pluginMissing stem)
        return none

/-- The settings that the configuration has for the plugin of a name; only a text names any. -/
def settingsFor (config : Config) : Label → Table Document
  | .text name => config.settingsFor name
  | _ => []

/-- Sets up a plugin: its name is checked, then its settings, and the command that it declares is
built and prepared. -/
def setUp (title : Document) (stem : String) (module : Module) : BotM (Label × NodeId) := do
  Bot.record (.pluginLoading title)
  let settled : BotM (Label × Table Document) := do
    let name ← MonadExcept.ofExcept (Label.ofDocument title)
    let given := settingsFor (← get).config name
    return (name, ← MonadExcept.ofExcept (module.schema.read ("willbot_plugin_" ++ stem) given))
  match module.setup with
  | .missing => throw (.invalidPlugin (title.display ++ ": plugin has no setup(bot, config)"))
  | .fails cause =>
    discard settled
    throw cause
  | .declares spec =>
    let (name, settings) ← settled
    Bot.onGraph do
      let id ← Graph.build name (spec.withScripts settings)
      Graph.prepare id name
      return (name, id)

/-- Puts a command that is prepared under the root, in the place of one of the same name. -/
def install (name : Label) (id : NodeId) : BotM Unit :=
  Bot.onGraph do
    modify fun g => (g.unlink Graph.root name).2
    Graph.link Graph.root name id

/-- Loads one plugin and gives its name, unless that fails. -/
def loadOne (entry : String × Module) : BotM (Option Label) := do
  let (stem, module) := entry
  match module.broken with
  | some cause =>
    Bot.record (.pluginFailed (.text stem) cause)
    return none
  | none =>
    let title := module.title stem
    let ready? ← tryCatch (some <$> setUp title stem module) fun cause => do
      Bot.record (.pluginFailed title cause)
      return none
    match ready? with
    | none => return none
    | some (name, id) =>
      install name id
      Bot.record (.pluginLoaded name)
      return some name

/-- The plugins in the directory that the configuration names, which may be missing. -/
def available (config : Config) (directory : Option Directory) : Except Failure (Table Module) :=
  match config.pluginsDir, directory with
  | none, _ => .error (.invalidConfig "commands.plugins-dir is not configured")
  | some path, none => .error (.invalidConfig ("plugin directory not found: " ++ path.text))
  | some _, some directory => .ok directory.plugins

/-- Loads the chosen plugins and gives the names of those that could be loaded. -/
def load (directory : Option Directory) (selection : Selection) : BotM (List Label) := do
  let modules ← MonadExcept.ofExcept (available (← get).config directory)
  (← select modules selection).filterMapM loadOne

/-- Takes a command out. The result says whether there was one. -/
def unload (name : Label) : BotM Bool := do
  let removed ← Bot.onGraph (modifyGet fun g => g.unlink Graph.root name)
  if removed.isNone then return false
  Bot.record (.pluginUnloaded name)
  return true

end Switchboard.Plugin
