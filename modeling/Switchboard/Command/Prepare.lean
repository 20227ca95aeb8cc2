import Switchboard.Command.Graph
import Switchboard.Rule.Declared

/-!
Preparing commands: reading their rules, putting their help in, and making their sub-commands
answer to their aliases. Every command is prepared once, its sub-commands before its help is put in.
-/
namespace Switchboard.Graph

/-- The rule of an argument, read from its declaration if that is still to be done. -/
def parsedParameter : Parameter → Except Failure Parameter
  | .parsed rule => .ok (.parsed rule)
  | .declared spec => (Rule.parse spec).map .parsed

/-- Marks a command as prepared and gives it its name, unless it has one. -/
def mark (node : Node) (name : Label) : Node :=
  { node with prepared := true, name := if node.name.truthy then node.name else name }

/-- Puts a help under a command's help label, unless the command declares a child of that label. -/
def addHelp (g : Graph) (id : NodeId) (name : Label) : Graph :=
  if (g.node id).children.contains helpLabel then g
  else
    let (help, g) := g.add (helpNode id name)
    g.setChild id helpLabel help

/-- Makes `child` answer to one alias under `parent`. -/
def addAlias (parent child : NodeId) (name : Document) : GraphM Unit := do
  let label ← MonadExcept.ofExcept (Label.ofDocument name)
  modify fun g => g.setChild parent label child

/-- Makes `child` answer to each of its aliases under `parent`, up to one that is no label. -/
def addAliases (parent child : NodeId) : GraphM Unit := do
  ((← get).node child).aliases.forM (addAlias parent child)

/-- Makes the children of a command answer to their aliases, one child after the other. -/
def addChildAliases (id : NodeId) : GraphM Unit := do
  ((← get).node id).children.nodes.forM (addAliases id)

/-- Prepares the command at `id` and all below it. Each level marks a command that was not marked,
so with more fuel than unmarked commands the fuel does not run out. -/
def prepareWithin : Nat → NodeId → Label → GraphM Unit
  | 0, _, _ => pure ()
  | fuel + 1, id, name => do
    if ((← get).node id).prepared then return
    modify fun g => g.update id (mark · name)
    match ((← get).node id).parameters with
    | none => pure ()
    | some parameters =>
      let parsed ← parameters.mapM (parsedParameter ·)
      modify fun g => g.update id fun node => { node with parameters := some parsed }
    for (label, child) in ((← get).node id).children do
      prepareWithin fuel child label
    modify fun g => g.addHelp id name
    addChildAliases id

def pending (g : Graph) : Nat :=
  g.nodes.toList.countP fun node => ! node.prepared

/-- Prepares the command at `id`, declared under `name`, and all commands below it. -/
def prepare (id : NodeId) (name : Label) : GraphM Unit := do
  prepareWithin ((← get).pending + 1) id name

/-- The graph that every bot starts with: the help of help, and a root that knows no command. -/
def start : Graph :=
  let blank : Graph := { nodes := #[helpOfHelpNode, { help := .text "all loaded commands" }] }
  ((prepare root .blank).run blank).2

end Switchboard.Graph
