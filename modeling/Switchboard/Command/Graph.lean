import Switchboard.Command.Spec

/-!
The command graph: commands at numbered places, each with its sub-commands under one or more keys.
A command may be shared by several parents and may lie on a cycle.
-/
namespace Switchboard

/-- One argument of a command: as it was declared, or as the rule that was read from it. -/
inductive Parameter where
  | declared (spec : Spec)
  | parsed (rule : Rule)

namespace Parameter

/-- The rules in front of the first argument whose rule was never read, and the declaration of that
argument, if there is one. -/
def readRules : List Parameter → List Rule × Option Spec
  | [] => ([], none)
  | .declared spec :: _ => ([], some spec)
  | .parsed rule :: rest =>
    let (rules, unread) := readRules rest
    (rule :: rules, unread)

end Parameter

/-- A command. -/
structure Node where
  name : Label := .blank
  help : Document := .null
  /-- What else the command is known under; of these only labels can be. -/
  aliases : List Document := []
  permission : Int := 0
  /-- The arguments, if the command declares any list of them. -/
  parameters : Option (List Parameter) := none
  handler : Option Handler := none
  children : Children := []
  /-- Whether the rules were read and the help was put in; set when that begins. -/
  prepared : Bool := false

namespace Node

/-- Whether the command can be called. -/
def isExecutable (node : Node) : Bool :=
  node.handler.isSome

/-- The rules of the command. An argument whose rule was never read has none of a rule's fields. -/
def rules (node : Node) : Except Failure (List Rule) :=
  (node.parameters.getD []).mapM fun
    | .parsed rule => .ok rule
    | .declared spec => .error (spec.lacking "type")

end Node

/-- Commands by their places. -/
structure Graph where
  nodes : Array Node

/-- Work on a graph that may fail on the way; what was done before stays done. -/
abbrev GraphM := ExceptT Failure (StateM Graph)

namespace Graph

def size (g : Graph) : Nat :=
  g.nodes.size

/-- The command at a place; a blank command where there is none. -/
def node (g : Graph) (id : NodeId) : Node :=
  (g.nodes[id]?).getD {}

/-- Changes the command at a place. -/
def update (g : Graph) (id : NodeId) (f : Node → Node) : Graph :=
  { nodes := g.nodes.modify id f }

def add (g : Graph) (node : Node) : NodeId × Graph :=
  (g.size, { nodes := g.nodes.push node })

/-- Puts a command under the one at `parent`, known under a label. -/
def setChild (g : Graph) (parent : NodeId) (label : Label) (child : NodeId) : Graph :=
  g.update parent fun node => { node with children := node.children.insert label child }

@[simp] theorem size_update (g : Graph) (id : NodeId) (f : Node → Node) :
    (g.update id f).size = g.size := by
  simp [update, size]

theorem node_update (g : Graph) (id other : NodeId) (f : Node → Node) (bound : id < g.size) :
    (g.update id f).node other = if id = other then f (g.node other) else g.node other := by
  by_cases same : id = other
  · subst same
    have inside : id < g.nodes.size := bound
    simp [update, node, Array.getElem_modify, inside]
  · simp [update, node, Array.getElem?_modify, same]

theorem node_add (g : Graph) (new : Node) (id : NodeId) :
    (g.add new).2.node id = if id = g.size then new else g.node id := by
  by_cases same : id = g.size
  · subst same
    simp [add, node, size]
  · have other : id ≠ g.nodes.size := same
    simp only [add, node, Array.getElem?_push, same, if_false, other]

end Graph

def helpName : String := "?"

def helpLabel : Label := .text helpName

def helpAliases : List String := ["help"]

/-- The name that the root goes by in its help. -/
def rootTitle : String := "(root)"

namespace Graph

/-- The place of the help that describes help. -/
def helpOfHelp : NodeId := 0

/-- The place of the root. -/
def root : NodeId := 1

/-- The children of every help: the help that describes help, under each of its names. -/
def helpChildren : Children :=
  (helpName :: helpAliases).map fun name => (.text name, helpOfHelp)

/-- The help that describes help; it is its own child. -/
def helpOfHelpNode : Node :=
  { name := helpLabel, help := .text "get help", aliases := helpAliases.map .text
    parameters := some [], handler := some .helpOfHelp, children := helpChildren
    prepared := true }

/-- The help of the command at `id`, which was declared under `name`. -/
def helpNode (id : NodeId) (name : Label) : Node :=
  { name := helpLabel
    help := .text ("get help for " ++ if name.truthy then name.display else "the root")
    aliases := helpAliases.map .text, parameters := some [], handler := some (.help id name)
    children := helpChildren, prepared := true }

end Graph
end Switchboard
