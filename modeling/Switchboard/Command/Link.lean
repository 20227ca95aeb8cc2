import Switchboard.Command.Prepare

/-!
Putting commands under others and taking them away. A command stands under its name and under each
of its aliases, and all these keys go together.
-/
namespace Switchboard.Graph

/-- Puts `child` under `parent` as `name` and under each of its aliases, preparing it first. -/
def link (parent : NodeId) (name : Label) (child : NodeId) : GraphM Unit := do
  prepare child name
  modify fun g => g.setChild parent name child
  addAliases parent child

/-- Takes away every key of `parent` that stands for `child`. -/
def removeChild (g : Graph) (parent child : NodeId) : Graph :=
  g.update parent fun node =>
    { node with children := node.children.without child }

/-- Takes the command that stands under `parent` as `name` away, under all its keys, and gives its
place. The help stays. -/
def unlink (g : Graph) (parent : NodeId) (name : Label) : Option NodeId × Graph :=
  match (g.node parent).children.get? name with
  | none => (none, g)
  | some child => if name = helpLabel then (none, g) else (some child, g.removeChild parent child)

end Switchboard.Graph
