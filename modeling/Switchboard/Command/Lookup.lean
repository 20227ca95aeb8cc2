import Switchboard.Command.Graph
import Switchboard.Text.Segment

/-!
Finding commands by dotted names, directly or under one of a caller's scopes.
-/
namespace Switchboard.Graph

/-- Walks from a command along keys, one child after the other. -/
def walk? (g : Graph) : NodeId → List String → Option NodeId
  | id, [] => some id
  | id, key :: keys =>
    match (g.node id).children.get? (.text key) with
    | some child => walk? g child keys
    | none => none

/-- The command that a dotted name leads to from `start`; the empty name leads to `start` itself. -/
def find? (g : Graph) (start : NodeId) (name : String) : Option NodeId :=
  if name = "" then some start else g.walk? start (Text.segments '.' name)

def scopedName (scope name : String) : String :=
  scope ++ "." ++ name

/-- The command that a name leads to under the first scope that knows it. -/
def findUnder? (g : Graph) (start : NodeId) (name : String) (scopes : List String) :
    Option NodeId :=
  scopes.findSome? fun scope => g.find? start (scopedName scope name)

/-- The command that a name leads to directly, or else under the first scope that knows it. -/
def findScoped? (g : Graph) (start : NodeId) (name : String) (scopes : List String) :
    Option NodeId :=
  (g.find? start name).or (g.findUnder? start name scopes)

def keyCount (g : Graph) : Nat :=
  (g.nodes.toList.flatMap Node.children).length

/-- Visits the commands of a stack, each followed by its children; a command that was visited is
passed over. A visited command adds one entry per key, so more fuel than keys and entries is
enough. -/
def visit (g : Graph) : Nat → List NodeId → List NodeId → List NodeId
  | 0, _, visited => visited
  | _, [], visited => visited
  | fuel + 1, id :: stack, visited =>
    if id ∈ visited then visit g fuel stack visited
    else visit g fuel ((g.node id).children.nodes ++ stack) (visited ++ [id])

/-- The commands that can be reached from one, each once: a command stands before what is reached
through it, and children come in the order of their keys. -/
def reachable (g : Graph) (start : NodeId) : List NodeId :=
  g.visit (g.keyCount + 2) [start] []

end Switchboard.Graph
