import Switchboard.Data.Label

/-!
The children of a command: its sub-commands by the labels that they are known under, in the order in
which the labels were first set. One sub-command may stand under several labels.
-/
namespace Switchboard

abbrev NodeId := Nat

/-- Sub-commands by their labels. -/
abbrev Children := Labelled NodeId

namespace Children

def contains (children : Children) (label : Label) : Bool :=
  (Labelled.get? children label).isSome

/-- The labels in order. -/
def labels (children : Children) : List Label :=
  children.map Prod.fst

/-- The sub-commands in the order of their labels. -/
def nodes (children : Children) : List NodeId :=
  children.map Prod.snd

/-- Takes a sub-command away, under all its labels. -/
def without (children : Children) (child : NodeId) : Children :=
  children.filter fun entry => entry.2 ≠ child

theorem mem_without {children : Children} {child : NodeId} {entry : Label × NodeId} :
    entry ∈ without children child ↔ entry ∈ children ∧ entry.2 ≠ child := by
  simp [without]

end Children
end Switchboard
