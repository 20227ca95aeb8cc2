import Switchboard.Failure

/-!
Data as labels of commands: a list or a table cannot be one.
-/
namespace Switchboard.Label

def document (label : Label) : Document :=
  label.datum

/-- The label that a datum is; a list or a table is none. -/
def ofDocument? : Document → Option Label
  | .null => some .null
  | .bool b => some (.bool b)
  | .int n => some (.int n)
  | .real x => some (.real x)
  | .text s => some (.text s)
  | _ => none

/-- Whether a label names anything. -/
def truthy (label : Label) : Bool :=
  label.document.truthy

/-- How a label is shown on its own. -/
def display (label : Label) : String :=
  label.document.display

@[simp] theorem ofDocument?_document (label : Label) : ofDocument? label.document = some label := by
  cases label <;> rfl

/-- The failure of a list or a table that is used as a label. -/
def unusable (d : Document) : Failure :=
  .mismatch ("unhashable type: '" ++ d.typeName ++ "'")

/-- The label that a datum has to be. -/
def ofDocument (d : Document) : Except Failure Label :=
  match ofDocument? d with
  | some label => .ok label
  | none => .error (unusable d)

end Switchboard.Label
