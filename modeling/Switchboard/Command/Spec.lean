import Switchboard.Command.Children
import Switchboard.Command.Label

/-!
What plugins declare: commands as tables of data, with handlers, finished rules and finished
commands as live values in them.
-/
namespace Switchboard

/-- The level that a script asks the permission check for: a fixed one, or one of its arguments. -/
inductive AskedLevel where
  | fixed (level : Document)
  | argument (index : Nat)

/-- One piece of a text that is put together from the arguments. -/
inductive TextPiece where
  | text (s : String)
  | argument (index : Nat)

/-- How a script makes its result. -/
inductive Recipe where
  | nothing
  | text (s : String)
  | int (n : Int)
  | bool (b : Bool)
  | real (x : Binary64)
  | media (bytes : List UInt8)
  | many (parts : List Recipe)
  | failure (failure : Failure)
  | argument (index : Nat)
  | composed (pieces : List TextPiece)
  | setting (key : String)

/-- A handler that a plugin describes: after it was called it may ask for a permission with one of
its arguments, then it raises a failure or gives a result. -/
structure Script where
  id : Document := .null
  check : Option (Nat × AskedLevel × Option String) := none
  raised : Option Failure := none
  result : Recipe := .text "ok"
  /-- The settings of the plugin that the script belongs to. -/
  settings : Table Document := []

/-- The handlers of the commands that every bot has. -/
inductive Builtin where
  | setVariable
  | showVariables
  | removeVariable
  | setAlias
  | removeAlias
  | listAliases
  | addScope
  | removeScope
  | listScopes
  | showLevel
  | setLevel
deriving DecidableEq, Repr

/-- What runs when a command is called. -/
inductive Handler where
  /-- Describes a command under the name by which it was declared. -/
  | help (node : NodeId) (name : Label)
  /-- Describes the help itself. -/
  | helpOfHelp
  | builtin (builtin : Builtin)
  | script (script : Script)

/-- The live values of a declaration. -/
inductive Live where
  | node (id : NodeId)
  | handler (handler : Handler)
  | rule (rule : Rule)
  | kind (kind : Kind)

/-- A declaration: of a command, or of a part of one. -/
abbrev Spec := Datum Live

namespace Live

/-- How a live value is shown inside a message. -/
def literal : Live → String
  | .node _ => "<command>"
  | .handler _ => "<handler>"
  | .rule r => r.literal
  | .kind k => k.literal

/-- On its own a kind shows its tag. -/
instance : Shown Live where
  literal := literal
  display
    | .kind k => k.tag
    | value => literal value

/-- The datum that a live value stands for: a kind stands for its tag, and no other live value is a
datum. -/
def document : Live → Document
  | .kind k => .text k.tag
  | _ => .null

end Live

namespace Spec

/-- The data of a declaration. -/
def document (spec : Spec) : Document :=
  Datum.substitute Live.document spec

/-- The failure of a declaration that stands where something with this field is needed. -/
def lacking (spec : Spec) (field : String) : Failure :=
  .noAttribute ("'" ++ spec.typeName ++ "' object has no attribute '" ++ field ++ "'")

end Spec
end Switchboard
