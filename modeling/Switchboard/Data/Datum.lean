import Switchboard.Data.Label
import Switchboard.Data.Moment
import Switchboard.Data.Table
import Switchboard.Text.Quoted

/-!
Structured data: what a configuration, a state document and a declaration of commands are made of.
A declaration also holds live values, such as handlers; a document holds none.
-/
namespace Switchboard

/-- A tree of data whose leaves may be live values of type `ε`. -/
inductive Datum (ε : Type) where
  | null
  | bool (b : Bool)
  | int (n : Int)
  | real (x : Binary64)
  | text (s : String)
  | moment (m : Moment)
  | list (items : List (Datum ε))
  | table (fields : List (String × Datum ε))
  /-- A table some of whose keys are no texts. -/
  | mapping (entries : List (Label × Datum ε))
  | live (value : ε)

/-- Data without live values. -/
abbrev Document := Datum Empty

/-- How the live values of a type are shown: inside a message, and on their own. -/
class Shown (ε : Type) where
  literal : ε → String
  display : ε → String

instance : Shown Empty := ⟨Empty.elim, Empty.elim⟩

def Label.datum {ε : Type} : Label → Datum ε
  | .null => .null
  | .bool b => .bool b
  | .int n => .int n
  | .real x => .real x
  | .text s => .text s

namespace Datum

variable {ε δ : Type}

instance : Inhabited (Datum ε) := ⟨.null⟩

/-- The table of these entries, of which a later one takes the value of an earlier one for the same
key. -/
def ofEntries (entries : List (Label × Datum ε)) : Datum ε :=
  let entries := Labelled.ofList entries
  match entries.mapM fun (label, value) => label.text?.map fun key => (key, value) with
  | some fields => .table fields
  | none => .mapping entries

/-- The fields of a table. A key that is no text is taken by the name of its field. -/
def fields? : Datum ε → Option (Table (Datum ε))
  | .table fields => some fields
  | .mapping entries => some (entries.map fun (label, value) => (label.fieldName, value))
  | _ => none

/-- The value of a field; nothing in data that is not a table. -/
def field? : Datum ε → String → Option (Datum ε)
  | .table fields, key => Table.get? fields key
  | .mapping entries, key => Labelled.get? entries (.text key)
  | _, _ => none

/-- Data count as false if they are null, false, zero or empty. -/
def truthy : Datum ε → Bool
  | .null => false
  | .bool b => b
  | .int n => n ≠ 0
  | .real x => ! x.isZero
  | .text s => s ≠ ""
  | .moment _ => true
  | .list items => ! items.isEmpty
  | .table fields => ! fields.isEmpty
  | .mapping entries => ! entries.isEmpty
  | .live _ => true

/-- The type of a datum, as messages name it. -/
def typeName : Datum ε → String
  | .null => "NoneType"
  | .bool _ => "bool"
  | .int _ => "int"
  | .real _ => "float"
  | .text _ => "str"
  | .moment m => m.typeName
  | .list _ => "list"
  | .table _ | .mapping _ => "dict"
  | .live _ => "object"

mutual

/-- Puts data in the place of the live values. -/
def substitute (f : ε → Datum δ) : Datum ε → Datum δ
  | .null => .null
  | .bool b => .bool b
  | .int n => .int n
  | .real x => .real x
  | .text s => .text s
  | .moment m => .moment m
  | .list items => .list (substituteItems f items)
  | .table fields => .table (substituteFields f fields)
  | .mapping entries => .mapping (substituteEntries f entries)
  | .live value => f value

def substituteItems (f : ε → Datum δ) : List (Datum ε) → List (Datum δ)
  | [] => []
  | item :: rest => substitute f item :: substituteItems f rest

/-- `substitute` on each value of a table. -/
def substituteFields (f : ε → Datum δ) : List (String × Datum ε) → List (String × Datum δ)
  | [] => []
  | (key, value) :: rest => (key, substitute f value) :: substituteFields f rest

def substituteEntries (f : ε → Datum δ) : List (Label × Datum ε) → List (Label × Datum δ)
  | [] => []
  | (label, value) :: rest => (label, substitute f value) :: substituteEntries f rest

end

/-- How a label is written inside a message. -/
def labelLiteral : Label → String
  | .null => "None"
  | .bool true => "True"
  | .bool false => "False"
  | .int n => toString n
  | .real x => x.text
  | .text s => Text.quoted s

variable [Shown ε]

mutual

/-- How data are written inside a message: texts are quoted, and fields stand in the order in which
they were set. -/
def literal : Datum ε → String
  | .null => "None"
  | .bool true => "True"
  | .bool false => "False"
  | .int n => toString n
  | .real x => x.text
  | .text s => Text.quoted s
  | .moment m => m.literal
  | .list items => "[" ++ ", ".intercalate (literalItems items) ++ "]"
  | .table fields => "\x7b" ++ ", ".intercalate (literalFields fields) ++ "\x7d"
  | .mapping entries => "\x7b" ++ ", ".intercalate (literalEntries entries) ++ "\x7d"
  | .live value => Shown.literal value

def literalItems : List (Datum ε) → List String
  | [] => []
  | item :: rest => literal item :: literalItems rest

/-- `literal` on each field of a table, with its quoted key. -/
def literalFields : List (String × Datum ε) → List String
  | [] => []
  | (key, value) :: rest => (Text.quoted key ++ ": " ++ literal value) :: literalFields rest

/-- `literal` on each value under a label, with the label. -/
def literalEntries : List (Label × Datum ε) → List String
  | [] => []
  | (label, value) :: rest => (labelLiteral label ++ ": " ++ literal value) :: literalEntries rest

end

/-- How data are shown on their own: a text as it is, all else as inside a message. -/
def display : Datum ε → String
  | .text s => s
  | .moment m => m.text
  | .live value => Shown.display value
  | d => literal d

end Datum
end Switchboard
