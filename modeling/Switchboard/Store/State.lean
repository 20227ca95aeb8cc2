import Switchboard.Data.Json.Reader
import Switchboard.Data.Json.Writer
import Switchboard.Event
import Switchboard.Store.File

/-!
The state that the store keeps, as a document: a version and a table of users. Whatever else a
loaded document holds about the users is kept.
-/
namespace Switchboard

/-- The state of the store. -/
structure State where
  version : Document := .int 1
  /-- A table from the keys of callers to their entries, unless a foreign document says otherwise.
  -/
  users : Document := .table []

namespace State

/-- Whether a document is the number one, which is the version of the states that are understood. -/
def isCurrentVersion : Document → Bool
  | .int n => n == 1
  | .bool b => b
  | .real x => x.toInt? == some 1
  | _ => false

/-- The state that a document describes, or the reason why it describes none. -/
def ofDocument (d : Document) : Except Event State :=
  match d with
  | .table fields =>
    let version := (Table.get? fields "version").getD .null
    if ¬ isCurrentVersion version then .error (.stateVersionDiffers version)
    else if (Table.keys fields).any fun key => key ≠ "version" ∧ key ≠ "users" then
      .error .stateMalformed
    else .ok { version, users := (Table.get? fields "users").getD (.table []) }
  | _ => .error .stateMalformed

/-- The state that the content of the file describes, or the reason why it describes none. -/
def ofContent (content : Content) : Except Event State :=
  match content with
  | .text s =>
    match Json.parse? s with
    | some d => ofDocument d
    | none => .error .stateUnreadable
  | .undecodable | .directory | .barred _ => .error .stateUnreadable

def document (state : State) : Document :=
  .table [("version", state.version), ("users", state.users)]

/-- The text that a state is saved as. -/
def render (state : State) : String :=
  Json.render state.document

end State
end Switchboard
