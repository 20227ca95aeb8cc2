import Switchboard.Data.Toml.Value

/-!
Reading a TOML document statement by statement: fields, headers of tables, and headers of arrays of
tables. A table is opened once, and a finished value is never changed.
-/
namespace Switchboard.Toml

/-- A document that is being read. -/
structure Draft where
  fields : Table Document := []
  /-- The table that the fields after the last header belong to. -/
  header : KeyPath := []
  /-- The tables that a header or a dotted key opened: no header opens them again. -/
  opened : List KeyPath := []
  /-- Tables that dotted keys opened since the last header; they become `opened` with the next. -/
  pending : List KeyPath := []
  /-- Arrays and inline tables: nothing is put below them. -/
  frozen : List KeyPath := []

namespace Draft

/-- What every header does first. -/
def atHeader (draft : Draft) : Draft :=
  { draft with opened := draft.pending ++ draft.opened, pending := [] }

def openTable (draft : Draft) (path : KeyPath) : Option Draft :=
  if path ∈ draft.opened ∨ isBelow draft.frozen path then none
  else
    (alter true path some draft.fields).map fun fields =>
      { draft with fields, header := path, opened := path :: draft.opened }

/-- Adds a table at the end of the array under a key; there may be no array yet. -/
def appendTable (key : String) (t : Table Document) : Option (Table Document) :=
  match t.get? key with
  | none => some (t.insert key (.list [.table []]))
  | some (.list items) => some (t.insert key (.list (items ++ [.table []])))
  | some _ => none

/-- Opens a further table of an array of tables by its header; what was opened in the table before
it can be opened again. -/
def openItem (draft : Draft) (path : KeyPath) : Option Draft :=
  if isBelow draft.frozen path then none
  else
    let outside (p : KeyPath) : Bool := ! path.isPrefixOf p
    (alter true (pathTo path) (appendTable (lastKey path)) draft.fields).map fun fields =>
      { draft with
        fields, header := path
        opened := path :: draft.opened.filter outside
        frozen := draft.frozen.filter outside }

/-- The proper beginnings of a path, without the empty one. -/
def properPrefixes (path : KeyPath) : List KeyPath :=
  (List.range path.length).tail.map path.take

/-- Sets the field that a path leads to from the last header. -/
def setField (draft : Draft) (path : KeyPath) (value : Document) : Option Draft :=
  let through := (properPrefixes path).map (draft.header ++ ·)
  let whole := draft.header ++ path
  if through.any (· ∈ draft.opened) ∨ isBelow draft.frozen (pathTo whole) then none
  else
    (alter true (pathTo whole) (setNew (lastKey whole) value) draft.fields).map fun fields =>
      { draft with
        fields
        pending := through ++ draft.pending
        frozen := if isContainer value then whole :: draft.frozen else draft.frozen }

end Draft

/-- A draft that a statement leads to, with what follows the statement. -/
def drafted (draft : Option Draft) (after : List Char) : Reading Draft :=
  .ofOption (draft.map fun draft => (draft, after))

/-- Reads a header or a field that starts a statement. -/
def readStatement (draft : Draft) (cs : List Char) : Reading Draft :=
  match cs with
  | '[' :: '[' :: rest =>
    match readKey (skipSpace rest) with
    | some (path, ']' :: ']' :: after) => drafted (draft.atHeader.openItem path) after
    | _ => .error .malformed
  | '[' :: rest =>
    match readKey (skipSpace rest) with
    | some (path, ']' :: after) => drafted (draft.atHeader.openTable path) after
    | _ => .error .malformed
  | _ =>
    match readKey cs with
    | some (path, '=' :: rest) =>
      match readValue (rest.length + 1) (skipSpace rest) with
      | .error fault => .error fault
      | .ok (value, after) => drafted (draft.setField path value) after
    | _ => .error .malformed

/-- What follows a statement on its line: blanks and a comment. The result starts with the line feed
or is empty. -/
def endOfLine? (cs : List Char) : Option (List Char) :=
  match skipSpace cs with
  | '#' :: rest =>
    if (rest.takeWhile (· ≠ '\n')).any isControl then none else some (rest.dropWhile (· ≠ '\n'))
  | [] => some []
  | '\n' :: rest => some ('\n' :: rest)
  | _ => none

/-- Reads statements up to the end of the text, with `fuel` lines left. -/
def readStatements : Nat → Draft → List Char → Except Fault Draft
  | 0, _, _ => .error .malformed
  | fuel + 1, draft, cs =>
    match skipSpace cs with
    | [] => .ok draft
    | '\n' :: rest => readStatements fuel draft rest
    | '#' :: rest =>
      match endOfLine? ('#' :: rest) with
      | some after => readStatements fuel draft after
      | none => .error .malformed
    | body =>
      match readStatement draft body with
      | .error fault => .error fault
      | .ok (draft, rest) =>
        match endOfLine? rest with
        | some after => readStatements fuel draft after
        | none => .error .malformed

/-- Removes the carriage returns in front of line feeds. -/
def joinNewlines : List Char → List Char
  | [] => []
  | '\r' :: '\n' :: rest => '\n' :: joinNewlines rest
  | c :: rest => c :: joinNewlines rest

/-- The table that a whole text describes; of several faults the first one counts. Every statement
and every line takes a character, so twice the length of the text is fuel enough. -/
def parse (s : String) : Except Fault (Table Document) :=
  let cs := joinNewlines s.toList
  (readStatements (2 * cs.length + 1) {} cs).map Draft.fields

end Switchboard.Toml
