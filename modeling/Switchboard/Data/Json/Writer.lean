import Switchboard.Data.Datum

/-!
Documents as JSON text: two blanks per level, fields in ascending order of their keys, and ASCII
characters only, so that a character beyond the basic plane is written as a pair of surrogates.
-/
namespace Switchboard.Json

/-- An escape of four hexadecimal digits. -/
def unitEscape (n : Nat) : List Char :=
  '\\' :: 'u' :: Text.hexText 4 n

/-- One character between quotes. -/
def encodeChar (c : Char) : List Char :=
  if c = '"' ∨ c = '\\' then ['\\', c]
  else if c = '\n' then ['\\', 'n']
  else if c = '\r' then ['\\', 'r']
  else if c = '\t' then ['\\', 't']
  else if c = '\x0c' then ['\\', 'f']
  else if c = '\x08' then ['\\', 'b']
  else if 0x20 ≤ c.toNat ∧ c.toNat < 0x7F then [c]
  else if c.toNat < 0x10000 then unitEscape c.toNat
  else
    let offset := c.toNat - 0x10000
    unitEscape (0xD800 + offset / 0x400) ++ unitEscape (0xDC00 + offset % 0x400)

/-- A text between quotes. -/
def encodeText (s : String) : List Char :=
  '"' :: s.toList.flatMap encodeChar ++ ['"']

/-- A number; the infinities and the value that is no number have names. -/
def encodeReal : Binary64 → List Char
  | .infinity negative => (if negative then "-Infinity" else "Infinity").toList
  | .nan => "NaN".toList
  | x => x.text.toList

/-- A line break and the blanks in front of a line at `depth`. -/
def newLine (depth : Nat) : List Char :=
  '\n' :: List.replicate (2 * depth) ' '

mutual

/-- The document with the fields of all its tables in ascending order, and with texts for keys. -/
def sortFields : Document → Document
  | .list items => .list (sortFieldsOfItems items)
  | .table fields => .table (Table.sorted (sortFieldsOfValues fields))
  | .mapping entries => .table (Table.sorted (sortFieldsOfEntries entries))
  | d => d

def sortFieldsOfItems : List Document → List Document
  | [] => []
  | item :: rest => sortFields item :: sortFieldsOfItems rest

/-- `sortFields` on each value of a table. -/
def sortFieldsOfValues : List (String × Document) → List (String × Document)
  | [] => []
  | (key, value) :: rest => (key, sortFields value) :: sortFieldsOfValues rest

/-- `sortFields` on each value under a label, which becomes the name of a field. -/
def sortFieldsOfEntries : List (Label × Document) → List (String × Document)
  | [] => []
  | (label, value) :: rest => (label.fieldName, sortFields value) :: sortFieldsOfEntries rest

end

mutual

/-- A document that starts on a line at `depth`, its fields in the order in which they stand. -/
def write (depth : Nat) : Document → List Char
  | .null => "null".toList
  | .bool true => "true".toList
  | .bool false => "false".toList
  | .int n => (toString n).toList
  | .real x => encodeReal x
  | .text s => encodeText s
  | .moment m => encodeText m.text
  | .list [] => ['[', ']']
  | .list (item :: rest) =>
    '[' :: newLine (depth + 1) ++ write (depth + 1) item ++ writeItems (depth + 1) rest ++
      newLine depth ++ [']']
  | .table [] => ['{', '}']
  | .table ((key, value) :: rest) =>
    '{' :: newLine (depth + 1) ++ encodeText key ++ [':', ' '] ++ write (depth + 1) value ++
      writeFields (depth + 1) rest ++ newLine depth ++ ['}']
  | .mapping [] => ['{', '}']
  | .mapping ((label, value) :: rest) =>
    '{' :: newLine (depth + 1) ++ encodeText label.fieldName ++ [':', ' '] ++
      write (depth + 1) value ++ writeEntries (depth + 1) rest ++ newLine depth ++ ['}']

/-- The items after the first one, each after a comma. -/
def writeItems (depth : Nat) : List Document → List Char
  | [] => []
  | item :: rest => ',' :: newLine depth ++ write depth item ++ writeItems depth rest

/-- The fields after the first one, each after a comma. -/
def writeFields (depth : Nat) : List (String × Document) → List Char
  | [] => []
  | (key, value) :: rest =>
    ',' :: newLine depth ++ encodeText key ++ [':', ' '] ++ write depth value ++
      writeFields depth rest

/-- The entries after the first one, each after a comma. -/
def writeEntries (depth : Nat) : List (Label × Document) → List Char
  | [] => []
  | (label, value) :: rest =>
    ',' :: newLine depth ++ encodeText label.fieldName ++ [':', ' '] ++ write depth value ++
      writeEntries depth rest

end

def render (d : Document) : String :=
  String.ofList (write 0 (sortFields d))

end Switchboard.Json
