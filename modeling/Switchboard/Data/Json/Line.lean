import Switchboard.Data.Json.Writer

/-!
Documents as JSON text on one line, without any blanks and with the fields as they stand.
-/
namespace Switchboard.Json

mutual

/-- A document without blanks. -/
def line : Document → List Char
  | .null => "null".toList
  | .bool true => "true".toList
  | .bool false => "false".toList
  | .int n => (toString n).toList
  | .real x => encodeReal x
  | .text s => encodeText s
  | .moment m => encodeText m.text
  | .list items => '[' :: lineOfItems items ++ [']']
  | .table fields => '\x7b' :: lineOfFields fields ++ ['\x7d']
  | .mapping entries => '\x7b' :: lineOfEntries entries ++ ['\x7d']

/-- Items with commas between them. -/
def lineOfItems : List Document → List Char
  | [] => []
  | [item] => line item
  | item :: rest => line item ++ ',' :: lineOfItems rest

/-- Fields with commas between them. -/
def lineOfFields : List (String × Document) → List Char
  | [] => []
  | [(key, value)] => encodeText key ++ ':' :: line value
  | (key, value) :: rest => encodeText key ++ ':' :: line value ++ ',' :: lineOfFields rest

/-- Entries with commas between them; their labels become the names of fields. -/
def lineOfEntries : List (Label × Document) → List Char
  | [] => []
  | [(label, value)] => encodeText label.fieldName ++ ':' :: line value
  | (label, value) :: rest =>
    encodeText label.fieldName ++ ':' :: line value ++ ',' :: lineOfEntries rest

end

def renderLine (d : Document) : String :=
  String.ofList (line d)

end Switchboard.Json
