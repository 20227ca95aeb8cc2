import Switchboard.Data.Table
import Switchboard.Failure
import Switchboard.Number.Loose

/-!
The schema that a plugin may have for its settings. Settings are read generously: a number may be
given as a text, and a truth value by any of several words.
-/
namespace Switchboard.Plugin

/-- The types of settings. -/
inductive FieldType where
  | text
  | whole
  | truth
deriving DecidableEq, Repr

/-- One setting of a schema. -/
structure Field where
  name : String
  type : FieldType
  /-- The value of a setting that is not given; without one the setting has to be given. -/
  fallback : Option Document := none

/-- What a plugin says about its settings. -/
inductive Schema where
  /-- Nothing: the settings are taken as they are. -/
  | absent
  /-- Something that is no schema. -/
  | malformed
  | fields (fields : List Field)

def yesWords : List String :=
  ["1", "on", "t", "true", "y", "yes"]

def noWords : List String :=
  ["0", "off", "f", "false", "n", "no"]

/-- The truth value that a word of either kind stands for, in capitals or not. -/
def truthOfText? (s : String) : Option Bool :=
  let word := String.ofList (s.toList.map Char.toLower)
  if word ∈ yesWords then some true
  else if word ∈ noWords then some false
  else none

/-- The truth value that a number stands for. -/
def truthOfInt? (n : Int) : Option Bool :=
  if n = 1 then some true
  else if n = 0 then some false
  else none

/-- Whether a number lies strictly between the ends of the signed words of 64 bits, as a number
given as a double has to. -/
def isInsideWord (n : Int) : Bool :=
  -9223372036854775808 < n && n < 9223372036854775808

namespace FieldType

/-- The value of a setting of this type that a datum gives. -/
def read? (type : FieldType) (d : Document) : Option Document :=
  match type, d with
  | .text, .text s => some (.text s)
  | .whole, .int n => some (.int n)
  | .whole, .bool b => some (.int (if b then 1 else 0))
  | .whole, .real x => (x.toInt?.filter isInsideWord).map .int
  | .whole, .text s => (Loose.whole? s).map .int
  | .truth, .bool b => some (.bool b)
  | .truth, .int n => (truthOfInt? n).map .bool
  | .truth, .real x => (x.toInt?.bind truthOfInt?).map .bool
  | .truth, .text s => (truthOfText? s).map .bool
  | _, _ => none

end FieldType

namespace Field

/-- The value that a setting has among those given. -/
def read (given : Table Document) (field : Field) : Except Failure (String × Document) :=
  let value := match given.get? field.name with
    | some d => field.type.read? d
    | none => field.fallback
  match value with
  | some value => .ok (field.name, value)
  | none => .error .invalidSettings

end Field

namespace Schema

/-- The settings that a plugin of this module works with. Settings that the schema does not know are
left out. -/
def read (schema : Schema) (module : String) (given : Table Document) :
    Except Failure (Table Document) :=
  match schema with
  | .absent => .ok given
  | .malformed => .error (.invalidPlugin (module ++ ": config must be a pydantic model class"))
  | .fields known => known.mapM (Field.read given)

end Schema
end Switchboard.Plugin
