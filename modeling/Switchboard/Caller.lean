import Switchboard.Data.Written

/-!
Callers: their ids and their permission levels.
-/
namespace Switchboard

/-- The id of a caller. A number and the text of the same number are different ids. -/
inductive CallerId where
  | number (n : Int)
  | name (s : String)
deriving DecidableEq, Repr

namespace CallerId

def text : CallerId → String
  | .number n => toString n
  | .name s => s

/-- The id as a datum. -/
def document : CallerId → Document
  | .number n => .int n
  | .name s => .text s

/-- The text of an id, if it can be written. -/
def written (id : CallerId) : Except Failure String :=
  id.document.written

theorem text_of_written {id : CallerId} {s : String} (written : id.written = .ok s) :
    id.text = s := by
  unfold CallerId.written Datum.written at written
  split at written
  · obtain rfl := Except.ok.inj written
    cases id <;> rfl
  · cases written

/-- The number of characters of a quoted text that are told about it. -/
def quotationLength : Nat := 200

/-- What is said about a text that looks like a number and spells none. -/
def numberMessage (s : String) : WholeFault → String
  | .malformed =>
    "invalid literal for int() with base 10: " ++
      String.ofList ((Text.quoted s).toList.take quotationLength)
  | .tooLong digits => WholeFault.lengthMessage digits

/-- The id that a text spells: a number if all that follows its minus signs are digits, else the
text itself. Marked digits, a second minus sign and too many digits spell no number and are
refused. -/
def ofText (s : String) : Except Failure CallerId :=
  let digits := s.toList.dropWhile (· = '-')
  if digits ≠ [] ∧ digits.all Text.isDigitMark then
    match readWholeNumber s with
    | .ok n => .ok (.number n)
    | .error fault => .error (.invalidValue (numberMessage s fault))
  else .ok (.name s)

end CallerId

/-- A permission level: a number, or the level of a superuser, which has no bound. -/
inductive Level where
  | finite (n : Int)
  | unbounded
deriving DecidableEq, Repr

namespace Level

def isBelow : Level → Int → Bool
  | .finite n, required => n < required
  | .unbounded, _ => false

def document : Level → Document
  | .finite n => .int n
  | .unbounded => .real (.infinity false)

/-- Whether the level is below a number that is given as a datum; nothing if the datum is no
number. -/
def isBelowDatum? : Level → Document → Option Bool
  | level, .int n => some (level.isBelow n)
  | level, .bool b => some (level.isBelow (if b then 1 else 0))
  | .finite n, .real x => some (Binary64.intLess n x)
  | .unbounded, .real _ => some false
  | _, _ => none

/-- The type of the number that the level is, as messages name it. -/
def typeName : Level → String
  | .finite _ => "int"
  | .unbounded => "float"

end Level

end Switchboard
