import Switchboard.Failure
import Switchboard.Number.Numeral

/-!
Data as they are written out on their own. Data that hold a whole number of too many digits cannot
be written.
-/
namespace Switchboard

/-- The failure of a whole number that has too many digits to be written. -/
def Failure.overlong : Failure :=
  .invalidValue (WholeFault.limitMessage "")

namespace Datum

mutual

/-- Whether every whole number in a document can be written. -/
def isWritable : Document → Bool
  | .int n => hasWritableDigits n
  | .list items => itemsWritable items
  | .table fields => fieldsWritable fields
  | .mapping entries => entriesWritable entries
  | _ => true

def itemsWritable : List Document → Bool
  | [] => true
  | item :: rest => isWritable item && itemsWritable rest

/-- `isWritable` on each value of a table. -/
def fieldsWritable : List (String × Document) → Bool
  | [] => true
  | (_, value) :: rest => isWritable value && fieldsWritable rest

/-- `isWritable` on each value under a label. -/
def entriesWritable : List (Label × Document) → Bool
  | [] => true
  | (_, value) :: rest => isWritable value && entriesWritable rest

end

/-- A document as it is shown on its own, if it can be written. -/
def written (d : Document) : Except Failure String :=
  if isWritable d then .ok d.display else .error .overlong

@[simp] theorem written_text (s : String) : written (.text s) = .ok s := by
  simp [written, isWritable, display]

end Datum
end Switchboard
