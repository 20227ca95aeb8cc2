import Switchboard.Failure
import Switchboard.Text.Blank

/-!
Turning what a caller supplies into the value that a rule asks for.
-/
namespace Switchboard.Rule

def reject {α : Type} (rule : Rule) (detail : String) : Except Failure α :=
  .error (.badArgument rule detail)

def minInteger : Int := -2147483648

def integerBound : Int := 2147483648

def admitsInteger (x : Binary64) : Bool :=
  match x.toInt? with
  | some n => minInteger ≤ n && n < integerBound
  | none => false

/-- A double as a datum: the integer that it equals, if it is one. -/
def numberDatum (x : Binary64) : Document :=
  match x.toInt? with
  | some n => .int n
  | none => .real x

/-- Reads a number in plain decimal form, blanks around it allowed. -/
def coerceNumber (rule : Rule) (raw : Document) : Except Failure Document :=
  match raw with
  | .bool _ => rule.reject "not a number"
  | _ =>
    match Numeral.signed? (Text.trim raw.display.toList) with
    | none => rule.reject "not a number"
    | some numeral =>
      let x := Binary64.ofNumeral numeral
      if rule.integer ∧ ¬ admitsInteger x then rule.reject "not an integer"
      else .ok (numberDatum x)

/-- Reads a truth value. -/
def coerceBoolean (rule : Rule) (raw : Document) : Except Failure Document :=
  match raw with
  | .bool b => .ok (.bool b)
  | .text "true" => .ok (.bool true)
  | .text "false" => .ok (.bool false)
  | _ => rule.reject "not a boolean (true or false)"

/-- Takes any value as a text. -/
def coerceString (raw : Document) : Document :=
  match raw with
  | .bool true => .text "true"
  | .bool false => .text "false"
  | _ => .text raw.display

/-- The value that a rule makes of what the caller supplied. -/
def coerce (rule : Rule) (raw : Document) : Except Failure Document :=
  match rule.kind with
  | .number => rule.coerceNumber raw
  | .boolean => rule.coerceBoolean raw
  | .string => .ok (coerceString raw)
  | kind => .error (.invalidRule (kind.tag ++ ": not a value type"))

end Switchboard.Rule
