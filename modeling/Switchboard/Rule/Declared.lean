import Switchboard.Command.Spec
import Switchboard.Text.Segment

/-!
Reading argument rules as they are declared: a finished rule, a short text such as
`name:type:flag`, or a table.
-/
namespace Switchboard.Rule

/-- A rule that makes sense: it is not both named-only and positional-only, it has a name unless it
is taken from the invocation, and it is an integer only if it is a number. -/
def checked (rule : Rule) : Except Failure Rule :=
  if rule.namedOnly ∧ rule.positionalOnly then
    .error (.invalidRule (rule.name.display ++ ": named and positional are exclusive"))
  else if ¬ rule.kind.isContext ∧ ¬ rule.name.truthy then
    .error (.invalidRule (rule.kind.tag ++ " argument needs a name"))
  else if rule.integer ∧ rule.kind ≠ .number then
    .error (.invalidRule (rule.name.display ++ ": only num arguments can be integer"))
  else .ok rule

def declaredKind (tag : Spec) : Except Failure Kind :=
  match tag with
  | .live (.kind kind) => .ok kind
  | .text s =>
    match Kind.ofTag? s with
    | some kind => .ok kind
    | none => .error (.invalidRule (s ++ ": unknown arg type"))
  | other => .error (.invalidRule (other.display ++ ": unknown arg type"))

def withFlag (text : String) (rule : Rule) (flag : String) : Except Failure Rule :=
  match Text.cutText '=' flag with
  | ("perm", some level) =>
    match wholeNumber? level with
    | some permission => .ok { rule with permission }
    | none => .error (.invalidRule (Text.quoted text ++ ": perm must be an integer"))
  | ("opt", none) | ("optional", none) => .ok { rule with optional := true }
  | ("named", none) => .ok { rule with namedOnly := true }
  | ("positional", none) => .ok { rule with positionalOnly := true }
  | ("int", none) | ("integer", none) => .ok { rule with integer := true }
  | _ =>
    .error (.invalidRule (Text.quoted text ++ ": unknown flag " ++ Text.quoted flag))

/-- Reads a rule in its short form: a kind of the invocation alone, or a name, a type and flags
between colons. The flags are read before the type. -/
def parseShort (text : String) : Except Failure Rule :=
  match Text.segments ':' text with
  | name :: tag :: flags => do
    let blank : Rule :=
      { kind := .message, name := if name = "" then .null else .text name }
    let flagged ← flags.foldlM (withFlag text) blank
    let kind ← declaredKind (.text tag)
    checked { flagged with kind }
  | _ =>
    if text.toList.head? = some '$' then do
      let kind ← declaredKind (.text text)
      checked { kind }
    else .error (.invalidRule (Text.quoted text ++ ": expected name:type[:flags]"))

def tableKeys : List String :=
  ["type", "ty", "name", "optional", "opt", "named", "positional", "integer", "int", "perm"]

def firstOf (fields : Table Spec) (keys : List String) : Spec :=
  ((keys.filterMap fun key => Table.get? fields key).head?).getD .null

/-- Reads a rule in its long form. `named` set to false forbids passing the value by name. -/
def parseTable (fields : Table Spec) : Except Failure Rule :=
  let shown := (Datum.table fields : Spec).literal
  match fields.keys.filter (· ∉ tableKeys) with
  | [] =>
    match firstOf fields ["type", "ty"] with
    | .null => .error (.invalidRule ("rule " ++ shown ++ " has no type"))
    | tag =>
      match (Table.get? fields "perm").getD (.int 0) with
      | .int permission => do
        let kind ← declaredKind tag
        let (namedOnly, notByName) := match Table.get? fields "named" with
          | some (.bool true) => (true, false)
          | some (.bool false) => (false, true)
          | _ => (false, false)
        checked {
          kind
          name := (firstOf fields ["name"]).document
          optional := (firstOf fields ["optional", "opt"]).truthy
          namedOnly
          positionalOnly := notByName || (firstOf fields ["positional"]).truthy
          integer := (firstOf fields ["integer", "int"]).truthy
          permission }
      | _ => .error (.invalidRule ("rule " ++ shown ++ ": perm must be an integer"))
  | unknown =>
    .error (.invalidRule
      ("unknown rule keys: " ++ ", ".intercalate (List.mergeSort unknown fun a b => a ≤ b)))

/-- Reads a rule in any of its forms. -/
def parse : Spec → Except Failure Rule
  | .live (.rule rule) => .ok rule
  | .text text => parseShort text
  | .table fields => parseTable fields
  | .mapping _ => .error (.mismatch "sequence item 0: expected str instance")
  | other => .error (.invalidRule ("cannot parse argument rule " ++ other.literal))

end Switchboard.Rule
