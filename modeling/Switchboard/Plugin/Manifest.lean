import Switchboard.Command.Build

/-!
Reading the parts of a plugin that are described rather than programmed: the failures that it raises
and the scripts that handle its commands.
-/
namespace Switchboard

namespace Failure

/-- The item in one place of a list of arguments; null if there is none. -/
def argumentAt (arguments : List Document) (index : Nat) : Document :=
  (arguments[index]?).getD .null

/-- The text of a datum; null has none. -/
def optionalText (d : Document) : Option String :=
  match d with
  | .null => none
  | d => some d.display

def namesOf (d : Document) : List String :=
  match d with
  | .list names => names.map Datum.display
  | .text s => s.toList.map String.singleton
  | _ => []

/-- The failure that a list describes: its class and the arguments that it is made from. -/
def ofDocument (d : Document) : Failure :=
  match d with
  | .list (.text className :: arguments) =>
    let first := argumentAt arguments 0
    let second := argumentAt arguments 1
    let text := (optionalText first).getD ""
    match className with
    | "HandledError" => .handled text second.truthy
    | "PermissionDenied" => .permissionDenied first (optionalText second)
    | "UnmatchedQuote" => .unmatchedQuote text
    | "UnknownNamedArgument" => .unknownNamed (namesOf first)
    | "NotFound" => .notFound
    | "NotExecutable" => .notExecutable
    | "TooManyArguments" => .tooManyArguments
    | "TooFewArguments" => .tooFewArguments
    | "EmptyReply" => .emptyReply
    | "CommandError" => .command text
    | "WillbotError" => .general text
    | "ConfigError" => .invalidConfig text
    | "RuleError" => .invalidRule text
    | "PluginError" => .invalidPlugin text
    | "ValueError" => .invalidValue text
    | "RuntimeError" => .runtime text
    | "KeyError" => .missingKey (optionalText first)
    | _ => .other text
  | _ => .other ""

end Failure

namespace Recipe

/-- The bytes that pairs of hexadecimal digits stand for. -/
def bytesOfHex : List Char → List UInt8
  | a :: b :: rest =>
    let value (c : Char) : Nat :=
      if '0' ≤ c ∧ c ≤ '9' then c.toNat - '0'.toNat
      else if 'a' ≤ c ∧ c ≤ 'f' then c.toNat - 'a'.toNat + 10
      else c.toNat - 'A'.toNat + 10
    UInt8.ofNat (value a * 16 + value b) :: bytesOfHex rest
  | _ => []

/-- The double that a text names: a numeral, in which underscores may stand, or the name of an
infinity or of the value that is no number. -/
def realOfText (s : String) : Binary64 :=
  let cs := (Text.trimWhiteSpace s.toList).filter (· ≠ '_')
  match Numeral.signed? cs with
  | some numeral => .ofNumeral numeral
  | none =>
    let (negative, name) := readSign cs
    if String.ofList (name.map Char.toLower) ∈ ["inf", "infinity"] then .infinity negative else .nan

/-- One piece of a composed text: a text, or the place of an argument. -/
def pieceOf : Document → TextPiece
  | .int n => .argument n.toNat
  | d => .text d.display

mutual

/-- The recipe that a table describes by its only field. -/
def ofDocument : Document → Recipe
  | .table [("str", .text s)] => .text s
  | .table [("int", .int n)] => .int n
  | .table [("bool", .bool b)] => .bool b
  | .table [("float", .text s)] => .real (realOfText s)
  | .table [("bytes", .text s)] | .table [("bytearray", .text s)] => .media (bytesOfHex s.toList)
  | .table [("list", .list items)] | .table [("tuple", .list items)] => .many (ofItems items)
  | .table [("exc", d)] => .failure (Failure.ofDocument d)
  | .table [("arg", .int n)] => .argument n.toNat
  | .table [("fmt", .list pieces)] => .composed (pieces.map pieceOf)
  | .table [("cfg", key)] => .setting key.display
  | _ => .nothing

def ofItems : List Document → List Recipe
  | [] => []
  | item :: rest => ofDocument item :: ofItems rest

end

end Recipe

namespace Script

/-- The permission that a script asks for: the place of the check among its arguments, the level and
the reason. -/
def checkOf : Document → Option (Nat × AskedLevel × Option String)
  | .list (.int index :: level :: reason) =>
    let asked := match level with
      | .table [("arg", .int n)] => .argument n.toNat
      | d => .fixed d
    let why := match reason with
      | d :: _ => if d.truthy then some d.display else none
      | [] => none
    some (index.toNat, asked, why)
  | _ => none

/-- The script that a table describes, for a plugin with these settings. -/
def ofTable (settings : Table Document) (fields : Table Document) : Script where
  id := (fields.get? "id").getD .null
  check := (fields.get? "check").bind checkOf
  raised := match fields.get? "raise" with
    | none | some .null => none
    | some d => some (Failure.ofDocument d)
  result := match fields.get? "ret" with
    | none => .text "ok"
    | some d => Recipe.ofDocument d
  settings

end Script

namespace Spec

mutual

/-- A declaration with scripts in the place of the tables that describe its handlers, also in its
sub-commands. -/
def withScripts (settings : Table Document) : Spec → Spec
  | .table fields => .table (withScriptsIn settings fields)
  | spec => spec

/-- `withScripts` on the fields of one command. -/
def withScriptsIn (settings : Table Document) : List (String × Spec) → List (String × Spec)
  | [] => []
  | (key, value) :: rest =>
    let read :=
      if key ∈ Graph.handlerKeys then
        match Spec.document value with
        | .table fields => .live (.handler (.script (Script.ofTable settings fields)))
        | _ => value
      else if key ∈ Graph.childKeys then
        match value with
        | .table children => .table (withScriptsBelow settings children)
        | .mapping children => .mapping (withScriptsUnder settings children)
        | _ => value
      else value
    (key, read) :: withScriptsIn settings rest

/-- `withScripts` on each of the sub-commands. -/
def withScriptsBelow (settings : Table Document) : List (String × Spec) → List (String × Spec)
  | [] => []
  | (key, child) :: rest => (key, withScripts settings child) :: withScriptsBelow settings rest

/-- `withScripts` on each of the sub-commands under labels. -/
def withScriptsUnder (settings : Table Document) : List (Label × Spec) → List (Label × Spec)
  | [] => []
  | (label, child) :: rest => (label, withScripts settings child) :: withScriptsUnder settings rest

end

end Spec
end Switchboard
