import Switchboard.Data.Datum

/-!
Argument rules: what a command expects at one place of its argument list.
-/
namespace Switchboard

/-- What an argument is. The first six kinds are taken from the invocation itself, the others are
supplied by the caller. -/
inductive Kind where
  /-- The incoming message. -/
  | message
  /-- The id of the caller. -/
  | caller
  /-- The quotes that the line left open. -/
  | flags
  /-- All tokens of the line. -/
  | tokens
  /-- The command that was called. -/
  | command
  /-- The check of the caller's permission. -/
  | permissionCheck
  /-- A text. -/
  | string
  /-- A truth value. -/
  | boolean
  /-- A number. -/
  | number
  /-- All positional tokens that are left, joined by blanks. -/
  | rest
deriving DecidableEq, Repr

namespace Kind

def all : List Kind :=
  [.message, .caller, .flags, .tokens, .command, .permissionCheck, .string, .boolean, .number,
   .rest]

def tag : Kind → String
  | .message => "$msg"
  | .caller => "$uid"
  | .flags => "$flags"
  | .tokens => "$tokens"
  | .command => "$self"
  | .permissionCheck => "$checkPerm"
  | .string => "str"
  | .boolean => "bool"
  | .number => "num"
  | .rest => "text"

def ofTag? (tag : String) : Option Kind :=
  all.find? fun kind => kind.tag = tag

/-- How the kind itself, not its tag, is shown inside a message. -/
def literal (kind : Kind) : String :=
  let name := match kind with
    | .message => "MESSAGE"
    | .caller => "CALLER"
    | .flags => "FLAGS"
    | .tokens => "TOKENS"
    | .command => "SELF"
    | .permissionCheck => "CHECK_PERM"
    | .string => "STRING"
    | .boolean => "BOOLEAN"
    | .number => "NUMBER"
    | .rest => "TEXT"
  "<ArgType." ++ name ++ ": '" ++ kind.tag ++ "'>"

/-- Whether the argument is taken from the invocation itself. -/
def isContext : Kind → Bool
  | .string | .boolean | .number | .rest => false
  | _ => true

theorem ofTag?_tag (kind : Kind) : ofTag? kind.tag = some kind := by
  cases kind <;> rfl

end Kind

/-- What one argument of a command has to be. The name may be any datum, null standing for none;
only a text can be used to pass the argument by name. -/
structure Rule where
  kind : Kind
  name : Document := .null
  optional : Bool := false
  namedOnly : Bool := false
  positionalOnly : Bool := false
  integer : Bool := false
  permission : Int := 0

namespace Rule

/-- How a rule is named in an error. -/
def label (rule : Rule) : String :=
  "arg (" ++ rule.name.display ++ ": " ++ rule.kind.tag ++ ")"

/-- How a rule is shown inside a message. -/
def literal (rule : Rule) : String :=
  let flag (b : Bool) : String := if b then "True" else "False"
  "ArgumentRule(type=" ++ rule.kind.literal ++ ", name=" ++ rule.name.literal ++
    ", optional=" ++ flag rule.optional ++ ", named_only=" ++ flag rule.namedOnly ++
    ", positional_only=" ++ flag rule.positionalOnly ++ ", integer=" ++ flag rule.integer ++
    ", permission=" ++ toString rule.permission ++ ")"

end Rule
end Switchboard
