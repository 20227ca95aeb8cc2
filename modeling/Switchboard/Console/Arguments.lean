import Switchboard.Caller
import Switchboard.Text.Segment

/-!
The command line of the console. Long switches may be shortened as long as they stay unambiguous, a
value may be attached to its switch or follow it, and nothing but switches and their values is
understood.
-/
namespace Switchboard.Console

/-- The switches. -/
inductive Switch where
  | help
  | config
  | caller
  | debug
deriving DecidableEq, Repr

namespace Switch

def takesValue : Switch → Bool
  | .config | .caller => true
  | .help | .debug => false

def ofLetter? : Char → Option Switch
  | 'h' => some .help
  | 'c' => some .config
  | _ => none

def longNames : List (String × Switch) :=
  [("help", .help), ("config", .config), ("caller", .caller), ("debug", .debug)]

/-- The switches whose long names start with these characters; a whole name stands for itself
alone. -/
def ofStart (start : List Char) : List Switch :=
  match longNames.lookup (String.ofList start) with
  | some switch => [switch]
  | none => (longNames.filter fun entry => start.isPrefixOf entry.1.toList).map Prod.snd

end Switch

/-- The value that is given to a switch. -/
inductive Value where
  | text (s : String)
  /-- Two dashes attached to the switch: they are taken away, and no text is left. -/
  | removed
deriving DecidableEq, Repr

def Value.ofAttached (cs : List Char) : Value :=
  if cs = ['-', '-'] then .removed else .text (String.ofList cs)

/-- A switch that is used, with its value if that is attached. -/
structure Use where
  switch : Switch
  value : Option Value := none
deriving DecidableEq, Repr

/-- What one argument is on its own. -/
inductive Word where
  /-- Not a switch. -/
  | plain (s : String)
  /-- A long switch, or a bundle of letters. -/
  | uses (uses : List Use)
  /-- Switches that cannot be used in this way. -/
  | faulty
  /-- A switch that does not exist, or the end of the switches. -/
  | unknown
deriving DecidableEq, Repr

/-- Whether an argument is a minus sign and a number, which makes it no switch. One line feed may
follow. -/
def isNegativeNumber (cs : List Char) : Bool :=
  match Text.dropFinalNewline cs with
  | '-' :: rest =>
    match Text.cut '.' rest with
    | (whole, none) => ! whole.isEmpty && whole.all Text.isDecimalDigit
    | (whole, some decimals) =>
      whole.all Text.isDecimalDigit && ! decimals.isEmpty && decimals.all Text.isDecimalDigit
  | _ => false

/-- An argument that starts with a dash but names no switch. A number, and a text with a blank in
it, can still be a value. -/
def wordOfOther (s : String) : Word :=
  if isNegativeNumber s.toList ∨ ' ' ∈ s.toList then .plain s else .unknown

def wordOfLong (switch : Switch) (attached : Option (List Char)) : Word :=
  if attached.isSome ∧ ¬ switch.takesValue then .faulty
  else .uses [{ switch, value := attached.map Value.ofAttached }]

/-- The switches that a letter and what is written behind it stand for. What is written behind a
switch with a value is the value; else it is further letters, all of which have to be known. -/
def unbundle? (switch : Switch) (behind : List Char) : Option (List Use) :=
  match behind with
  | [] => some [{ switch }]
  | letter :: rest =>
    if switch.takesValue then some [{ switch, value := some (.ofAttached behind) }]
    else
      match Switch.ofLetter? letter with
      | none => none
      | some next => (unbundle? next rest).map fun uses => { switch } :: uses

/-- The switches of a word of letters. An equals sign right behind the first letter only sets off
what follows, which may be an empty value but not an empty row of letters. -/
def usesOfLetters? (switch : Switch) (behind : List Char) : Option (List Use) :=
  match behind with
  | ['='] =>
    if switch.takesValue then some [{ switch, value := some (.text "") }] else none
  | '=' :: rest => unbundle? switch rest
  | behind => unbundle? switch behind

/-- What one argument is on its own; nothing if it could be several switches. -/
def word? (s : String) : Option Word :=
  match s.toList with
  | '-' :: '-' :: rest =>
    let (start, attached) := Text.cut '=' rest
    match Switch.ofStart start with
    | [] => some (wordOfOther s)
    | [switch] => some (wordOfLong switch attached)
    | _ => none
  | '-' :: letter :: rest =>
    match Switch.ofLetter? letter with
    | none => some (wordOfOther s)
    | some switch => some ((usesOfLetters? switch rest).elim .faulty .uses)
  | _ => some (.plain s)

/-- The words of a command line. What follows two dashes is plain. -/
def words? : List String → Option (List Word)
  | [] => some []
  | s :: rest =>
    if s = "--" then some (.unknown :: rest.map .plain)
    else do return (← word? s) :: (← words? rest)

/-- What the command line sets. -/
structure Options where
  config : Value := .text "willbot.toml"
  caller : Value := .text "0"
  debug : Bool := false
deriving DecidableEq, Repr

namespace Options

def set (options : Options) (use : Use) : Options :=
  match use.switch, use.value with
  | .config, some value => { options with config := value }
  | .caller, some value => { options with caller := value }
  | .debug, _ => { options with debug := true }
  | _, _ => options

/-- The path of the configuration. -/
def configText (options : Options) : Except Failure String :=
  match options.config with
  | .text s => .ok s
  | .removed => .error (.mismatch "expected str, bytes or os.PathLike object, not list")

def callerId (options : Options) : Except Failure CallerId :=
  match options.caller with
  | .text s => CallerId.ofText s
  | .removed => .error (.noAttribute "'list' object has no attribute 'lstrip'")

/-- What a session starts from: the path of the configuration and the id of the caller. -/
def start (options : Options) : Except Failure (String × CallerId) := do
  let path ← options.configText
  let caller ← options.callerId
  return (path, caller)

end Options

/-- What a command line asks for. -/
inductive Request where
  | session (options : Options)
  /-- The usage. -/
  | help
  /-- Nothing that is understood. -/
  | misuse
deriving DecidableEq, Repr

/-- Whether a word lacks the value of its last switch. -/
def lacksValue (uses : List Use) : Bool :=
  match uses.getLast? with
  | some { switch, value := none } => switch.takesValue
  | _ => false

/-- Gives a value to the last switch of a word. -/
def withValue (uses : List Use) (value : String) : List Use :=
  uses.dropLast ++ (uses.getLast?.map fun use => { use with value := some (.text value) }).toList

/-- Reads words one after the other. Help is given as soon as it is asked for; a word that is no
switch spoils the command line only if no word after it asks for help. -/
def readWords (options : Options) (spoiled : Bool) : List Word → Request
  | [] => if spoiled then .misuse else .session options
  | .plain _ :: rest | .unknown :: rest => readWords options true rest
  | .faulty :: _ => .misuse
  | .uses uses :: rest =>
    if lacksValue uses then
      match rest with
      | .plain value :: rest =>
        if uses.any (·.switch = .help) then .help
        else readWords ((withValue uses value).foldl Options.set options) spoiled rest
      | _ => .misuse
    else if uses.any (·.switch = .help) then .help
    else readWords (uses.foldl Options.set options) spoiled rest

/-- What a command line asks for. -/
def Request.ofArguments (arguments : List String) : Request :=
  match words? arguments with
  | some words => readWords {} false words
  | none => .misuse

end Switchboard.Console
