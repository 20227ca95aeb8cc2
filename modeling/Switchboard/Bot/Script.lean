import Switchboard.Bot.Basic

/-!
Running the scripts that handle the commands of plugins.
-/
namespace Switchboard

namespace Argument

/-- The datum that an argument is, if it is one. -/
def datum? : Argument → Option Document
  | .value d => some d
  | .caller id => some id.document
  | _ => none

/-- Asks a permission check whether its caller's level reaches `level`. Only a permission check can
be asked, and only for a number. -/
def ask (check level : Argument) (reason : Option String) : Except Failure Unit :=
  match check with
  | .permissionCheck held =>
    match level.datum?, level.datum?.bind held.isBelowDatum? with
    | some required, some true => .error (.permissionDenied required reason)
    | _, some false => .ok ()
    | _, _ =>
      .error (.mismatch ("'<' not supported between instances of '" ++ held.typeName ++ "' and '" ++
        level.typeName ++ "'"))
  | other => .error (.mismatch ("'" ++ other.typeName ++ "' object is not callable"))

/-- The argument in one place of an argument list. -/
def at? (arguments : List Argument) (index : Nat) : Except Failure Argument :=
  match arguments[index]? with
  | some argument => .ok argument
  | none => .error (.outOfRange "tuple index out of range")

end Argument

namespace TextPiece

/-- The text of a piece. -/
def fill (arguments : List Argument) : TextPiece → Except Failure String
  | .text s => .ok s
  | .argument index => (Argument.at? arguments index).map Argument.display

end TextPiece

namespace Recipe

mutual

/-- What a recipe makes of the arguments and the settings. -/
def make (settings : Table Document) (arguments : List Argument) :
    Recipe → Except Failure Outcome
  | .nothing => .ok (.datum .null)
  | .text s => .ok (.datum (.text s))
  | .int n => .ok (.datum (.int n))
  | .bool b => .ok (.datum (.bool b))
  | .real x => .ok (.datum (.real x))
  | .media bytes => .ok (.media bytes)
  | .many parts => (makeAll settings arguments parts).map .many
  | .failure cause => .ok (.failure cause)
  | .argument index => (Argument.at? arguments index).map Argument.outcome
  | .composed pieces => do
    return .datum (.text (String.join (← pieces.mapM (TextPiece.fill arguments))))
  | .setting key =>
    match settings.get? key with
    | some value => .ok (.datum value)
    | none => .error (.missingKey (some key))

/-- `make` on each of several recipes; the first failure counts. -/
def makeAll (settings : Table Document) (arguments : List Argument) :
    List Recipe → Except Failure (List Outcome)
  | [] => .ok []
  | part :: rest => do
    let made ← make settings arguments part
    return made :: (← makeAll settings arguments rest)

end

end Recipe

namespace Script

/-- What a script gives back for some arguments: it asks for a permission, fails or makes its
result, in this order. -/
def outcome (script : Script) (arguments : List Argument) : Except Failure Outcome := do
  match script.check with
  | none => pure ()
  | some (index, level, reason) =>
    let check ← Argument.at? arguments index
    let level ← match level with
      | .fixed d => .ok (.value d)
      | .argument place => Argument.at? arguments place
    check.ask level reason
  match script.raised with
  | some cause => throw cause
  | none => script.result.make script.settings arguments

/-- Runs a script; the call is recorded before anything else. -/
def run (script : Script) (arguments : List Argument) : BotM Outcome := do
  modify fun bot => { bot with calls := bot.calls ++ [{ id := script.id, arguments }] }
  MonadExcept.ofExcept (script.outcome arguments)

end Script
end Switchboard
