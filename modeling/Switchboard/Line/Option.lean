import Switchboard.Data.Table
import Switchboard.Number.Numeral
import Switchboard.Text.Segment

/-!
Telling options from positional arguments. An option starts with a dash and is no negative number:
`--name=value`, `--name value`, `--flag`, `--no-flag` and bundles of letters such as `-abc`. The
token `--` ends the options.
-/
namespace Switchboard

/-- What an option says: a text, or yes or no. -/
inductive OptionValue where
  | text (s : String)
  | flag (b : Bool)
deriving DecidableEq, Repr

namespace Line

/-- Whether a token is a minus sign and a number; one line feed may follow. -/
def isNegativeNumber (cs : List Char) : Bool :=
  match Text.dropFinalNewline cs with
  | '-' :: rest => (Numeral.unsigned? rest).isSome
  | _ => false

def isOption (token : String) : Bool :=
  match token.toList with
  | ['-'] => false
  | '-' :: _ => ! isNegativeNumber token.toList
  | _ => false

/-- What an option token says on its own: a finished binding, or flags of which the last may take
the next token as its value. -/
inductive OptionToken where
  | bound (name : String) (value : OptionValue)
  | flags (names : List String) (last : String)
deriving DecidableEq, Repr

/-- Reads an option token that starts with two dashes; `cs` follows them. -/
def longOption (cs : List Char) : OptionToken :=
  match Text.cut '=' cs with
  | (name, some value) => .bound (String.ofList name) (.text (String.ofList value))
  | ('n' :: 'o' :: '-' :: c :: rest, none) => .bound (String.ofList (c :: rest)) (.flag false)
  | (name, none) => .flags [] (String.ofList name)

/-- Reads a bundle of letters; each is a flag of its own. -/
def shortOptions (letters : List Char) : OptionToken :=
  .flags (letters.dropLast.map String.singleton)
    (match letters.getLast? with
      | some c => String.singleton c
      | none => "")

def optionToken (token : String) : OptionToken :=
  match token.toList with
  | '-' :: '-' :: cs => longOption cs
  | cs => shortOptions cs.tail

/-- The positional arguments among the tokens, and the bindings of the options in the order in which
they stand. -/
def readArguments : List String → List String × List (String × OptionValue)
  | [] => ([], [])
  | token :: rest =>
    if token = "--" then (rest, [])
    else if isOption token then
      match optionToken token with
      | .bound name value =>
        let (positional, bindings) := readArguments rest
        (positional, (name, value) :: bindings)
      | .flags names last =>
        let flags := names.map fun name => (name, OptionValue.flag true)
        match rest with
        | [] => ([], flags ++ [(last, .flag true)])
        | next :: later =>
          if isOption next then
            let (positional, bindings) := readArguments (next :: later)
            (positional, flags ++ (last, .flag true) :: bindings)
          else
            let (positional, bindings) := readArguments later
            (positional, flags ++ (last, .text next) :: bindings)
    else
      let (positional, bindings) := readArguments rest
      (token :: positional, bindings)

/-- Splits the tokens after a command into positional arguments and named options. An option that is
given again keeps its place and takes the later value. -/
def splitOptions (tokens : List String) : List String × Table OptionValue :=
  let (positional, bindings) := readArguments tokens
  (positional, Table.ofList bindings)

end Line
end Switchboard
