import Switchboard.Binding

/-!
What a handler gives back, and the replies that are made of it: every part that is not empty becomes
a reply of its own.
-/
namespace Switchboard

/-- What a handler gives back. -/
inductive Outcome where
  /-- Plain data; a list of them counts part by part. -/
  | datum (d : Document)
  | media (bytes : List UInt8)
  | many (parts : List Outcome)
  | failure (failure : Failure)
  /-- Any other value, which is shown by its text. -/
  | object (text : String)

/-- One part of a reply. -/
inductive Segment where
  | text (s : String)
  | media (bytes : List UInt8)
deriving DecidableEq, Repr

/-- A reply to a caller. -/
structure Reply where
  caller : CallerId
  segment : Segment
deriving DecidableEq, Repr

mutual

/-- The parts of plain data: lists are taken apart, and nothing is made of what is empty. What
cannot be written is a failure in its place. -/
def Datum.segments : Document → List (Except Failure Segment)
  | .list items => Datum.segmentsOf items
  | d => if d.truthy then [d.written.map .text] else []

def Datum.segmentsOf : List Document → List (Except Failure Segment)
  | [] => []
  | item :: rest => Datum.segments item ++ Datum.segmentsOf rest

end

namespace Outcome

mutual

/-- The parts that are delivered, in order. -/
def segments : Outcome → List (Except Failure Segment)
  | .datum d => Datum.segments d
  | .media [] => []
  | .media bytes => [.ok (.media bytes)]
  | .many parts => segmentsOf parts
  | .failure cause => [.ok (.text cause.message)]
  | .object text => [.ok (.text text)]

def segmentsOf : List Outcome → List (Except Failure Segment)
  | [] => []
  | part :: rest => segments part ++ segmentsOf rest

end

end Outcome

/-! ### Arguments as values -/

namespace QuoteFlags

/-- How quote flags are shown. -/
def display (flags : QuoteFlags) : String :=
  let shown (b : Bool) : String := (Datum.bool b : Document).literal
  "QuoteFlags(dangling_double=" ++ shown flags.double ++ ", dangling_single=" ++
    shown flags.single ++ ")"

end QuoteFlags

namespace Message

def display (message : Message) : String :=
  "IncomingMessage(text=" ++ Text.quoted message.text ++ ", caller_id=" ++
    message.caller.document.literal ++ ", channel_kind=" ++ Text.quoted message.channel ++
    ", channel_id=None, message_id=None)"

end Message

/-- How a row of tokens is shown. -/
def displayTokens (tokens : List String) : String :=
  match tokens with
  | [token] => "(" ++ Text.quoted token ++ ",)"
  | tokens => "(" ++ ", ".intercalate (tokens.map Text.quoted) ++ ")"

namespace Argument

/-- How an argument is shown on its own. -/
def display : Argument → String
  | .value d => d.display
  | .message m => m.display
  | .caller id => id.text
  | .flags quotes => quotes.display
  | .tokens words => displayTokens words
  | .command none => (Datum.null : Document).display
  | .command (some _) => "<command>"
  | .permissionCheck _ => "<permission check>"

/-- An argument that is given back as it is. -/
def outcome : Argument → Outcome
  | .value d => .datum d
  | .caller id => .datum id.document
  | .tokens words => .datum (.list (words.map .text))
  | .command none => .datum .null
  | argument => .object argument.display

/-- The type of an argument, as messages name it. -/
def typeName : Argument → String
  | .value d => d.typeName
  | .message _ => "IncomingMessage"
  | .caller id => id.document.typeName
  | .flags _ => "QuoteFlags"
  | .tokens _ => "tuple"
  | .command none => (Datum.null : Document).typeName
  | .command (some _) => "CommandNode"
  | .permissionCheck _ => "method"

end Argument
end Switchboard
