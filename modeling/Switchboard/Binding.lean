import Switchboard.Caller
import Switchboard.Command.Graph
import Switchboard.Line.Option
import Switchboard.Line.Token
import Switchboard.Rule.Coercion

/-!
Binding the tokens and options of a line to the argument rules of a command.
-/
namespace Switchboard

/-- A message as it comes in. -/
structure Message where
  text : String
  caller : CallerId
  channel : String := "private"
deriving DecidableEq, Repr

/-- What a handler receives in one place of its argument list. -/
inductive Argument where
  /-- A value that the caller supplied; null if the caller may leave it out and did. -/
  | value (d : Document)
  | message (m : Message)
  | caller (id : CallerId)
  | flags (flags : QuoteFlags)
  | tokens (tokens : List String)
  | command (node : Option NodeId)
  /-- The check whether the caller's level reaches a given one. -/
  | permissionCheck (level : Level)

/-- What an invocation offers to the rules that are not supplied by the caller. -/
structure Invocation where
  message : Message
  caller : CallerId
  flags : QuoteFlags := {}
  tokens : List String := []
  node : Option NodeId := none
  level : Level := .finite 0

namespace Invocation

/-- The argument that an invocation itself supplies to a rule, if the rule is of such a kind. -/
def argument? (invocation : Invocation) : Kind → Option Argument
  | .message => some (.message invocation.message)
  | .caller => some (.caller invocation.caller)
  | .flags => some (.flags invocation.flags)
  | .tokens => some (.tokens invocation.tokens)
  | .command => some (.command invocation.node)
  | .permissionCheck => some (.permissionCheck invocation.level)
  | .string | .boolean | .number | .rest => none

end Invocation

namespace Binding

/-- What an option says, as a datum. -/
def optionDatum : OptionValue → Document
  | .text s => .text s
  | .flag b => .bool b

/-- What the caller supplied for a rule. -/
inductive Supply where
  /-- A value passed by name. -/
  | named (value : OptionValue)
  /-- The next positional token. -/
  | next (token : String)
  /-- Nothing, which the rule admits. -/
  | absent
deriving DecidableEq, Repr

/-- The value that is passed by the name of a rule. Lists and tables cannot be looked up as names,
and names that are no texts are never passed. -/
def namedValue? (rule : Rule) (named : Table OptionValue) : Except Failure (Option OptionValue) :=
  match rule.name with
  | .text name => .ok (named.get? name)
  | .list _ => .error (.mismatch "unhashable type: 'list'")
  | .table _ | .mapping _ => .error (.mismatch "unhashable type: 'dict'")
  | _ => .ok none

/-- The named values without the one that was passed by the name of a rule. -/
def withoutName (rule : Rule) (named : Table OptionValue) : Table OptionValue :=
  match rule.name with
  | .text name => named.erase name
  | _ => named

/-- What the caller supplied for a rule that asks for a value. -/
def supply (rule : Rule) (positional : List String) (named : Table OptionValue) :
    Except Failure Supply := do
  match ← namedValue? rule named with
  | some value =>
    if rule.positionalOnly then rule.reject "forbidden named arg" else return .named value
  | none =>
    if rule.namedOnly then return .absent
    else
      match positional with
      | token :: _ => return .next token
      | [] => if rule.optional then return .absent else throw .tooFewArguments

/-- What is left when every rule is satisfied: nothing may be. A named value that is left decides
the failure, then a token that is left. -/
def settleRest (positional : List String) (named : Table OptionValue) :
    Except Failure (List Argument) :=
  if named ≠ [] then .error (.unknownNamed named.keys)
  else if positional ≠ [] then .error .tooManyArguments
  else .ok []

/-- Binds one argument to each rule, in the order of the rules, and goes on with what is left. The
first rule that cannot be satisfied decides the failure. -/
def bindThen (finish : List String → Table OptionValue → Except Failure (List Argument))
    (invocation : Invocation) :
    List Rule → List String → Table OptionValue → Except Failure (List Argument)
  | [], positional, named => finish positional named
  | rule :: rules, positional, named =>
    if rule.permission ≠ 0 ∧ invocation.level.isBelow rule.permission then
      .error (.permissionDenied (.int rule.permission) (some rule.label))
    else
      match invocation.argument? rule.kind with
      | some argument => do
        return argument :: (← bindThen finish invocation rules positional named)
      | none =>
        if rule.kind = .rest then do
          let joined := " ".intercalate positional
          return .value (.text joined) :: (← bindThen finish invocation rules [] named)
        else do
          match ← supply rule positional named with
          | .absent =>
            return .value .null :: (← bindThen finish invocation rules positional named)
          | .named value =>
            let bound ← rule.coerce (optionDatum value)
            let others ← bindThen finish invocation rules positional (withoutName rule named)
            return .value bound :: others
          | .next token =>
            let bound ← rule.coerce (.text token)
            return .value bound :: (← bindThen finish invocation rules positional.tail named)

/-- Binds one argument to each rule and leaves nothing over. -/
def bind (invocation : Invocation) (rules : List Rule) (positional : List String)
    (named : Table OptionValue) : Except Failure (List Argument) :=
  bindThen settleRest invocation rules positional named

/-- Binds one argument to each parameter. One whose rule was never read has no permission to ask
for, and fails when its turn comes. -/
def bindParameters (invocation : Invocation) (parameters : List Parameter)
    (positional : List String) (named : Table OptionValue) : Except Failure (List Argument) :=
  match Parameter.readRules parameters with
  | (rules, none) => bind invocation rules positional named
  | (rules, some spec) =>
    bindThen (fun _ _ => .error (spec.lacking "permission")) invocation rules positional named

end Binding
end Switchboard
