import Switchboard.Bot.Reply
import Switchboard.Config
import Switchboard.Command.Build
import Switchboard.Command.Link
import Switchboard.Command.Lookup
import Switchboard.Event
import Switchboard.Store.Basic

/-!
The bot: its commands, its store, what it knows about its callers, and what it has done. The store
and the delivery of replies may be disturbed: their operations then fail without doing anything.
-/
namespace Switchboard

/-- The operations of the store. -/
inductive StoreOperation where
  | getVariables
  | setVariable
  | getLevel
  | setLevel
  | getAlias
  | setAlias
  | getAliases
  | getScopes
  | addScope
  | removeScope
deriving DecidableEq, Repr

/-- A call of a scripted handler. -/
structure HandlerCall where
  id : Document
  arguments : List Argument

/-- What is handed over to the outside. -/
structure Outbox where
  /-- The number of deliveries that were tried. -/
  tried : Nat := 0
  /-- The deliveries that fail, by their numbers. -/
  disturbances : List (Nat × Failure) := []
  replies : List Reply := []

/-- A bot. -/
structure Bot where
  config : Config := {}
  graph : Graph := Graph.start
  store : Store := {}
  /-- The operations of the store that fail. -/
  disturbances : List (StoreOperation × Failure) := []
  /-- The variables that are remembered, by the texts of the callers' ids. -/
  remembered : Table (Table String) := []
  outbox : Outbox := {}
  calls : List HandlerCall := []
  log : List Event := []

/-- Work of a bot that may fail on the way; what was done before stays done. -/
abbrev BotM := ExceptT Failure (StateM Bot)

namespace Bot

/-- Writes an event to the log. -/
def record (event : Event) : BotM Unit :=
  modify fun bot => { bot with log := bot.log ++ [event] }

def onGraph {α : Type} (work : GraphM α) : BotM α := do
  let bot ← get
  let (result, graph) := work.run bot.graph
  set { bot with graph }
  MonadExcept.ofExcept result

/-- The bot with its store in another state; what the store logged goes to the log of the bot. -/
def takeStore (bot : Bot) (store : Store) : Bot :=
  { bot with store := { store with log := [] }, log := bot.log ++ store.log }

/-- An operation of the store, unless it is disturbed. -/
def onStore {α : Type} (operation : StoreOperation) (work : StoreM α) : BotM α := do
  let bot ← get
  match bot.disturbances.lookup operation with
  | some failure => throw failure
  | none =>
    let (result, store) := work.run bot.store
    set (bot.takeStore store)
    MonadExcept.ofExcept result

/-- Delivers one part of a reply. -/
def deliver (message : Message) (segment : Segment) : BotM Unit := do
  let bot ← get
  let outbox := { bot.outbox with tried := bot.outbox.tried + 1 }
  match outbox.disturbances.lookup bot.outbox.tried with
  | some failure =>
    set { bot with outbox }
    throw failure
  | none =>
    let reply : Reply := { caller := message.caller, segment }
    set { bot with outbox := { outbox with replies := outbox.replies ++ [reply] } }

def replyError (message : Message) (text : String) : BotM Unit := do
  deliver message (.text ((← get).config.errorPrefix ++ text))

/-- Builds the command that a declaration describes and puts it under the root. -/
def register (name : Label) (spec : Spec) : BotM NodeId := do
  onGraph do
    let id ← Graph.build name spec
    Graph.link Graph.root name id
    return id

end Bot

/-- The tables of callers, by what is asked about one of them. -/
structure CallerTables where
  variables? : CallerId → BotM (Option (Table String))
  level? : CallerId → BotM (Option Int)
  alias? : CallerId → String → BotM (Option String)
  scopes : CallerId → BotM (List String)

namespace CallerTables

/-- The command that a name leads to, directly or under one of a caller's scopes. The scopes are
asked for only if they are needed. -/
def find? (tables : CallerTables) (name : String) (caller : CallerId) : BotM (Option NodeId) := do
  match (← get).graph.find? Graph.root name with
  | some id => return some id
  | none =>
    let scopes ← tables.scopes caller
    return (← get).graph.findUnder? Graph.root name scopes

/-- The variables of a caller; they are asked for once and remembered. Whoever has an id that cannot
be written has none. -/
def variablesOf (tables : CallerTables) (caller : CallerId) : BotM (Table String) := do
  let key ← MonadExcept.ofExcept caller.written
  match (← get).remembered.get? key with
  | some known => return known
  | none =>
    let known := (← tables.variables? caller).getD []
    modify fun bot => { bot with remembered := bot.remembered.insert key known }
    return known

/-- The level of a caller; a superuser's has no bound, and that of a caller without one is zero. -/
def levelOf (tables : CallerTables) (caller : CallerId) : BotM Level := do
  if ← MonadExcept.ofExcept ((← get).config.isSuperuser caller) then return .unbounded
  return .finite ((← tables.level? caller).getD 0)

end CallerTables

namespace Bot

def storedTables : CallerTables where
  variables? caller := onStore .getVariables (Store.variables? caller)
  level? caller := onStore .getLevel (Store.level? caller)
  alias? caller name := onStore .getAlias (Store.alias? caller name)
  scopes caller := onStore .getScopes (Store.scopes caller)

/-- The command that a name leads to, directly or under one of the scopes that the store has for a
caller. -/
def find? (name : String) (caller : CallerId) : BotM (Option NodeId) :=
  storedTables.find? name caller

/-- Forgets the variables of a caller, so that they are asked for again. -/
def forgetVariables (caller : CallerId) : BotM Unit :=
  modify fun bot => { bot with remembered := bot.remembered.erase caller.text }

end Bot
end Switchboard
