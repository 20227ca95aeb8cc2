import Switchboard.Store.Entry
import Switchboard.Store.State

/-!
The store: the tables of all callers, kept in memory and written to the state file. Every operation
first takes over what was put into the file since it was last seen, and every change is saved before
the operation is over.
-/
namespace Switchboard

/-- What one store has in memory: the state, and the time of the file that it was taken from or
saved to. -/
structure Memory where
  state : State := {}
  seen : Option Nat := none

/-- A store over the state file, with the events that it logged. -/
structure Store where
  file : StateFile := {}
  memory : Memory := {}
  log : List Event := []
  /-- Why nothing can be written beside the state file, if that is so: its directory cannot be made,
  or there is no right or no room to write. -/
  outage : Option Failure := none

/-- An operation of the store; what was changed before a failure stays changed. -/
abbrev StoreM := ExceptT Failure (StateM Store)

namespace Store

/-- Takes over the content of the file, unless its time is the one that was seen last. A file that
is gone takes its state with it; content that describes no state counts as none. -/
def reloaded (store : Store) : Store :=
  match store.file.content with
  | none => if store.memory.seen.isSome then { store with memory := {} } else store
  | some content =>
    if store.memory.seen = some store.file.stamp then store
    else
      match State.ofContent content with
      | .ok state => { store with memory := { state, seen := some store.file.stamp } }
      | .error event =>
        { store with
          memory := { seen := some store.file.stamp }
          log := store.log ++ [event] }

/-- Looks at the path, and takes over what stands there. -/
def reload : StoreM Unit := do
  let file := (← get).file
  match file.obstacle? with
  | some obstacle => throw (.unreachable file.path obstacle)
  | none => modify reloaded

/-- What keeps the state from being saved: an outage, a name that leaves no room for a draft, or a
directory in the place of the file. -/
def hindrance? (store : Store) : Option Failure :=
  if store.outage.isSome then store.outage
  else if store.file.isDraftOverlong then
    some (.unreachable (store.file.draft "________") .tooLong)
  else if store.file.content = some .directory then some .isDirectory
  else none

/-- The store with its state in the file. -/
def saved (store : Store) : Store :=
  let file := store.file.replace (.text store.memory.state.render)
  { store with file, memory := { store.memory with seen := file.time? } }

/-- Saves the state to the file, unless something keeps it from being saved. -/
def save : StoreM Unit := do
  match (← get).hindrance? with
  | some failure => throw failure
  | none => modify saved

/-- The entries of the users; a foreign document may hold something else in their place. -/
def entries : StoreM Users.Entries := do
  match (← get).memory.state.users with
  | .table users => return users
  | other =>
    throw (.noAttribute ("'" ++ other.typeName ++ "' object has no attribute 'get'"))

/-- Reads from the entries of the users. -/
def read {α : Type} (query : Users.Entries → α) : StoreM α := do
  reload
  return query (← entries)

def withUsers (store : Store) (users : Users.Entries) : Store :=
  { store with
    memory := { store.memory with state := { store.memory.state with users := .table users } } }

/-- Changes the entries of the users and saves them. The result says whether there was a change. -/
def change (edit : Users.Entries → Option Users.Entries) : StoreM Bool := do
  reload
  match edit (← entries) with
  | none => return false
  | some users =>
    modify (·.withUsers users)
    save
    return true

/-! ### The operations -/

/-- The variables of a caller; nothing if the caller has no table of them. -/
def variables? (caller : CallerId) : StoreM (Option (Table String)) :=
  read fun users => Users.variables? users (Users.key caller)

/-- Sets a variable of a caller to a text, or removes it. A blank name is passed over. -/
def setVariable (caller : CallerId) (name : String) (value : Option String) : StoreM Unit := do
  let name := Text.strip name
  if name ≠ "" then
    discard <| change fun users => Users.setVariable users (Users.key caller) name value

/-- The level of a caller, if one is set. -/
def level? (caller : CallerId) : StoreM (Option Int) :=
  read fun users => Users.level? users (Users.key caller)

/-- Sets the level of a caller, or takes it away. -/
def setLevel (caller : CallerId) (level : Option Int) : StoreM Unit :=
  discard <| change fun users => Users.setLevel users (Users.key caller) level

def alias? (caller : CallerId) (name : String) : StoreM (Option String) :=
  read fun users => Users.alias? users (Users.key caller) name

/-- Makes an alias of a caller stand for a command, or removes it if the command is blank. A blank
alias is passed over. -/
def setAlias (caller : CallerId) (name : String) (command : Option String) : StoreM Unit := do
  let name := Text.strip name
  let command := (command.map Text.strip).filter (· ≠ "")
  if name ≠ "" then
    discard <| change fun users => Users.setAlias users (Users.key caller) name command

def aliases (caller : CallerId) : StoreM (Table String) :=
  read fun users => Users.aliases users (Users.key caller)

/-- The scopes of a caller, earliest first. -/
def scopes (caller : CallerId) : StoreM (List String) :=
  read fun users => Users.scopes users (Users.key caller)

/-- Adds a scope of a caller. The result says whether it was added: a blank scope and one that is
there are not. -/
def addScope (caller : CallerId) (scope : String) : StoreM Bool := do
  let scope := Text.strip scope
  if scope = "" then return false
  change fun users => Users.addScope users (Users.key caller) scope

/-- Removes a scope of a caller. The result says whether it was there. -/
def removeScope (caller : CallerId) (scope : String) : StoreM Bool :=
  change fun users => Users.removeScope users (Users.key caller) (Text.strip scope)

end Store
end Switchboard
