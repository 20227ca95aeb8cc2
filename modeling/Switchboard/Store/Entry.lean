import Switchboard.Caller
import Switchboard.Data.Datum
import Switchboard.Text.Blank

/-!
The table of users and the entry of one user: variables, a level, aliases and scopes. An entry of a
foreign document may lack any of them or hold something else in their place; then it has none. The
changes give the new table, or nothing if there is nothing to save.
-/
namespace Switchboard.Users

/-- The key of a caller's entry. -/
def key (caller : CallerId) : String :=
  Text.strip caller.text

abbrev Entries := Table Document

/-- The fields of one caller's entry. -/
abbrev Entry := Table Document

/-- The entry of a caller who set nothing yet. -/
def blankEntry : Entry :=
  [("env", .table []), ("perm", .null), ("aliases", .table []), ("with", .list [])]

def entryOf? (users : Entries) (key : String) : Option Entry :=
  match users.get? key with
  | some (.table entry) => some entry
  | _ => none

/-- The entry of a caller, or a blank one. -/
def entryOrBlank (users : Entries) (key : String) : Entry :=
  (entryOf? users key).getD blankEntry

def tableAt? (entry : Entry) (field : String) : Option (Table Document) :=
  match entry.get? field with
  | some (.table t) => some t
  | _ => none

def listAt? (entry : Entry) (field : String) : Option (List Document) :=
  match entry.get? field with
  | some (.list items) => some items
  | _ => none

/-- Whether an entry says nothing about its caller. -/
def isEmptyEntry (entry : Entry) : Bool :=
  (match entry.get? "perm" with
    | none | some .null => true
    | some _ => false) &&
    ["env", "aliases", "with"].all fun field => ! ((entry.get? field).getD .null).truthy

/-- Sets the entry of a caller, or removes it if it says nothing. -/
def setOrPrune (users : Entries) (key : String) (entry : Entry) : Entries :=
  if isEmptyEntry entry then users.erase key else users.insert key (.table entry)

/-! ### Variables -/

/-- The variables of a caller; nothing if the caller has no table of them. -/
def variables? (users : Entries) (key : String) : Option (Table String) := do
  let fields ← tableAt? (← entryOf? users key) "env"
  return fields.map fun (name, value) => (name, value.display)

/-- Sets a key in a table that an entry has in a field. -/
def setIn (users : Entries) (key field name value : String) : Entries :=
  let entry := entryOrBlank users key
  let inner := (tableAt? entry field).getD []
  users.insert key (.table (entry.insert field (.table (inner.insert name (.text value)))))

/-- Removes a key from a table that an entry has in a field. -/
def removeIn? (users : Entries) (key field name : String) : Option Entries := do
  let entry ← entryOf? users key
  let inner ← tableAt? entry field
  return setOrPrune users key (entry.insert field (.table (inner.erase name)))

/-- Sets a variable, or removes it if there is no value. -/
def setVariable (users : Entries) (key name : String) (value : Option String) : Option Entries :=
  match value with
  | some value => some (setIn users key "env" name value)
  | none => removeIn? users key "env" name

/-! ### Level -/

/-- The level of a caller, if one is set. -/
def level? (users : Entries) (key : String) : Option Int := do
  match (← entryOf? users key).get? "perm" with
  | some (.int n) => some n
  | _ => none

/-- Sets the level of a caller, or takes it away. -/
def setLevel (users : Entries) (key : String) (level : Option Int) : Option Entries :=
  match level with
  | some n => some (users.insert key (.table ((entryOrBlank users key).insert "perm" (.int n))))
  | none => (entryOf? users key).map fun entry => setOrPrune users key (entry.insert "perm" .null)

/-! ### Aliases -/

/-- The command that a datum in the place of an alias stands for. -/
def aliasTarget? : Document → Option String
  | .text s => if s = "" then none else some s
  | _ => none

/-- The command that an alias of a caller stands for. -/
def alias? (users : Entries) (key name : String) : Option String := do
  aliasTarget? (← (← tableAt? (← entryOf? users key) "aliases").get? name)

def aliases (users : Entries) (key : String) : Table String :=
  match (entryOf? users key).bind (tableAt? · "aliases") with
  | none => []
  | some fields => fields.filterMap fun (name, value) => (aliasTarget? value).map fun s => (name, s)

/-- Sets an alias, or removes it if there is no command. -/
def setAlias (users : Entries) (key name : String) (command : Option String) : Option Entries :=
  match command with
  | some command => some (setIn users key "aliases" name command)
  | none => removeIn? users key "aliases" name

/-! ### Scopes -/

def isText (s : String) : Document → Bool
  | .text t => t == s
  | _ => false

/-- The scopes of a caller, earliest first. -/
def scopes (users : Entries) (key : String) : List String :=
  match (entryOf? users key).bind (listAt? · "with") with
  | none => []
  | some items => items.filterMap aliasTarget?

/-- Adds a scope at the end, unless it is there. -/
def addScope (users : Entries) (key scope : String) : Option Entries :=
  let entry := entryOrBlank users key
  let items := (listAt? entry "with").getD []
  if items.any (isText scope) then none
  else some (users.insert key (.table (entry.insert "with" (.list (items ++ [.text scope])))))

/-- Removes a scope, if it is there. -/
def removeScope (users : Entries) (key scope : String) : Option Entries := do
  let entry ← entryOf? users key
  let items ← listAt? entry "with"
  if items.any (isText scope) then
    return setOrPrune users key (entry.insert "with" (.list (items.eraseP (isText scope))))
  else none

end Switchboard.Users
