import Mathlib.Logic.Function.Basic
import Switchboard.Store.Basic

/-!
What is kept about callers, seen plainly: a sheet under each key, with variables, a level, aliases
and scopes. An operation gives an answer and changes the sheet of its caller, and no other.
-/
namespace Switchboard

/-- What is kept under one key. -/
structure Sheet where
  environment : Table String := []
  level : Option Int := none
  aliases : Table String := []
  /-- The scopes, in the order in which they were added. -/
  scopes : List String := []
  commandsFilled : ∀ entry ∈ aliases, entry.2 ≠ "" := by simp
  scopesFilled : ∀ scope ∈ scopes, scope ≠ "" := by simp
  scopesDistinct : scopes.Nodup := by simp

namespace Sheet

def IsBlank (sheet : Sheet) : Prop :=
  sheet.environment = [] ∧ sheet.level = none ∧ sheet.aliases = [] ∧ sheet.scopes = []

instance (sheet : Sheet) : Decidable sheet.IsBlank :=
  inferInstanceAs (Decidable (_ ∧ _))

variable (sheet : Sheet)

theorem commandsFilled_insert (name : String) {command : String} (filled : command ≠ "") :
    ∀ entry ∈ sheet.aliases.insert name command, entry.2 ≠ "" := by
  intro entry member
  rcases Table.mem_insert member with rfl | old
  · exact filled
  · exact sheet.commandsFilled entry old

theorem commandsFilled_erase (name : String) :
    ∀ entry ∈ sheet.aliases.erase name, entry.2 ≠ "" :=
  fun entry member => sheet.commandsFilled entry (List.mem_filter.mp member).1

theorem scopesFilled_append {scope : String} (filled : scope ≠ "") :
    ∀ other ∈ sheet.scopes ++ [scope], other ≠ "" := by
  intro other member
  rcases List.mem_append.mp member with old | new
  · exact sheet.scopesFilled other old
  · rw [List.mem_singleton.mp new]
    exact filled

theorem scopesDistinct_append {scope : String} (fresh : scope ∉ sheet.scopes) :
    (sheet.scopes ++ [scope]).Nodup := by
  refine List.nodup_append.mpr ⟨sheet.scopesDistinct, by simp, ?_⟩
  intro other old added new same
  rw [List.mem_singleton.mp new] at same
  exact fresh (same ▸ old)

def setVariable (name : String) (value : Option String) : Sheet :=
  { sheet with
    environment := match value with
      | some value => sheet.environment.insert name value
      | none => sheet.environment.erase name }

def setAlias (name command : String) (filled : command ≠ "") : Sheet :=
  { sheet with
    aliases := sheet.aliases.insert name command
    commandsFilled := sheet.commandsFilled_insert name filled }

def removeAlias (name : String) : Sheet :=
  { sheet with
    aliases := sheet.aliases.erase name
    commandsFilled := sheet.commandsFilled_erase name }

def addScope (scope : String) (filled : scope ≠ "") (fresh : scope ∉ sheet.scopes) : Sheet :=
  { sheet with
    scopes := sheet.scopes ++ [scope]
    scopesFilled := sheet.scopesFilled_append filled
    scopesDistinct := sheet.scopesDistinct_append fresh }

def removeScope (scope : String) : Sheet :=
  { sheet with
    scopes := sheet.scopes.erase scope
    scopesFilled := fun other member => sheet.scopesFilled other (List.mem_of_mem_erase member)
    scopesDistinct := sheet.scopesDistinct.erase scope }

theorem removeScope_of_notMem {sheet : Sheet} {scope : String} (unknown : scope ∉ sheet.scopes) :
    sheet.removeScope scope = sheet := by
  simp only [removeScope, List.erase_of_not_mem unknown]

end Sheet

/-! ### Actions -/

/-- What can be asked of the store or done to it for one caller. -/
inductive Action where
  | environment
  | setVariable (name : String) (value : Option String)
  | level
  | setLevel (level : Option Int)
  | command (name : String)
  | setAlias (name : String) (command : Option String)
  | aliases
  | scopes
  | addScope (scope : String)
  | removeScope (scope : String)
deriving DecidableEq, Repr

/-- What an action gives. -/
inductive Answer where
  | environment (table : Option (Table String))
  | level (level : Option Int)
  | command (command : Option String)
  | aliases (table : Table String)
  | scopes (scopes : List String)
  /-- Whether there was a change. -/
  | changed (yes : Bool)
  | done
deriving DecidableEq, Repr

/-- What an action answers, and what it leaves on the sheet of its caller. -/
def Action.act (sheet : Sheet) : Action → Answer × Sheet
  | .environment => (.environment (if sheet.IsBlank then none else some sheet.environment), sheet)
  | .setVariable name value =>
    (.done, if Text.strip name = "" then sheet else sheet.setVariable (Text.strip name) value)
  | .level => (.level sheet.level, sheet)
  | .setLevel wanted => (.done, { sheet with level := wanted })
  | .command name => (.command (sheet.aliases.get? name), sheet)
  | .setAlias name wanted =>
    let stripped := (wanted.map Text.strip).getD ""
    (.done,
      if Text.strip name = "" then sheet
      else if filled : stripped ≠ "" then sheet.setAlias (Text.strip name) stripped filled
      else sheet.removeAlias (Text.strip name))
  | .aliases => (.aliases sheet.aliases, sheet)
  | .scopes => (.scopes sheet.scopes, sheet)
  | .addScope scope =>
    if added : Text.strip scope ≠ "" ∧ Text.strip scope ∉ sheet.scopes then
      (.changed true, sheet.addScope (Text.strip scope) added.1 added.2)
    else (.changed false, sheet)
  | .removeScope scope =>
    (.changed (Text.strip scope ∈ sheet.scopes), sheet.removeScope (Text.strip scope))

/-- An action for a caller. -/
structure Request where
  caller : CallerId
  action : Action
deriving DecidableEq, Repr

/-- Ids that differ in the blanks around them only have one key. -/
def Request.key (request : Request) : String :=
  Text.strip request.caller.text

/-- The sheets under all keys. -/
abbrev Sheets := String → Sheet

namespace Sheets

/-- Requests one after the other: their answers, and the sheets that they leave. -/
def run (sheets : Sheets) : List Request → List Answer × Sheets
  | [] => ([], sheets)
  | request :: rest =>
    let (answer, sheet) := request.action.act (sheets request.key)
    let (answers, last) := run (Function.update sheets request.key sheet) rest
    (answer :: answers, last)

/-- What is left under a key is the work of the requests with this key alone. -/
theorem run_filter_key (key : String) (requests : List Request) {sheets others : Sheets}
    (same : sheets key = others key) :
    (sheets.run requests).2 key = (others.run (requests.filter (·.key = key))).2 key := by
  induction requests generalizing sheets others with
  | nil => exact same
  | cons request rest ih =>
    by_cases own : request.key = key
    · rw [List.filter_cons, if_pos (decide_eq_true own)]
      refine ih ?_
      rw [own, same, Function.update_self, Function.update_self]
    · rw [List.filter_cons, if_neg (by simpa using own)]
      refine ih ?_
      rw [Function.update_of_ne (Ne.symm own), same]

end Sheets

end Switchboard
