import Switchboard.Proofs.StoreRun
import Switchboard.Proofs.TableOrder

/-!
Files that no store has written. Whatever bytes they hold, and whatever shapes are where tables and
texts should be, all operations go through and each setting is there when it is asked for. Only
where a current state has no table of users does every operation fail that looks at it.
-/
namespace Switchboard

open Work

/-! ### Settings -/

/-- A setting that is made for a caller. -/
inductive Setting where
  | setVariable (name value : String)
  | setLevel (n : Int)
  | setAlias (name target : String)
  | addScope (scope : String)
deriving DecidableEq, Repr

namespace Setting

/-- A text that is taken as it stands. -/
def IsTrimmed (s : String) : Prop :=
  Text.strip s = s ∧ s ≠ ""

instance (s : String) : Decidable (IsTrimmed s) :=
  inferInstanceAs (Decidable (_ ∧ _))

/-- A setting whose texts are taken as they stand; the value of a variable always is. -/
def IsProper : Setting → Prop
  | .setVariable name _ => IsTrimmed name
  | .setLevel _ => True
  | .setAlias name target => IsTrimmed name ∧ IsTrimmed target
  | .addScope scope => IsTrimmed scope

/-- The action that makes a setting. -/
def action : Setting → Action
  | .setVariable name value => .setVariable name (some value)
  | .setLevel n => .setLevel (some n)
  | .setAlias name target => .setAlias name (some target)
  | .addScope scope => .addScope scope

/-- Answers to queries that tell of a setting. -/
inductive ToldBy : Setting → Action → Answer → Prop
  | environment {name value : String} {table : Table String}
    (found : table.get? name = some value) :
    ToldBy (.setVariable name value) .environment (.environment (some table))
  | level {n : Int} : ToldBy (.setLevel n) .level (.level (some n))
  | command {name target : String} :
    ToldBy (.setAlias name target) (.command name) (.command (some target))
  | aliases {name target : String} {table : Table String}
    (found : table.get? name = some target) :
    ToldBy (.setAlias name target) .aliases (.aliases table)
  | scope {scope : String} {scopes : List String} (found : scope ∈ scopes) :
    ToldBy (.addScope scope) .scopes (.scopes scopes)

/-- The queries that ask for a setting. -/
def queries : Setting → List Action
  | .setVariable _ _ => [.environment]
  | .setLevel _ => [.level]
  | .setAlias name _ => [.command name, .aliases]
  | .addScope _ => [.scopes]

end Setting

namespace Action

/-- The answers of the kind that an action has. -/
inductive Expects : Action → Answer → Prop
  | environment {table : Option (Table String)} : Expects .environment (.environment table)
  | level {level : Option Int} : Expects .level (.level level)
  | command {name : String} {command : Option String} : Expects (.command name) (.command command)
  | aliases {table : Table String} : Expects .aliases (.aliases table)
  | scopes {scopes : List String} : Expects .scopes (.scopes scopes)
  | setVariable {name : String} {value : Option String} : Expects (.setVariable name value) .done
  | setLevel {level : Option Int} : Expects (.setLevel level) .done
  | setAlias {name : String} {command : Option String} : Expects (.setAlias name command) .done
  | addScope {scope : String} {yes : Bool} : Expects (.addScope scope) (.changed yes)
  | removeScope {scope : String} {yes : Bool} : Expects (.removeScope scope) (.changed yes)

theorem expects_answer (key : String) (users : Users.Entries) (action : Action) :
    action.Expects (action.answer key users) := by
  cases action <;> constructor

end Action

namespace Users

theorem get?_targets {fields : Table Document} {name command : String} {value : Document}
    (found : fields.get? name = some value) (target : aliasTarget? value = some command) :
    Table.get? (fields.filterMap fun (name, value) => (aliasTarget? value).map fun s => (name, s))
      name = some command := by
  induction fields with
  | nil => cases found
  | cons field rest ih =>
    obtain ⟨k, first⟩ := field
    rw [Table.get?_cons] at found
    rw [List.filterMap_cons]
    dsimp only
    by_cases same : k = name
    · rw [if_pos same] at found
      obtain rfl := Option.some.inj found
      rw [target, Option.map_some]
      exact if_pos same
    · rw [if_neg same] at found
      cases aliasTarget? first with
      | none => exact ih found
      | some other =>
        rw [Option.map_some]
        exact (if_neg same).trans (ih found)

/-- Whatever an entry has in a field, what is set in it is found there. -/
theorem tableAt?_setIn (users : Entries) (key field name value : String) :
    ∃ entry fields, entryOf? (setIn users key field name value) key = some entry ∧
      tableAt? entry field = some fields ∧ fields.get? name = some (.text value) := by
  refine ⟨_, ((tableAt? (entryOrBlank users key) field).getD []).insert name (.text value),
    (entryOf?_insert users key key _).trans (if_pos rfl), ?_, ?_⟩
  · rw [tableAt?, Table.get?_insert, if_pos rfl]
  · rw [Table.get?_insert, if_pos rfl]

theorem variables?_setIn (users : Entries) (key name value : String) :
    ∃ table, variables? (setIn users key "env" name value) key = some table ∧
      table.get? name = some value := by
  obtain ⟨entry, fields, held, inner, found⟩ := tableAt?_setIn users key "env" name value
  refine ⟨fields.map fun (name, value) => (name, value.display), ?_, ?_⟩
  · rw [variables?, held, Option.bind_eq_bind, Option.bind_some, inner]
    rfl
  · have shown := Table.get?_map fields Datum.display name
    rw [found] at shown
    exact shown

theorem alias?_setIn (users : Entries) (key name : String) {target : String}
    (filled : target ≠ "") :
    alias? (setIn users key "aliases" name target) key name = some target := by
  obtain ⟨entry, fields, held, inner, found⟩ := tableAt?_setIn users key "aliases" name target
  rw [alias?, held, Option.bind_eq_bind, Option.bind_some, inner, Option.bind_some, found]
  exact if_neg filled

theorem get?_aliases_setIn (users : Entries) (key name : String) {target : String}
    (filled : target ≠ "") :
    (aliases (setIn users key "aliases" name target) key).get? name = some target := by
  obtain ⟨entry, fields, held, inner, found⟩ := tableAt?_setIn users key "aliases" name target
  rw [aliases, held, Option.bind_some, inner]
  exact get?_targets found (if_neg filled)

/-- A scope that was added or that was there already. -/
theorem mem_scopes_addScope (users : Entries) (key : String) {scope : String}
    (filled : scope ≠ "") : scope ∈ scopes ((addScope users key scope).getD users) key := by
  have target : aliasTarget? (.text scope) = some scope := if_neg filled
  unfold addScope
  dsimp only
  split
  · rename_i known
    obtain ⟨item, member, same⟩ := List.any_eq_true.mp known
    obtain rfl : item = .text scope := by
      cases item with
      | text s => exact congrArg Datum.text (eq_of_beq same)
      | _ => cases same
    rw [Option.getD_none, scopes]
    rw [entryOrBlank] at member
    cases held : entryOf? users key with
    | none =>
      rw [held] at member
      exact absurd member List.not_mem_nil
    | some entry =>
      rw [held, Option.getD_some] at member
      rw [Option.bind_some]
      cases inner : listAt? entry "with" with
      | none =>
        rw [inner] at member
        exact absurd member List.not_mem_nil
      | some items =>
        rw [inner] at member
        exact List.mem_filterMap.mpr ⟨_, member, target⟩
  · rw [Option.getD_some, scopes, entryOf?_insert, if_pos rfl, Option.bind_some, listAt?,
      Table.get?_insert, if_pos rfl]
    refine List.mem_filterMap.mpr ⟨_, List.mem_append_right _ List.mem_cons_self, target⟩

end Users

/-- What is set is there afterwards in any entries, however they look. -/
theorem Setting.toldBy_answer {setting : Setting} (proper : setting.IsProper) {query : Action}
    (asked : query ∈ setting.queries) (key : String) (users : Users.Entries) :
    setting.ToldBy query (query.answer key ((setting.action.edit? key users).getD users)) := by
  cases setting with
  | setVariable name value =>
    obtain rfl := List.mem_singleton.mp asked
    obtain ⟨trimmed, filled⟩ := proper
    rw [Setting.action, Action.edit?, trimmed, if_neg filled, Users.setVariable, Option.getD_some]
    obtain ⟨table, held, found⟩ := Users.variables?_setIn users key name value
    rw [Action.answer, held]
    exact .environment found
  | setLevel n =>
    obtain rfl := List.mem_singleton.mp asked
    have level := Users.level?_setLevel users key key (some n)
    rw [if_pos rfl] at level
    rw [Setting.action, Action.answer, Action.edit?, level]
    exact .level
  | setAlias name target =>
    obtain ⟨⟨trimmed, filled⟩, trimmedTarget, filledTarget⟩ := proper
    have kept : (some (Text.strip target)).filter (· ≠ "") = some target := by
      rw [trimmedTarget]
      exact Option.filter_some_pos (decide_eq_true filledTarget)
    rw [Setting.action, Action.edit?, trimmed, if_neg filled, Option.map_some, kept, Users.setAlias,
      Option.getD_some]
    rcases List.mem_cons.mp asked with rfl | other
    · rw [Action.answer, Users.alias?_setIn users key name filledTarget]
      exact .command
    · obtain rfl := List.mem_singleton.mp other
      exact .aliases (Users.get?_aliases_setIn users key name filledTarget)
  | addScope scope =>
    obtain rfl := List.mem_singleton.mp asked
    obtain ⟨trimmed, filled⟩ := proper
    rw [Setting.action, Action.edit?, trimmed, if_neg filled]
    exact .scope (Users.mem_scopes_addScope users key filled)

/-! ### Stores over any file -/

namespace Store

/-- A store that finds these entries and can save others. -/
structure Sound (store : Store) (users : Users.Entries) : Prop where
  unhindered : store.hindrance? = none
  found : store.found = .ok users

namespace Sound

variable {store : Store} {users : Users.Entries}

theorem reloaded (sound : store.Sound users) : store.reloaded.Sound users := by
  refine ⟨?_, (found_reloaded store).trans sound.found⟩
  rw [hindrance?, file_reloaded, outage_reloaded]
  exact sound.unhindered

/-- Entries that are put in the place of others can be saved, and are found from then on. -/
theorem saved (sound : store.Sound users) (changed : Users.Entries) :
    (store.reloaded.withUsers changed).hindrance? = none ∧
      (store.reloaded.withUsers changed).saved.Sound changed := by
  have unhindered : (store.reloaded.withUsers changed).hindrance? = none :=
    sound.reloaded.unhindered
  obtain ⟨working, roomy, -⟩ := hindrance?_eq_none.mp unhindered
  refine ⟨unhindered, ?_, ?_⟩
  · exact hindrance?_eq_none.mpr ⟨working, roomy, nofun⟩
  · refine found_eq_ok.mpr ⟨rfl, ?_⟩
    rw [reloaded_of_isCurrent (isCurrent_saved _)]
    rfl

theorem run_request (sound : store.Sound users) (request : Request) :
    ∃ later, request.run.run store = (.ok (request.action.answer request.key users), later) ∧
      later.Sound ((request.action.edit? request.key users).getD users) := by
  obtain ⟨caller, action⟩ := request
  rw [Request.run, Action.run_eq]
  by_cases idle : action.isIdle = true
  · obtain ⟨same, unchanged⟩ := Action.of_isIdle idle (Users.key caller) users []
    rw [if_pos idle, ← same]
    refine ⟨store, rfl, ?_⟩
    rw [Request.key, ← Users.key, unchanged]
    exact sound
  · rw [if_neg idle, attempted, sound.found]
    dsimp only
    rw [performed, Request.key, ← Users.key]
    cases action.edit? (Users.key caller) users with
    | none => exact ⟨store.reloaded, rfl, sound.reloaded⟩
    | some changed =>
      obtain ⟨unhindered, saved⟩ := sound.saved changed
      dsimp only
      rw [unhindered]
      exact ⟨_, rfl, saved⟩

/-- Requests one after the other all go through, each with an answer of its kind. -/
theorem run_requests (requests : List Request) {store : Store} {users : Users.Entries}
    (sound : store.Sound users) :
    ∃ answers later last, (requests.mapM Request.run).run store = (.ok answers, later) ∧
      List.Forall₂ (fun request answer => request.action.Expects answer) requests answers ∧
      later.Sound last := by
  induction requests generalizing store users with
  | nil => exact ⟨[], store, users, rfl, .nil, sound⟩
  | cons request rest ih =>
    obtain ⟨next, ran, kept⟩ := sound.run_request request
    obtain ⟨answers, later, last, ranOn, expected, keptOn⟩ := ih kept
    refine ⟨request.action.answer request.key users :: answers, later, last, ?_, ?_, keptOn⟩
    · rw [List.mapM_cons, run_bind_ok _ ran, run_bind_ok _ ranOn]
      rfl
    · exact .cons (Action.expects_answer _ _ _) expected

/-- Right after a setting was made a query tells of it. -/
theorem run_setting (sound : store.Sound users) {setting : Setting} (proper : setting.IsProper)
    {query : Action} (asked : query ∈ setting.queries) (caller : CallerId) :
    ∃ made told last,
      ([⟨caller, setting.action⟩, ⟨caller, query⟩].mapM Request.run).run store =
        (.ok [made, told], last) ∧ setting.ToldBy query told := by
  obtain ⟨next, made, kept⟩ := sound.run_request ⟨caller, setting.action⟩
  obtain ⟨last, told, -⟩ := kept.run_request ⟨caller, query⟩
  refine ⟨setting.action.answer (Users.key caller) users, _, last, ?_,
    Setting.toldBy_answer proper asked (Users.key caller) users⟩
  rw [List.mapM_cons, run_bind_ok _ made, List.mapM_cons, bind_assoc, run_bind_ok _ told]
  rfl

end Sound

theorem found_eq_ok_of_isBehind {store : Store} (behind : store.IsBehind)
    (reachable : store.file.obstacle? = none) {users : Users.Entries} :
    store.found = .ok users ↔ store.file.described.users = .table users := by
  rw [found_eq_ok, state_reloaded behind]
  exact and_iff_right reachable

/-- A store that has just been opened over a file with a text. -/
def openedOver (text : String) : Store :=
  { file := { content := some (.text text), stamp := 1, clock := 1 } }

end Store

end Switchboard
