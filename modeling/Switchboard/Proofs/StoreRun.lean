import Switchboard.Proofs.Refinement

/-!
What an operation of the store comes to, whatever the store and its file are like: the entries that
it finds, the answer that it gives from them, what it makes of them and whether that could be saved.
-/
namespace Switchboard

open Work

/-! ### Actions on entries -/

namespace Action

/-- What an action makes of the entries of the users, if it changes them. -/
def edit? (key : String) (users : Users.Entries) : Action → Option Users.Entries
  | .setVariable name value =>
    if Text.strip name = "" then none else Users.setVariable users key (Text.strip name) value
  | .setLevel wanted => Users.setLevel users key wanted
  | .setAlias name wanted =>
    if Text.strip name = "" then none
    else Users.setAlias users key (Text.strip name) ((wanted.map Text.strip).filter (· ≠ ""))
  | .addScope scope =>
    if Text.strip scope = "" then none else Users.addScope users key (Text.strip scope)
  | .removeScope scope => Users.removeScope users key (Text.strip scope)
  | .environment | .level | .command _ | .aliases | .scopes => none

/-- The answer of an action where there are these entries. -/
def answer (key : String) (users : Users.Entries) : Action → Answer
  | .environment => .environment (Users.variables? users key)
  | .level => .level (Users.level? users key)
  | .command name => .command (Users.alias? users key name)
  | .aliases => .aliases (Users.aliases users key)
  | .scopes => .scopes (Users.scopes users key)
  | .setVariable .. | .setLevel _ | .setAlias .. => .done
  | .addScope scope => .changed ((addScope scope).edit? key users).isSome
  | .removeScope scope => .changed ((removeScope scope).edit? key users).isSome

/-- An action that does not even look at the store, since it names nothing. -/
def isIdle : Action → Bool
  | .setVariable name _ | .setAlias name _ | .addScope name => Text.strip name = ""
  | _ => false

/-- An action that only asks. -/
def isQuery : Action → Bool
  | .environment | .level | .command _ | .aliases | .scopes => true
  | _ => false

theorem edit?_of_isQuery {action : Action} (query : action.isQuery = true) (key : String)
    (users : Users.Entries) : action.edit? key users = none := by
  cases action with
  | environment | level | command | aliases | scopes => rfl
  | setVariable | setLevel | setAlias | addScope | removeScope => cases query

theorem isIdle_of_isQuery {action : Action} (query : action.isQuery = true) :
    action.isIdle = false := by
  cases action with
  | environment | level | command | aliases | scopes => rfl
  | setVariable | setLevel | setAlias | addScope | removeScope => cases query

/-- An action that names nothing has one answer everywhere, and changes nothing. -/
theorem of_isIdle {action : Action} (idle : action.isIdle = true) (key : String)
    (users others : Users.Entries) :
    action.answer key users = action.answer key others ∧ action.edit? key users = none := by
  cases action with
  | setVariable name value =>
    exact ⟨rfl, if_pos (of_decide_eq_true idle)⟩
  | setAlias name command =>
    exact ⟨rfl, if_pos (of_decide_eq_true idle)⟩
  | addScope scope =>
    have none (users : Users.Entries) : (Action.addScope scope).edit? key users = none :=
      if_pos (of_decide_eq_true idle)
    refine ⟨?_, none users⟩
    rw [answer, answer, none, none]
  | environment | level | command | aliases | scopes | setLevel | removeScope => cases idle

end Action

/-- The state that a file describes. A missing file, and one that describes none, stand for the
state of a store that nothing was done to. -/
def StateFile.described (file : StateFile) : State :=
  match file.content with
  | none => {}
  | some content =>
    match State.ofContent content with
    | .ok state => state
    | .error _ => {}

namespace Store

/-! ### What is found -/

/-- A store that has not taken over yet what its file holds. -/
def IsBehind (store : Store) : Prop :=
  match store.file.content with
  | none => store.memory.seen = none → store.memory.state = {}
  | some _ => store.memory.seen ≠ some store.file.stamp

theorem state_reloaded {store : Store} (behind : store.IsBehind) :
    store.reloaded.memory.state = store.file.described := by
  unfold IsBehind at behind
  unfold reloaded StateFile.described
  cases content : store.file.content with
  | none =>
    rw [content] at behind
    cases seen : store.memory.seen with
    | none => exact behind seen
    | some time => rfl
  | some found =>
    rw [content] at behind
    dsimp only
    rw [if_neg behind]
    cases State.ofContent found with
    | ok state => rfl
    | error event => rfl

theorem outage_reloaded (store : Store) : store.reloaded.outage = store.outage := by
  unfold reloaded
  repeat' split
  all_goals rfl

theorem hindrance?_eq_none {store : Store} :
    store.hindrance? = none ↔
      store.outage = none ∧ store.file.isDraftOverlong = false ∧
        store.file.content ≠ some .directory := by
  unfold hindrance?
  cases store.outage with
  | some failure => simp
  | none =>
    cases store.file.isDraftOverlong with
    | true => simp
    | false => simp

/-- The entries that an operation finds, or why it finds none. -/
def found (store : Store) : Except Failure Users.Entries :=
  match store.file.obstacle? with
  | some obstacle => .error (.unreachable store.file.path obstacle)
  | none => (entries.run store.reloaded).1

/-- The store after it has looked at its file. -/
def looked (store : Store) : Store :=
  if store.file.obstacle?.isSome then store else store.reloaded

theorem run_entries_snd (store : Store) : (entries.run store).2 = store := by
  simp only [entries, run_bind, run_get]
  split <;> rfl

theorem run_look {α : Type} (next : Users.Entries → StoreM α) (store : Store) :
    (reload >>= fun _ => entries >>= next).run store =
      match store.found with
      | .ok users => (next users).run store.reloaded
      | .error failure => (.error failure, store.looked) := by
  rw [run_bind, run_reload]
  unfold found looked
  cases store.file.obstacle? with
  | some obstacle => rfl
  | none =>
    have same := run_entries_snd store.reloaded
    simp only [run_bind]
    rcases ran : entries.run store.reloaded with ⟨result, later⟩
    rw [ran] at same
    subst same
    cases result with
    | error failure => rfl
    | ok users => rfl

theorem found_eq_ok {store : Store} {users : Users.Entries} :
    store.found = .ok users ↔
      store.file.obstacle? = none ∧ store.reloaded.memory.state.users = .table users := by
  unfold found
  cases obstacle : store.file.obstacle? with
  | some cause => simp
  | none =>
    simp only [entries, run_bind, run_get, true_and]
    cases held : store.reloaded.memory.state.users with
    | table others => simp
    | _ => simp

theorem found_reloaded (store : Store) : store.reloaded.found = store.found := by
  simp only [found, file_reloaded, reloaded_reloaded]

theorem found_looked (store : Store) : store.looked.found = store.found := by
  unfold looked
  split
  · rfl
  · exact found_reloaded store

theorem file_looked (store : Store) : store.looked.file = store.file := by
  unfold looked
  split
  · rfl
  · exact file_reloaded store

theorem found_withUsers {store : Store} {users : Users.Entries} (known : store.found = .ok users)
    (changed : Users.Entries) : (store.reloaded.withUsers changed).found = .ok changed := by
  have current : (store.reloaded.withUsers changed).IsCurrent := isCurrent_reloaded store
  refine found_eq_ok.mpr ⟨?_, ?_⟩
  · rw [withUsers, file_reloaded, (found_eq_ok.mp known).1]
  · rw [reloaded_of_isCurrent current]
    rfl

theorem found_saved (store : Store) (users : Users.Entries) :
    (store.withUsers users).saved.found = .ok users := by
  refine found_eq_ok.mpr ⟨rfl, ?_⟩
  rw [reloaded_of_isCurrent (isCurrent_saved _)]
  rfl

/-- A store that can save can do so again once it has. -/
theorem hindrance?_saved {store : Store} (unhindered : store.hindrance? = none) :
    store.saved.hindrance? = none := by
  obtain ⟨steady, roomy, -⟩ := hindrance?_eq_none.mp unhindered
  exact hindrance?_eq_none.mpr ⟨steady, roomy, nofun⟩

theorem found_log (store : Store) (log : List Event) :
    ({ store with log } : Store).found = store.found := by
  unfold found
  cases store.file.obstacle? with
  | some obstacle => rfl
  | none =>
    simp only [entries, run_bind, run_get, memory_reloaded_log]
    cases store.reloaded.memory.state.users with
    | table users => rfl
    | _ => rfl

/-! ### What is done -/

theorem run_read {α : Type} (query : Users.Entries → α) (store : Store) :
    (read query).run store =
      match store.found with
      | .ok users => (.ok (query users), store.reloaded)
      | .error failure => (.error failure, store.looked) :=
  run_look (fun users => pure (query users)) store

theorem run_read_fst {α : Type} (query : Users.Entries → α) (store : Store) :
    ((read query).run store).1 = store.found.map query := by
  rw [run_read]
  cases store.found with
  | ok users => rfl
  | error failure => rfl

/-- A change of the entries takes place in memory first, and stays there if it cannot be saved. -/
theorem run_change (edit : Users.Entries → Option Users.Entries) (store : Store) :
    (change edit).run store =
      match store.found with
      | .error failure => (.error failure, store.looked)
      | .ok users =>
        match edit users with
        | none => (.ok false, store.reloaded)
        | some changed =>
          match (store.reloaded.withUsers changed).hindrance? with
          | some failure => (.error failure, store.reloaded.withUsers changed)
          | none => (.ok true, (store.reloaded.withUsers changed).saved) := by
  unfold change
  rw [run_look]
  cases store.found with
  | error failure => rfl
  | ok users =>
    dsimp only
    cases edit users with
    | none => rfl
    | some changed =>
      dsimp only
      rw [run_bind_ok _ (run_modify _ _), run_bind, run_save]
      cases (store.reloaded.withUsers changed).hindrance? with
      | some failure => rfl
      | none => rfl

/-- What an action comes to in a store where it finds these entries. -/
def performed (store : Store) (action : Action) (key : String) (users : Users.Entries) :
    Except Failure Answer × Store :=
  match action.edit? key users with
  | none => (.ok (action.answer key users), store.reloaded)
  | some changed =>
    match (store.reloaded.withUsers changed).hindrance? with
    | some failure => (.error failure, store.reloaded.withUsers changed)
    | none => (.ok (action.answer key users), (store.reloaded.withUsers changed).saved)

/-- What an action comes to in a store that it does look at. -/
def attempted (store : Store) (action : Action) (key : String) : Except Failure Answer × Store :=
  match store.found with
  | .error failure => (.error failure, store.looked)
  | .ok users => store.performed action key users

theorem run_query {action : Action} {key : String} {α : Type} {query : Users.Entries → α}
    {answer : α → Answer} (edits : ∀ users, action.edit? key users = none)
    (answers : ∀ users, action.answer key users = answer (query users)) (store : Store) :
    (answer <$> read query).run store = store.attempted action key := by
  rw [run_map, run_read, attempted]
  cases store.found with
  | error failure => rfl
  | ok users =>
    dsimp only
    rw [performed, edits, answers]
    rfl

theorem run_edit {action : Action} {key : String} {edit : Users.Entries → Option Users.Entries}
    {answer : Bool → Answer} (edits : ∀ users, action.edit? key users = edit users)
    (answers : ∀ users, action.answer key users = answer (edit users).isSome) (store : Store) :
    (answer <$> change edit).run store = store.attempted action key := by
  rw [run_map, run_change, attempted]
  cases store.found with
  | error failure => rfl
  | ok users =>
    dsimp only
    rw [performed, edits, answers]
    cases edit users with
    | none => rfl
    | some changed =>
      dsimp only
      cases (store.reloaded.withUsers changed).hindrance? with
      | some failure => rfl
      | none => rfl

/-- Nothing is told of a change that is not asked about. -/
theorem run_discard_edit {action : Action} {key : String}
    {edit : Users.Entries → Option Users.Entries}
    (edits : ∀ users, action.edit? key users = edit users)
    (answers : ∀ users, action.answer key users = .done) (store : Store) :
    ((fun _ => Answer.done) <$> discard (change edit)).run store =
      store.attempted action key := by
  have told : ((fun _ => Answer.done) <$> change edit).run store = store.attempted action key :=
    run_edit edits answers store
  rw [← told, run_map, run_discard, run_map]
  cases ((change edit).run store).1 with
  | error failure => rfl
  | ok yes => rfl

end Store

open Store in
/-- What any of the operations comes to. -/
theorem Action.run_eq (caller : CallerId) (action : Action) (store : Store) :
    (action.run caller).run store =
      if action.isIdle then (.ok (action.answer (Users.key caller) []), store)
      else store.attempted action (Users.key caller) := by
  cases action with
  | environment => exact run_query (fun _ => rfl) (fun _ => rfl) store
  | level => exact run_query (fun _ => rfl) (fun _ => rfl) store
  | command name => exact run_query (fun _ => rfl) (fun _ => rfl) store
  | aliases => exact run_query (fun _ => rfl) (fun _ => rfl) store
  | scopes => exact run_query (fun _ => rfl) (fun _ => rfl) store
  | setLevel wanted =>
    have edits (users : Users.Entries) : (Action.setLevel wanted).edit? (Users.key caller) users =
        Users.setLevel users (Users.key caller) wanted := rfl
    exact run_discard_edit edits (fun _ => rfl) store
  | removeScope scope =>
    have edits (users : Users.Entries) : (Action.removeScope scope).edit? (Users.key caller) users =
        Users.removeScope users (Users.key caller) (Text.strip scope) := rfl
    exact run_edit edits (fun _ => rfl) store
  | setVariable name value =>
    by_cases blank : Text.strip name = ""
    · have idle : Store.setVariable caller name value = pure ⟨⟩ := if_neg (not_not.mpr blank)
      rw [isIdle, decide_eq_true blank, if_pos rfl, Action.run, idle]
      rfl
    · have edits (users : Users.Entries) :
          (Action.setVariable name value).edit? (Users.key caller) users =
            Users.setVariable users (Users.key caller) (Text.strip name) value := if_neg blank
      have works : Store.setVariable caller name value = discard (change fun users =>
          Users.setVariable users (Users.key caller) (Text.strip name) value) := if_pos blank
      rw [isIdle, decide_eq_false blank, if_neg Bool.false_ne_true, Action.run, works]
      exact run_discard_edit edits (fun _ => rfl) store
  | setAlias name wanted =>
    by_cases blank : Text.strip name = ""
    · have idle : Store.setAlias caller name wanted = pure ⟨⟩ := if_neg (not_not.mpr blank)
      rw [isIdle, decide_eq_true blank, if_pos rfl, Action.run, idle]
      rfl
    · have edits (users : Users.Entries) :
          (Action.setAlias name wanted).edit? (Users.key caller) users =
            Users.setAlias users (Users.key caller) (Text.strip name)
              ((wanted.map Text.strip).filter (· ≠ "")) := if_neg blank
      have works : Store.setAlias caller name wanted = discard (change fun users =>
          Users.setAlias users (Users.key caller) (Text.strip name)
            ((wanted.map Text.strip).filter (· ≠ ""))) := if_pos blank
      rw [isIdle, decide_eq_false blank, if_neg Bool.false_ne_true, Action.run, works]
      exact run_discard_edit edits (fun _ => rfl) store
  | addScope scope =>
    have edits (users : Users.Entries) : (Action.addScope scope).edit? (Users.key caller) users =
        if Text.strip scope = "" then none
        else Users.addScope users (Users.key caller) (Text.strip scope) := rfl
    by_cases blank : Text.strip scope = ""
    · have idle : Store.addScope caller scope = pure false := if_pos blank
      rw [isIdle, decide_eq_true blank, if_pos rfl, Action.run, idle, answer, edits, if_pos blank]
      rfl
    · have works : Store.addScope caller scope = change fun users =>
          Users.addScope users (Users.key caller) (Text.strip scope) := if_neg blank
      rw [isIdle, decide_eq_false blank, if_neg Bool.false_ne_true, Action.run, works]
      refine run_edit (fun users => ?_) (fun users => ?_) store
      · rw [edits, if_neg blank]
      · rw [answer, edits, if_neg blank]

namespace Store

/-- Whatever an action comes to, its change of the entries is found afterwards. -/
theorem found_run (caller : CallerId) (action : Action) (store : Store) :
    ((action.run caller).run store).2.found =
      store.found.map fun users => (action.edit? (Users.key caller) users).getD users := by
  rw [Action.run_eq]
  split
  · rename_i idle
    have none := fun users => (Action.of_isIdle idle (Users.key caller) users []).2
    simp only [none, Option.getD_none]
    exact (congrFun Except.map_id store.found).symm
  · unfold attempted
    cases found : store.found with
    | error failure => exact (found_looked store).trans found
    | ok users =>
      dsimp only [performed, Except.map]
      cases action.edit? (Users.key caller) users with
      | none => exact (found_reloaded store).trans found
      | some changed =>
        have kept := found_withUsers found changed
        dsimp only
        cases (store.reloaded.withUsers changed).hindrance? with
        | some failure => exact kept
        | none => exact found_saved _ changed

theorem hindrance?_reloaded (store : Store) : store.reloaded.hindrance? = store.hindrance? := by
  rw [hindrance?, hindrance?, file_reloaded, outage_reloaded]

theorem hindrance?_looked (store : Store) : store.looked.hindrance? = store.hindrance? := by
  unfold looked
  split
  · rfl
  · exact hindrance?_reloaded store

/-- A store that can save goes on to be one, and an operation fails in it only where no entries are
found. -/
theorem run_of_unhindered {store : Store} (unhindered : store.hindrance? = none)
    (caller : CallerId) (action : Action) :
    ((action.run caller).run store).2.hindrance? = none ∧
      ∀ failure, ((action.run caller).run store).1 = .error failure →
        store.found = .error failure := by
  rw [Action.run_eq]
  split
  · exact ⟨unhindered, fun failure failed => absurd failed (ok_ne_error _ failure)⟩
  · unfold attempted
    cases store.found with
    | error failure =>
      refine ⟨(hindrance?_looked store).trans unhindered, fun other failed => ?_⟩
      rw [Except.error.inj failed]
    | ok users =>
      dsimp only [performed]
      cases action.edit? (Users.key caller) users with
      | none =>
        refine ⟨(hindrance?_reloaded store).trans unhindered, fun failure failed => ?_⟩
        exact absurd failed (ok_ne_error _ failure)
      | some changed =>
        have saves : (store.reloaded.withUsers changed).hindrance? = none :=
          (hindrance?_reloaded store).trans unhindered
        dsimp only
        rw [saves]
        refine ⟨hindrance?_saved saves, fun failure failed => ?_⟩
        exact absurd failed (ok_ne_error _ failure)

end Store

end Switchboard
