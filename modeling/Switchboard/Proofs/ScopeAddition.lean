import Switchboard.Proofs.AliasTable
import Switchboard.Proofs.Gate

/-!
Adding a scope and taking it back. A new scope goes to the end of its caller's list, so it is asked
only for names that nothing else answers to: a name that led to a command leads to the same one, and
a name that begins to lead somewhere leads to what the new scope has under it. A scope that was
added was not in the list, so the entry that goes when it is removed is the added one, and every
name leads again to where it led before.
-/
namespace Switchboard

open Work

namespace Users

variable {users changed : Entries} {key scope : String}

/-- What stands in a caller's list of scopes. A foreign document may hold more there than texts. -/
def scopeItems (users : Entries) (key : String) : List Document :=
  (listAt? (entryOrBlank users key) "with").getD []

/-- An entry that says nothing is removed, and no scope is lost with it. -/
theorem scopes_setOrPrune (users : Entries) (key : String) (entry : Entry) :
    scopes (setOrPrune users key entry) key = scopesIn entry := by
  unfold setOrPrune
  split
  · rename_i empty
    rw [scopes, entryOf?_erase, if_pos rfl, scopesIn_of_isEmptyEntry empty]
    rfl
  · exact scopes_insert users key entry

theorem addScope_eq_some :
    addScope users key scope = some changed ↔
      (∀ item ∈ scopeItems users key, ¬ isText scope item = true) ∧
        changed = users.insert key (.table ((entryOrBlank users key).insert "with"
          (.list (scopeItems users key ++ [.text scope])))) := by
  have unfolded : addScope users key scope =
      if (scopeItems users key).any (isText scope) then none
      else some (users.insert key (.table ((entryOrBlank users key).insert "with"
        (.list (scopeItems users key ++ [.text scope]))))) := rfl
  rw [unfolded, Option.ite_none_left_eq_some, List.any_eq_true, Option.some.injEq]
  simp only [not_exists, not_and, eq_comm]

/-- A scope that is added stands behind all others. -/
theorem scopes_addScope (filled : scope ≠ "") (added : addScope users key scope = some changed) :
    scopes changed key = scopes users key ++ [scope] := by
  obtain ⟨-, rfl⟩ := addScope_eq_some.mp added
  have last : [Datum.text scope].filterMap aliasTarget? = [scope] := by
    simp [aliasTarget?, filled]
  rw [scopes_insert, scopesIn_insert, List.filterMap_append, last, scopes_eq]
  rfl

/-- A scope that was added can be removed, which leaves the scopes that were there before. -/
theorem removeScope_addScope (added : addScope users key scope = some changed) :
    ∃ restored, removeScope changed key scope = some restored ∧
      scopes restored key = scopes users key := by
  obtain ⟨fresh, rfl⟩ := addScope_eq_some.mp added
  generalize grown : scopeItems users key ++ [Datum.text scope] = items
  generalize entered : (entryOrBlank users key).insert "with" (.list items) = entry
  have held : entryOf? (users.insert key (.table entry)) key = some entry := by
    rw [entryOf?_insert, if_pos rfl]
  have listed : listAt? entry "with" = some items := by
    rw [← entered, listAt?, Table.get?_insert, if_pos rfl]
  have same : isText scope (.text scope) = true := beq_self_eq_true scope
  have present : items.any (isText scope) = true := by
    simp [← grown, same]
  -- no item before the added one is the scope, so that one is the first and the only to go
  have left : items.eraseP (isText scope) = scopeItems users key := by
    rw [← grown, List.eraseP_append_right _ fresh, List.eraseP_cons_of_pos same,
      List.append_nil]
  refine ⟨setOrPrune (users.insert key (.table entry)) key
    (entry.insert "with" (.list (scopeItems users key))), ?_, ?_⟩
  · simp only [removeScope, held, listed, Option.bind_eq_bind, Option.bind_some, present, if_true,
      left, Option.pure_def]
  · rw [scopes_setOrPrune, scopesIn_insert, scopes_eq]
    rfl

end Users

namespace Graph

/-- Scopes behind others are asked only for names that nothing else answers to. -/
theorem findScoped?_append (g : Graph) (start : NodeId) (name : String)
    (scopes more : List String) :
    g.findScoped? start name (scopes ++ more) =
      (g.findScoped? start name scopes).or (g.findUnder? start name more) := by
  simp only [findScoped?, findUnder?, List.findSome?_append, Option.or_assoc]

theorem findUnder?_singleton (g : Graph) (start : NodeId) (name scope : String) :
    g.findUnder? start name [scope] = g.find? start (scopedName scope name) := by
  simp [findUnder?]

end Graph

namespace Store

variable {store later : Store} {edit : Users.Entries → Option Users.Entries}
  {users changed : Users.Entries}

/-- A change that went well is found afterwards, in a store that can go on saving. -/
theorem of_change_eq_ok (done : (change edit).run store = (.ok true, later)) :
    ∃ users changed, store.found = .ok users ∧ edit users = some changed ∧
      later.found = .ok changed ∧ later.hindrance? = none := by
  rw [run_change] at done
  cases found : store.found with
  | error failure =>
    rw [found] at done
    cases done
  | ok users =>
    rw [found] at done
    dsimp only at done
    cases edited : edit users with
    | none =>
      rw [edited] at done
      cases done
    | some changed =>
      rw [edited] at done
      dsimp only at done
      cases saves : (store.reloaded.withUsers changed).hindrance? with
      | some failure =>
        rw [saves] at done
        cases done
      | none =>
        rw [saves] at done
        cases done
        exact ⟨users, changed, rfl, edited, found_saved _ changed, hindrance?_saved saves⟩

/-- A change of what is found goes well in a store that can save. -/
theorem run_change_of_found (found : store.found = .ok users) (edited : edit users = some changed)
    (unhindered : store.hindrance? = none) :
    ∃ later, (change edit).run store = (.ok true, later) ∧ later.found = .ok changed := by
  have saves : (store.reloaded.withUsers changed).hindrance? = none :=
    (hindrance?_reloaded store).trans unhindered
  refine ⟨(store.reloaded.withUsers changed).saved, ?_, found_saved _ changed⟩
  rw [run_change, found]
  dsimp only
  rw [edited]
  dsimp only
  rw [saves]

end Store

namespace Bot

variable {bot later : Bot} {caller : CallerId} {scope name : String}

/-! ### Where names lead -/

/-- The scopes of a caller as a bot is told of them. -/
def scopesOf (bot : Bot) (caller : CallerId) : Except Failure (List String) :=
  ((storedTables.scopes caller).run bot).1

/-- The command that a name leads a caller to. -/
def target? (bot : Bot) (caller : CallerId) (name : String) : Except Failure (Option NodeId) :=
  ((find? name caller).run bot).1

theorem scopesOf_eq (bot : Bot) (caller : CallerId) :
    bot.scopesOf caller =
      match bot.disturbances.lookup .getScopes with
      | some failure => .error failure
      | none => bot.store.found.map fun users => Users.scopes users (Users.key caller) := by
  change ((onStore .getScopes (Store.scopes caller)).run bot).1 = _
  rw [run_onStore]
  cases bot.disturbances.lookup .getScopes with
  | some failure => rfl
  | none => exact Store.run_read_fst _ bot.store

theorem graph_onStore {α : Type} (operation : StoreOperation) (work : StoreM α) :
    Keeps Bot.graph (onStore operation work) :=
  keeps_onStore (fun _ => rfl) operation

theorem disturbances_onStore {α : Type} (operation : StoreOperation) (work : StoreM α) :
    Keeps Bot.disturbances (onStore operation work) :=
  keeps_onStore (fun _ => rfl) operation

/-- A name that is one directly is found without a question to the store. -/
theorem run_find?_direct {id : NodeId} (found : bot.graph.find? Graph.root name = some id)
    (caller : CallerId) : (find? name caller).run bot = (.ok (some id), bot) := by
  rw [find?, CallerTables.find?, run_bind_ok _ (run_get bot), found]
  rfl

theorem target?_eq (bot : Bot) (caller : CallerId) (name : String) :
    bot.target? caller name =
      match bot.graph.find? Graph.root name with
      | some id => .ok (some id)
      | none => (bot.scopesOf caller).map (bot.graph.findUnder? Graph.root name) := by
  cases found : bot.graph.find? Graph.root name with
  | some id => exact congrArg Prod.fst (run_find?_direct found caller)
  | none =>
    have graph := graph_onStore .getScopes (Store.scopes caller) bot
    unfold target? find? CallerTables.find? scopesOf
    rw [run_bind_ok _ (run_get bot), found]
    change ((onStore .getScopes (Store.scopes caller) >>= _).run bot).1 =
      ((onStore .getScopes (Store.scopes caller)).run bot).1.map _
    rw [run_bind]
    rcases ran : (onStore .getScopes (Store.scopes caller)).run bot with ⟨result, asked⟩
    rw [ran] at graph
    cases result with
    | error failure => rfl
    | ok scopes => exact congrArg (fun g => Except.ok (g.findUnder? Graph.root name scopes)) graph

/-- Where a name leads depends on the graph and on the caller's scopes. -/
theorem target?_congr (graph : later.graph = bot.graph)
    (scopes : later.scopesOf caller = bot.scopesOf caller) (name : String) :
    later.target? caller name = bot.target? caller name := by
  rw [target?_eq, target?_eq, graph, scopes]

theorem target?_of_scopes {scopes : List String} (known : bot.scopesOf caller = .ok scopes)
    (name : String) :
    bot.target? caller name = .ok (bot.graph.findScoped? Graph.root name scopes) := by
  rw [target?_eq, known, Graph.findScoped?]
  cases bot.graph.find? Graph.root name with
  | some id => rfl
  | none => rfl

/-! ### One scope more -/

/-- The bot after a scope of a caller was to be added. -/
def withScope (bot : Bot) (caller : CallerId) (scope : String) : Bot :=
  ((onStore .addScope (Store.addScope caller scope)).run bot).2

/-- Whether a scope of a caller is added. -/
def addsScope (bot : Bot) (caller : CallerId) (scope : String) : Except Failure Bool :=
  ((onStore .addScope (Store.addScope caller scope)).run bot).1

/-- The bot after a scope of a caller was to be removed. -/
def withoutScope (bot : Bot) (caller : CallerId) (scope : String) : Bot :=
  ((onStore .removeScope (Store.removeScope caller scope)).run bot).2

/-- Whether a scope of a caller is removed. -/
def removesScope (bot : Bot) (caller : CallerId) (scope : String) : Except Failure Bool :=
  ((onStore .removeScope (Store.removeScope caller scope)).run bot).1

theorem graph_withScope (bot : Bot) (caller : CallerId) (scope : String) :
    (bot.withScope caller scope).graph = bot.graph :=
  graph_onStore .addScope _ bot

theorem graph_withoutScope (bot : Bot) (caller : CallerId) (scope : String) :
    (bot.withoutScope caller scope).graph = bot.graph :=
  graph_onStore .removeScope _ bot

/-- Whatever comes of adding a scope, the caller's list stays as it is or grows at its end. -/
theorem scopesOf_withScope (bot : Bot) (caller : CallerId) (scope : String) :
    (bot.withScope caller scope).scopesOf caller = bot.scopesOf caller ∨
      (bot.withScope caller scope).scopesOf caller =
        (bot.scopesOf caller).map (· ++ [Text.strip scope]) := by
  have disturbances : (bot.withScope caller scope).disturbances = bot.disturbances :=
    disturbances_onStore .addScope _ bot
  rw [scopesOf_eq, scopesOf_eq, disturbances]
  cases bot.disturbances.lookup .getScopes with
  | some failure => exact .inl rfl
  | none =>
    dsimp only
    unfold withScope
    rw [run_onStore]
    cases bot.disturbances.lookup .addScope with
    | some failure => exact .inl rfl
    | none =>
      have done := Store.found_run caller (.addScope scope) bot.store
      rw [Action.run, run_map] at done
      dsimp only at done ⊢
      rw [takeStore, Store.found_log, done]
      cases bot.store.found with
      | error failure => exact .inl rfl
      | ok users =>
        dsimp only [Except.map]
        cases edited : (Action.addScope scope).edit? (Users.key caller) users with
        | none => exact .inl rfl
        | some changed =>
          obtain ⟨filled, added⟩ := Option.ite_none_left_eq_some.mp edited
          exact .inr (congrArg Except.ok (Users.scopes_addScope filled added))

/-- A name leads where it did, unless it led nowhere: then it leads to what the new scope has. -/
theorem target?_withScope (bot : Bot) (caller : CallerId) (scope name : String) :
    (bot.withScope caller scope).target? caller name = bot.target? caller name ∨
      bot.target? caller name = .ok none ∧
        (bot.withScope caller scope).target? caller name =
          .ok (bot.graph.find? Graph.root (Graph.scopedName (Text.strip scope) name)) := by
  have graph := graph_withScope bot caller scope
  rcases scopesOf_withScope bot caller scope with same | grown
  · exact .inl (target?_congr graph same name)
  · cases known : bot.scopesOf caller with
    | error failure =>
      rw [known] at grown
      exact .inl (target?_congr graph (grown.trans known.symm) name)
    | ok scopes =>
      rw [known] at grown
      rw [target?_of_scopes grown, target?_of_scopes known, graph, Graph.findScoped?_append,
        Graph.findUnder?_singleton]
      cases bot.graph.findScoped? Graph.root name scopes with
      | some id => exact .inl rfl
      | none => exact .inr ⟨rfl, rfl⟩

/-! ### The scope taken back -/

/-- A scope that was added is removed again where nothing disturbs that, and the caller's list is
what it was. -/
theorem withoutScope_withScope (added : bot.addsScope caller scope = .ok true)
    (undisturbed : bot.disturbances.lookup .removeScope = none) :
    (bot.withScope caller scope).removesScope caller scope = .ok true ∧
      ((bot.withScope caller scope).withoutScope caller scope).scopesOf caller =
        bot.scopesOf caller := by
  obtain ⟨store, stored, taken⟩ := run_onStore_eq_ok (Prod.ext added rfl)
  have filled : Text.strip scope ≠ "" := by
    intro blank
    rw [Store.addScope, if_pos blank] at stored
    cases stored
  rw [Store.addScope, if_neg filled] at stored
  obtain ⟨users, changed, found, edited, foundLater, unhindered⟩ :=
    Store.of_change_eq_ok stored
  obtain ⟨restored, removed, same⟩ := Users.removeScope_addScope edited
  have foundTaken : (bot.takeStore store).store.found = .ok changed :=
    (Store.found_log store []).trans foundLater
  let removal (users : Users.Entries) : Option Users.Entries :=
    Users.removeScope users (Users.key caller) (Text.strip scope)
  have removes : removal changed = some restored := removed
  obtain ⟨last, ran, foundLast⟩ := Store.run_change_of_found foundTaken removes unhindered
  have done : (onStore .removeScope (Store.removeScope caller scope)).run (bot.takeStore store) =
      (.ok true, (bot.takeStore store).takeStore last) := by
    have undisturbed : (bot.takeStore store).disturbances.lookup .removeScope = none :=
      undisturbed
    rw [run_onStore, undisturbed]
    exact congrArg (fun ran => (ran.1, (bot.takeStore store).takeStore ran.2)) ran
  have reached : bot.withScope caller scope = bot.takeStore store := taken
  unfold removesScope withoutScope
  rw [reached, done]
  refine ⟨rfl, ?_⟩
  have foundFinally : ((bot.takeStore store).takeStore last).store.found = .ok restored :=
    (Store.found_log last []).trans foundLast
  rw [scopesOf_eq, scopesOf_eq, foundFinally, found]
  have disturbances :
      ((bot.takeStore store).takeStore last).disturbances = bot.disturbances := rfl
  rw [disturbances]
  cases bot.disturbances.lookup .getScopes with
  | some failure => rfl
  | none => exact congrArg Except.ok same

/-- Adding a scope never changes what a name means. Whatever comes of it, each name leads on to the
command that it led to, and a name that only now leads somewhere leads to what the scope has under
it. A name is taken for a command of its own before any scope is asked, and earlier scopes are asked
before later ones. Where the scope was added, removing it gives the caller back the same scopes and
every name the same meaning. -/
theorem scope_added (bot : Bot) (caller : CallerId) (scope : String) :
    (bot.withScope caller scope).graph = bot.graph ∧
      (∀ name id, bot.target? caller name = .ok (some id) →
        (bot.withScope caller scope).target? caller name = .ok (some id)) ∧
      (∀ name id, (bot.withScope caller scope).target? caller name = .ok (some id) →
        bot.target? caller name ≠ .ok (some id) →
        bot.target? caller name = .ok none ∧
          bot.graph.find? Graph.root (Graph.scopedName (Text.strip scope) name) = some id) ∧
      (∀ name id, bot.graph.find? Graph.root name = some id →
        (find? name caller).run bot = (.ok (some id), bot)) ∧
      (∀ scopes, bot.scopesOf caller = .ok scopes → ∀ name id?,
        bot.target? caller name = .ok id? ↔ bot.graph.Resolves scopes name id?) ∧
      (bot.addsScope caller scope = .ok true →
        bot.disturbances.lookup .removeScope = none →
        (bot.withScope caller scope).removesScope caller scope = .ok true ∧
          ((bot.withScope caller scope).withoutScope caller scope).scopesOf caller =
            bot.scopesOf caller ∧
          ∀ name, ((bot.withScope caller scope).withoutScope caller scope).target? caller name =
            bot.target? caller name) := by
  refine ⟨graph_withScope bot caller scope, ?_, ?_, ?_, ?_, ?_⟩
  · intro name id led
    rcases target?_withScope bot caller scope name with same | ⟨nowhere, -⟩
    · exact same.trans led
    · rw [nowhere] at led
      cases led
  · intro name id leads fresh
    rcases target?_withScope bot caller scope name with same | ⟨nowhere, reached⟩
    · exact absurd (same.symm.trans leads) fresh
    · exact ⟨nowhere, Except.ok.inj (reached.symm.trans leads)⟩
  · intro name id found
    exact run_find?_direct found caller
  · intro scopes known name id?
    rw [target?_of_scopes known, Except.ok.injEq]
    exact Graph.resolves_iff.symm
  · intro added undisturbed
    obtain ⟨removed, same⟩ := withoutScope_withScope added undisturbed
    have graph := (graph_withoutScope _ caller scope).trans (graph_withScope bot caller scope)
    exact ⟨removed, same, target?_congr graph same⟩

/-- A bot that knows two commands, `a` and below it `b`. -/
def nestedBot : Bot where
  graph := {
    nodes := #[
      Graph.helpOfHelpNode,
      { children := [(.text "a", 2)], prepared := true },
      { name := .text "a", children := [(.text "b", 3)], prepared := true },
      { name := .text "b", prepared := true }] }

/-- The lower command can be called by its own name as long as the upper one is a scope, and the
upper one can be called all the time. -/
theorem scope_added_nested :
    let caller : CallerId := .number 42
    let later := nestedBot.withScope caller " a "
    let last := later.withoutScope caller " a "
    nestedBot.addsScope caller " a " = .ok true ∧
      nestedBot.target? caller "a" = .ok (some 2) ∧ later.target? caller "a" = .ok (some 2) ∧
      nestedBot.target? caller "b" = .ok none ∧ later.target? caller "b" = .ok (some 3) ∧
      nestedBot.graph.find? Graph.root "a.b" = some 3 ∧
      last.scopesOf caller = .ok [] ∧ last.target? caller "b" = .ok none := by
  intro caller later last
  obtain ⟨-, keeps, leads, -, -, back⟩ := scope_added nestedBot caller " a "
  have added : nestedBot.addsScope caller " a " = .ok true :=
    eq_ok_of_toOption (by decide +kernel)
  have before : nestedBot.target? caller "a" = .ok (some 2) :=
    eq_ok_of_toOption (by decide +kernel)
  have missing : nestedBot.target? caller "b" = .ok none :=
    eq_ok_of_toOption (by decide +kernel)
  have reached : later.target? caller "b" = .ok (some 3) :=
    eq_ok_of_toOption (by decide +kernel)
  have scopes : nestedBot.scopesOf caller = .ok [] := eq_ok_of_toOption (by decide +kernel)
  have named : Graph.scopedName (Text.strip " a ") "b" = "a.b" := by decide +kernel
  obtain ⟨-, under⟩ := leads "b" 3 reached (by simp [missing])
  rw [named] at under
  obtain ⟨-, listed, restored⟩ := back added rfl
  exact ⟨added, before, keeps _ _ before, missing, reached, under, listed.trans scopes,
    (restored "b").trans missing⟩

end Bot
end Switchboard
