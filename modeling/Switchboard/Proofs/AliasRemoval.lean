import Switchboard.Proofs.AliasTable
import Switchboard.Proofs.QuotedCall
import Switchboard.Proofs.RootHelp

/-!
Taking an alias back. A caller without aliases who sets one can remove it with the next line, unless
the alias is in the way of the very command that removes it: the first part of a name is looked up
among the aliases before anything else, so an alias for `my` makes `my.alias.del` name something
else.
-/
namespace Switchboard

open Work

/-- A graph in which everybody can call the commands that set and remove aliases. -/
structure Graph.OffersAliases (g : Graph) : Prop where
  set : g.offered? "my.alias.set" = some (.setAlias, [.caller, .string, .string])
  del : g.offered? "my.alias.del" = some (.removeAlias, [.caller, .string])

namespace Bot

variable {bot later : Bot} {users : Users.Entries} {caller : CallerId} {message : Message}

/-- New bots have these commands among the builtin ones. -/
theorem offersAliases_withBuiltins (new : bot.graph = Graph.start) :
    bot.withBuiltins.graph.OffersAliases := by
  have same : bot.withBuiltins.graph = (withBuiltins {}).graph := graph_withBuiltins new
  rw [same]
  exact ⟨by decide +kernel, by decide +kernel⟩

/-- The aliases that a store tells of when it is asked about a caller. -/
def aliasesOf (bot : Bot) (caller : CallerId) : Except Failure (Table String) :=
  ((Store.aliases caller).run bot.store).1

theorem aliasesOf_eq (bot : Bot) (caller : CallerId) :
    bot.aliasesOf caller = bot.store.found.map fun users =>
      Users.aliases users (Users.key caller) :=
  Store.run_read_fst _ _

/-! ### What a line finds -/

/-- All of a bot that decides what a line without variables comes to. -/
structure Sight where
  config : Config
  graph : Graph
  disturbances : List (StoreOperation × Failure)
  found : Except Failure Users.Entries

def sight (bot : Bot) : Sight where
  config := bot.config
  graph := bot.graph
  disturbances := bot.disturbances
  found := bot.store.found

theorem silent_sight : Silent sight :=
  ⟨fun _ _ => rfl, fun _ _ => rfl⟩

theorem users?_eq_iff_found {store : Store} :
    store.users? = some users ↔ store.found = .ok users :=
  Store.users?_eq_some.trans Store.found_eq_ok.symm

theorem sight_of_frame (reads : bot.Reads users) (same : later.frame = bot.frame) :
    later.sight = bot.sight := by
  have config : later.config = bot.config := congrArg Frame.config same
  have graph : later.graph = bot.graph := congrArg Frame.graph same
  have disturbances : later.disturbances = bot.disturbances :=
    congrArg Frame.disturbances same
  have found : later.store.found = bot.store.found := by
    rw [users?_eq_iff_found.mp reads.found, users?_eq_iff_found.mp (reads.of_frame same).found]
  rw [sight, sight, config, graph, disturbances, found]

theorem Reads.of_sight {changed : Users.Entries} (reads : bot.Reads users)
    (same : later.sight = { bot.sight with found := .ok changed }) : later.Reads changed := by
  have disturbances : later.disturbances = bot.disturbances := congrArg Sight.disturbances same
  refine ⟨users?_eq_iff_found.mpr (congrArg Sight.found same), ?_⟩
  rw [disturbances]
  exact reads.undisturbed

/-- The sight after an alias was set or removed. -/
def Sight.aliasSet (sight : Sight) (caller : CallerId) (name : String) (command : Option String) :
    Sight :=
  { sight with found := sight.found.map (Action.aliasSet (Users.key caller) name command) }

/-- An alias is set or removed unless the operation is disturbed. -/
theorem sight_setAlias (caller : CallerId) (name : String) (command : Option String) (bot : Bot) :
    ((onStore .setAlias (Store.setAlias caller name command)).run bot).2.sight =
      if (bot.disturbances.lookup .setAlias).isSome then bot.sight
      else bot.sight.aliasSet caller name command := by
  rw [run_onStore]
  cases bot.disturbances.lookup .setAlias with
  | some failure => rfl
  | none =>
    have done := Store.found_run caller (.setAlias name command) bot.store
    rw [Action.run, run_map] at done
    dsimp only
    rw [sight, takeStore, Store.found_log, done]
    rfl

/-- The command that sets an alias does so, or leaves everything as it is. -/
theorem sight_run_setAlias (caller : CallerId) (name target : String) (bot : Bot) :
    let last := ((Builtin.setAlias.run
      [.caller caller, .value (.text name), .value (.text target)]).run bot).2
    last.sight = bot.sight ∨
      bot.disturbances.lookup .setAlias = none ∧
        last.sight = bot.sight.aliasSet caller name (some target) := by
  unfold Builtin.run
  dsimp only
  split
  · exact .inl rfl
  have known : (Builtin.isKnown target).run bot =
      (.ok (bot.graph.find? Graph.root target).isSome, bot) := rfl
  rw [run_bind_ok _ known]
  split
  · exact .inl rfl
  have set := sight_setAlias caller name (some target) bot
  rw [Keeps.after_bind sight fun _ => .pure _]
  cases disturbed : bot.disturbances.lookup .setAlias with
  | some failure =>
    rw [disturbed] at set
    exact .inl set
  | none =>
    rw [disturbed] at set
    exact .inr ⟨rfl, set⟩

/-- The command that removes an alias does so where nothing disturbs it. -/
theorem sight_run_removeAlias (undisturbed : bot.disturbances.lookup .setAlias = none)
    (caller : CallerId) (name : String) :
    ((Builtin.removeAlias.run [.caller caller, .value (.text name)]).run bot).2.sight =
      bot.sight.aliasSet caller name none := by
  have set := sight_setAlias caller name none bot
  rw [undisturbed] at set
  unfold Builtin.run
  dsimp only
  rw [Keeps.after_bind sight fun _ => .pure _]
  exact set

end Bot

namespace Services

open Switchboard.Bot Switchboard.Line

variable {others : Handler → List Argument → BotM Outcome} {bot : Bot} {users : Users.Entries}
  {message : Message} {command : String} {words : List String} {id : NodeId} {builtin : Builtin}

/-- A quoted line for a builtin command leads to a call of it if its caller is admitted, and is
without effect if not. -/
theorem after_quotedLine (others : Handler → List Argument → BotM Outcome)
    (reads : bot.Reads users) (isWord : IsWord command)
    (text : message.text = quotedLine command words)
    (found : bot.graph.findScoped? Graph.root ((bot.profile users message.caller).resolved command)
      (bot.profile users message.caller).scopes = some id)
    (offered : (bot.graph.node id).offered? =
      some (builtin, .caller :: List.replicate words.length .string)) :
    let arguments : List Argument :=
      .caller message.caller :: words.map fun word => .value (.text word)
    (¬ (bot.profile users message.caller).IsAdmitted ∧
        ((servicesWith others).after bot message).sight = bot.sight) ∨
      (bot.profile users message.caller).IsAdmitted ∧ ∃ later : Bot, later.sight = bot.sight ∧
        ((servicesWith others).after bot message).sight =
          ((builtin.run arguments).run later).2.sight := by
  intro arguments
  have received : (bot.receive message).Reads users := reads.of_frame rfl
  obtain ⟨later, decided, frame⟩ := Bot.run_gate received message
  have same : later.sight = bot.sight := sight_of_frame reads frame
  by_cases admitted : (bot.profile users message.caller).IsAdmitted
  · have accepted := Profile.gate_quotedLine isWord text admitted found offered
    refine .inr ⟨admitted, later, same, ?_⟩
    rw [after_admitted (servicesWith others) silent_sight (decided.trans (congrArg (·, later)
      accepted))]
    rfl
  · obtain ⟨fault, refused⟩ := Profile.gate_refused isWord text admitted found offered
    refine .inl ⟨admitted, ?_⟩
    rw [after_refused (servicesWith others) silent_sight (decided.trans (congrArg (·, later)
      refused)), same]

/-- The bot after a line that sets an alias, quoted. -/
def afterAliasSet (services : Services) (bot : Bot) (message : Message) (name target : String) :
    Bot :=
  services.after bot { message with text := quotedLine "my.alias.set" [name, target] }

/-- The bot after a line that removes an alias, quoted. -/
def afterAliasRemoval (services : Services) (bot : Bot) (message : Message) (name : String) : Bot :=
  services.after bot { message with text := quotedLine "my.alias.del" [name] }

/-- Setting the first alias of a caller succeeds for an admitted caller only, or nothing happens. -/
theorem sight_afterAliasSet (others : Handler → List Argument → BotM Outcome)
    (reads : bot.Reads users) (offers : bot.graph.OffersAliases)
    (free : Users.aliases users (Users.key message.caller) = []) (name target : String) :
    let first := (servicesWith others).afterAliasSet bot message name target
    first.sight = bot.sight ∨
      (bot.profile users message.caller).IsAdmitted ∧
        bot.disturbances.lookup .setAlias = none ∧
        first.sight = bot.sight.aliasSet message.caller name (some target) := by
  intro first
  obtain ⟨id, found, offered⟩ := Option.bind_eq_some_iff.mp offers.set
  have resolved : (bot.profile users message.caller).resolved "my.alias.set" = "my.alias.set" := by
    have free : (bot.profile users message.caller).alias? "my" = none :=
      Users.alias?_of_aliases free "my"
    exact congrArg (withHead "my.alias.set") free
  have reached : bot.graph.findScoped? Graph.root
      ((bot.profile users message.caller).resolved "my.alias.set")
      (bot.profile users message.caller).scopes = some id := by
    rw [resolved, Graph.findScoped?, found, Option.some_or]
  let line : Message := { message with text := quotedLine "my.alias.set" [name, target] }
  have text : line.text = quotedLine "my.alias.set" [name, target] := rfl
  rcases after_quotedLine others reads ⟨by decide, by decide⟩ text reached offered with
    ⟨-, same⟩ | ⟨admitted, later, same, ran⟩
  · exact .inl same
  · have disturbances : later.disturbances = bot.disturbances := congrArg Sight.disturbances same
    rcases sight_run_setAlias message.caller name target later with
      idle | ⟨undisturbed, set⟩
    · exact .inl (ran.trans (idle.trans same))
    · refine .inr ⟨admitted, disturbances ▸ undisturbed, ?_⟩
      rw [← same, ← set]
      exact ran

/-- Where the command that removes aliases is found, an admitted caller removes one with it. -/
theorem sight_afterAliasRemoval (others : Handler → List Argument → BotM Outcome)
    (reads : bot.Reads users) (admitted : (bot.profile users message.caller).IsAdmitted)
    (undisturbed : bot.disturbances.lookup .setAlias = none) (name : String)
    (found : bot.graph.findScoped? Graph.root
      ((bot.profile users message.caller).resolved "my.alias.del")
      (bot.profile users message.caller).scopes = some id)
    (offered : (bot.graph.node id).offered? = some (.removeAlias, [.caller, .string])) :
    ((servicesWith others).afterAliasRemoval bot message name).sight =
      bot.sight.aliasSet message.caller name none := by
  let line : Message := { message with text := quotedLine "my.alias.del" [name] }
  have text : line.text = quotedLine "my.alias.del" [name] := rfl
  rcases after_quotedLine others reads ⟨by decide, by decide⟩ text found offered with
    ⟨denied, -⟩ | ⟨-, later, same, ran⟩
  · exact absurd admitted denied
  · have disturbances : later.disturbances = bot.disturbances := congrArg Sight.disturbances same
    rw [← same, ← sight_run_removeAlias (disturbances ▸ undisturbed) message.caller name]
    exact ran

/-- Once an alias was set, the command that removes aliases is still where it was, unless the alias
is in its way. -/
theorem find_removal {g : Graph} (offers : g.OffersAliases) (profile : Profile) {key : String}
    (free : Users.aliases users key = []) (name target : String)
    (aliased : profile.alias? = Users.alias? (Action.aliasSet key name (some target) users) key)
    (leads : Text.strip name = "my" →
      g.findScoped? Graph.root (Text.strip target ++ ".alias.del") profile.scopes =
        g.find? Graph.root "my.alias.del") :
    ∃ id, g.findScoped? Graph.root (profile.resolved "my.alias.del") profile.scopes = some id ∧
      (g.node id).offered? = some (.removeAlias, [.caller, .string]) := by
  obtain ⟨id, found, offered⟩ := Option.bind_eq_some_iff.mp offers.del
  refine ⟨id, ?_, offered⟩
  have head : profile.resolved "my.alias.del" =
      withHead "my.alias.del"
        (Users.alias? (Action.aliasSet key name (some target) users) key "my") :=
    congrArg (withHead "my.alias.del") (congrFun aliased "my")
  rcases Action.alias?_aliasSet free name target "my" with unaliased | ⟨named, leading⟩
  · rw [head, unaliased, withHead, Graph.findScoped?, found, Option.some_or]
  · rw [head, leading, ← found, ← leads named]
    rfl

/-- Setting an alias changes nothing about who is admitted. -/
theorem level_of_aliasSet {first : Bot} {caller : CallerId} {name target : String}
    (config : first.config = bot.config) :
    (first.profile (Action.aliasSet (Users.key caller) name (some target) users) caller).level =
      (bot.profile users caller).level := by
  rw [Bot.profile, Bot.profile, config, Action.level?_aliasSet name (some target)]

/-- If the first alias of a caller was stored, then by an admitted caller, and it is all that the
line changed. -/
theorem sight_of_stored (others : Handler → List Argument → BotM Outcome)
    (reads : bot.Reads users) (offers : bot.graph.OffersAliases)
    (free : Users.aliases users (Users.key message.caller) = []) (name target : String)
    (stores : ((servicesWith others).afterAliasSet bot message name target).aliasesOf
      message.caller ≠ .ok []) :
    (bot.profile users message.caller).IsAdmitted ∧
      bot.disturbances.lookup .setAlias = none ∧
      ((servicesWith others).afterAliasSet bot message name target).sight =
        { bot.sight with
          found := .ok (Action.aliasSet (Users.key message.caller) name (some target) users) } := by
  have found := users?_eq_iff_found.mp reads.found
  rcases sight_afterAliasSet others reads offers free name target with
    same | ⟨admitted, undisturbed, set⟩
  · have still := (congrArg Sight.found same).trans found
    dsimp only [sight] at still
    rw [aliasesOf_eq, still] at stores
    exact absurd (congrArg Except.ok free) stores
  · refine ⟨admitted, undisturbed, ?_⟩
    rw [set, Sight.aliasSet, Bot.sight, found]
    rfl

/-- A caller without aliases who sets one has none again after the next line, which removes it. For
an alias under the name of `my` the target has to lead to the same command. -/
theorem alias_taken_back (others : Handler → List Argument → BotM Outcome) {bot : Bot}
    {users : Users.Entries} (reads : bot.Reads users) (offers : bot.graph.OffersAliases)
    (message : Message) (name target : String)
    (free : bot.aliasesOf message.caller = .ok [])
    (stores : ((servicesWith others).afterAliasSet bot message name target).aliasesOf
      message.caller ≠ .ok [])
    (leads : Text.strip name = "my" →
      bot.graph.findScoped? Graph.root (Text.strip target ++ ".alias.del")
          (Users.scopes users (Users.key message.caller)) =
        bot.graph.find? Graph.root "my.alias.del") :
    ((servicesWith others).afterAliasRemoval
      ((servicesWith others).afterAliasSet bot message name target) message name).aliasesOf
        message.caller = .ok [] := by
  have found := users?_eq_iff_found.mp reads.found
  rw [aliasesOf_eq, found] at free
  replace free : Users.aliases users (Users.key message.caller) = [] := Except.ok.inj free
  obtain ⟨admitted, undisturbed, sight⟩ := sight_of_stored others reads offers free name target
    stores
  generalize (servicesWith others).afterAliasSet bot message name target = first at sight ⊢
  let changed := Action.aliasSet (Users.key message.caller) name (some target) users
  have config : first.config = bot.config := congrArg Sight.config sight
  have graph : first.graph = bot.graph := congrArg Sight.graph sight
  have disturbances : first.disturbances = bot.disturbances := congrArg Sight.disturbances sight
  have scopes : (first.profile changed message.caller).scopes =
      Users.scopes users (Users.key message.caller) := by
    rw [Bot.profile, Action.scopes_aliasSet name (some target)]
  have admittedFirst : (first.profile changed message.caller).IsAdmitted := by
    rw [Profile.IsAdmitted, level_of_aliasSet config]
    exact admitted
  rw [← graph, ← scopes] at leads
  obtain ⟨id, reached, offered⟩ := find_removal (graph ▸ offers)
    (first.profile changed message.caller) free name target rfl leads
  have removed := sight_afterAliasRemoval others (reads.of_sight sight) admittedFirst
    (disturbances ▸ undisturbed) name reached offered
  rw [sight] at removed
  have left : ((servicesWith others).afterAliasRemoval first message name).store.found =
      .ok (Action.aliasSet (Users.key message.caller) name none changed) :=
    congrArg Sight.found removed
  rw [aliasesOf_eq, left]
  exact congrArg Except.ok (Action.aliases_aliasSet_removed free name (some target))

/-- The entries of new bots can be read, and there are none. -/
theorem reads_withBuiltins : (withBuiltins {}).Reads [] := by
  have found : (withBuiltins {}).store.users? = ({} : Bot).store.users? :=
    view_withBuiltins (fun bot => bot.store.users?) (fun _ _ => rfl) {}
  have disturbances : (withBuiltins {}).disturbances = ({} : Bot).disturbances :=
    view_withBuiltins Bot.disturbances (fun _ _ => rfl) {}
  constructor
  · rw [found]
    rfl
  · rw [disturbances]
    exact fun _ _ => rfl

theorem aliasesOf_withBuiltins (caller : CallerId) :
    (withBuiltins {}).aliasesOf caller = .ok [] := by
  rw [aliasesOf_eq, users?_eq_iff_found.mp reads_withBuiltins.found]
  rfl

/-- A line of a caller, to be given a text. -/
def anyLine : Message :=
  { text := "", caller := .number 42 }

/-- A new bot after an alias was set. -/
def withAlias (name target : String) : Bot :=
  (servicesWith outcomeOf).afterAliasSet (withBuiltins {}) anyLine name target

/-- An alias for a command is taken back. -/
theorem alias_taken_back_direct :
    (withAlias "p" "perm.get").aliasesOf (.number 42) = .ok [("p", "perm.get")] ∧
      ((servicesWith outcomeOf).afterAliasRemoval (withAlias "p" "perm.get") anyLine
        "p").aliasesOf (.number 42) = .ok [] := by
  have stores : (withAlias "p" "perm.get").aliasesOf (.number 42) = .ok [("p", "perm.get")] :=
    eq_ok_of_toOption (by decide +kernel)
  have filled : (withAlias "p" "perm.get").aliasesOf (.number 42) ≠ .ok [] := by
    rw [stores]
    simp
  have named : Text.strip "p" = "my" → False := fun named => absurd named (by decide)
  exact ⟨stores, alias_taken_back outcomeOf reads_withBuiltins (offersAliases_withBuiltins rfl)
    anyLine "p" "perm.get" (aliasesOf_withBuiltins _) filled fun same => (named same).elim⟩

/-- An alias for `my` is in the way of the command that would take it back. -/
theorem alias_in_the_way :
    (withBuiltins {}).Reads [] ∧ (withBuiltins {}).graph.OffersAliases ∧
      (withBuiltins {}).aliasesOf (.number 42) = .ok [] ∧
      (withAlias "my" "perm.get").aliasesOf (.number 42) = .ok [("my", "perm.get")] ∧
      ((servicesWith outcomeOf).afterAliasRemoval (withAlias "my" "perm.get") anyLine
        "my").aliasesOf (.number 42) = .ok [("my", "perm.get")] := by
  refine ⟨reads_withBuiltins, offersAliases_withBuiltins rfl, aliasesOf_withBuiltins _, ?_, ?_⟩
  · exact eq_ok_of_toOption (by decide +kernel)
  · exact eq_ok_of_toOption (by decide +kernel)

end Services
end Switchboard
