import Switchboard.Bot.Dispatch
import Switchboard.Proofs.LoadEffect

/-!
What loading and unloading one plugin does to the keys of the root that belong to others. A plugin
overwrites the keys that it answers to, and whatever stands under its name is taken away with all of
its keys, be it the plugin's own command or another one that answers to that name. Plugins whose
keys are their own do not get in each other's way.
-/
namespace Switchboard

open Work

/-- A bot with the command that was last loaded under each name. -/
structure Roster where
  bot : Bot
  last : Labelled NodeId := []

namespace Roster

/-- The command that a key of the root leads to. -/
def resolves (roster : Roster) (key : Label) : Option NodeId :=
  (roster.bot.graph.node Graph.root).children.get? key

/-- What the command at `id` answers to besides its name. -/
def answers (roster : Roster) (id : NodeId) : List Label :=
  roster.bot.graph.answers id

/-- Loading a plugin, anew or again, or taking a command out; the index is the command that was
loaded under the name. -/
inductive Step (before : Roster) (name : Label) : Option NodeId → Roster → Prop
  | load {entry : String × Plugin.Module} {id : NodeId} {later : Bot}
    (known : entry.2.IsKnownIn before.bot.graph)
    (done : (Plugin.loadOne entry).run before.bot = (.ok (some name), later))
    (found : (later.graph.node Graph.root).children.get? name = some id) :
    Step before name (some id) { bot := later, last := before.last.insert name id }
  | unload {removed : Bool} {later : Bot}
    (done : (Plugin.unload name).run before.bot = (.ok removed, later)) :
    Step before name none { before with bot := later }

/-- The bots that come about by loading and unloading plugins. -/
inductive Reached : Roster → Prop
  | start {bot : Bot} (rooted : bot.graph.IsRooted) : Reached { bot }
  | step {before after : Roster} {name : Label} {new : Option NodeId} (earlier : Reached before)
    (step : before.Step name new after) : Reached after

variable {before after : Roster} {name key : Label} {new : Option NodeId} {other : NodeId}

/-! ### One step -/

/-- What one step does to the graph: the command under the name is taken away, and a new one is put
in. -/
structure Turns (before after : Roster) (name : Label) (new : Option NodeId) : Prop where
  rooted : after.bot.graph.IsRooted
  resolves : ∀ key, after.resolves key =
    (new.filter fun id => key.isAmong (after.answers id) || name.same key).or
      (if name ≠ helpLabel ∧ before.resolves key = before.resolves name then none
        else before.resolves key)

theorem graph_unload (name : Label) (bot : Bot) :
    ((Plugin.unload name).run bot).2.graph = (bot.graph.unlink Graph.root name).2 := by
  unfold Plugin.unload
  rw [run_bind, Bot.run_onGraph, run_modifyGet]
  dsimp only
  split <;> rfl

theorem Step.turns (step : before.Step name new after) (rooted : before.bot.graph.IsRooted) :
    before.Turns after name new := by
  cases step with
  | @load entry id later known done found =>
    have loads := Plugin.loads_loadOne rooted known
    rw [done] at loads
    generalize same : later.graph = graph at loads found
    cases loads with
    | @linked made middle ready setUp keyed =>
      obtain ⟨-, rests, prepared⟩ := setUp
      have inside := Graph.lt_size_of_prepared prepared
      have here : made.2 = id := by
        rw [Graph.get?_installed rests.rooted, Label.same_refl] at found
        split at found <;> exact Option.some.inj found
      have answers : (middle.graph.installed made.1 id).answers = middle.graph.answers :=
        Graph.answers_withChildren rests.rooted.inside _
      constructor
      · rw [same]
        exact Graph.isRooted_installed rests.rooted inside
      · intro key
        unfold Roster.resolves Roster.answers
        rw [same, Graph.get?_installed rests.rooted, rests.children, here, answers]
        by_cases answered : key.isAmong (middle.graph.answers id) = true
        · simp [answered, Option.filter]
        · by_cases named : made.1.same key = true <;> simp [answered, named, Option.filter]
  | @unload removed later done =>
    have graph : later.graph = (before.bot.graph.unlink Graph.root name).2 := by
      rw [← graph_unload name before.bot, done]
    constructor
    · rw [graph]
      exact Graph.isRooted_unlink rooted
    · intro key
      unfold Roster.resolves
      rw [graph, Graph.get?_unlink rooted]
      simp

theorem Reached.rooted (reached : before.Reached) : before.bot.graph.IsRooted := by
  induction reached with
  | start rooted => exact rooted
  | step _ step ih => exact (step.turns ih).rooted

/-- A key that a step is not about: it leads to a command, it is not the name, and the command is
not the one that was last loaded under the name. -/
def IsForeign (before : Roster) (name key : Label) (other : NodeId) : Prop :=
  before.resolves key = some other ∧ name.same key = false ∧ before.last.get? name ≠ some other

/-! ### Plugins with keys of their own -/

/-- Keys that are divided among names: of each name that has any, the name itself is one, and no two
names have the same key. -/
structure IsDivision (owns : Label → Label → Prop) : Prop where
  own : ∀ name key, owns name key → owns name name
  apart : ∀ name other key same, owns name key → owns other same → key.same same = true →
    name.same other = true

/-- A step that keeps to the keys of its name, with a command that is not under another name. -/
structure KeepsTo (owns : Label → Label → Prop) (before after : Roster) (name : Label)
    (new : Option NodeId) : Prop where
  named : owns name name
  ordinary : name ≠ helpLabel
  keys : ∀ id, new = some id → ∀ key, key.isAmong (after.answers id) = true → owns name key
  fresh : ∀ id, new = some id → ∀ other, name.same other = false →
    before.last.get? other ≠ some id

/-- The bots that come about by steps that keep to their keys. -/
inductive ReachedWithin (owns : Label → Label → Prop) : Roster → Prop
  | start {bot : Bot} (rooted : bot.graph.IsRooted)
    (free : ∀ name key, owns name key → resolves { bot } key = none) : ReachedWithin owns { bot }
  | step {before after : Roster} {name : Label} {new : Option NodeId}
    (earlier : ReachedWithin owns before) (step : before.Step name new after)
    (keepsTo : KeepsTo owns before after name new) : ReachedWithin owns after

/-- A bot whose plugins stand under keys of their own: what an owned key leads to was last loaded
under the name that owns it and stands under that name, and under no two names the same command was
loaded. -/
structure IsOrderly (owns : Label → Label → Prop) (roster : Roster) : Prop where
  rooted : roster.bot.graph.IsRooted
  led : ∀ name key other, owns name key → roster.resolves key = some other →
    roster.last.get? name = some other ∧ roster.resolves name = some other
  distinct : ∀ name other id, roster.last.get? name = some id → roster.last.get? other = some id →
    name.same other = true

/-- The commands that were last loaded, after a step. -/
theorem Step.last_eq (step : before.Step name new after) (other : Label) :
    after.last.get? other =
      (new.filter fun _ => name.same other).or (before.last.get? other) := by
  cases step with
  | load known done found =>
    rw [Labelled.get?_insert]
    cases name.same other <;> rfl
  | unload done => rfl

variable {owns : Label → Label → Prop}

/-- A key that no new command answers to and that is not the name. -/
theorem KeepsTo.untaken (keepsTo : KeepsTo owns before after name new) (division : IsDivision owns)
    {owner : Label} (owned : owns owner key) (apart : name.same owner = false) :
    (new.filter fun id => key.isAmong (after.answers id) || name.same key) = none := by
  apply Option.eq_none_iff_forall_ne_some.mpr
  intro id taken
  obtain ⟨loaded, hit⟩ := Option.filter_eq_some_iff.mp taken
  have same : name.same owner = true := by
    rcases Bool.or_eq_true _ _ |>.mp hit with answered | named
    · exact division.apart name owner key key (keepsTo.keys id loaded key answered) owned
        (Label.same_refl key)
    · exact division.apart name owner name key keepsTo.named owned named
  exact Bool.false_ne_true (apart.symm.trans same)

theorem IsOrderly.led_step (orderly : before.IsOrderly owns) (division : IsDivision owns)
    (step : before.Step name new after) (keepsTo : KeepsTo owns before after name new)
    {owner : Label} (owned : owns owner key) (led : after.resolves key = some other) :
    after.last.get? owner = some other ∧ after.resolves owner = some other := by
  have turns := step.turns orderly.rooted
  rw [turns.resolves] at led
  cases same : name.same owner with
  | true =>
    rcases Option.or_eq_some_iff.mp led with taken | ⟨-, left⟩
    · obtain ⟨rfl, -⟩ := Option.filter_eq_some_iff.mp taken
      rw [step.last_eq, turns.resolves]
      simp [same, Option.filter]
    · -- What was under the name is gone, and so is all that was under its keys.
      split at left
      · cases left
      · rename_i stays
        have old := (orderly.led owner key other owned left).2
        have equal : before.resolves name = before.resolves owner :=
          Labelled.get?_congr same _
        exact absurd ⟨keepsTo.ordinary, left.trans (equal.trans old).symm⟩ stays
  | false =>
    rw [keepsTo.untaken division owned same, Option.none_or] at led
    split at led
    · cases led
    · obtain ⟨last, old⟩ := orderly.led owner key other owned led
      constructor
      · rw [step.last_eq, same]
        cases new <;> exact last
      · rw [turns.resolves, keepsTo.untaken division (division.own owner key owned) same,
          Option.none_or, if_neg, old]
        rintro ⟨-, equal⟩
        have mine := (orderly.led name name other keepsTo.named (equal.symm.trans old)).1
        exact Bool.false_ne_true (same.symm.trans (orderly.distinct name owner other mine last))

theorem IsOrderly.distinct_step (orderly : before.IsOrderly owns)
    (step : before.Step name new after) (keepsTo : KeepsTo owns before after name new)
    {one another : Label} {id : NodeId} (here : after.last.get? one = some id)
    (there : after.last.get? another = some id) : one.same another = true := by
  rw [step.last_eq] at here there
  cases new with
  | none => exact orderly.distinct one another id here there
  | some loaded =>
    have fresh := keepsTo.fresh loaded rfl
    cases first : name.same one <;> cases second : name.same another <;>
      simp only [first, second, Option.filter_some, Bool.false_eq_true, if_true, if_false,
        Option.none_or, Option.some_or] at here there
    · exact orderly.distinct one another id here there
    · exact absurd (here.trans there.symm) (fresh one first)
    · exact absurd (there.trans here.symm) (fresh another second)
    · exact Label.same_trans (Label.same_comm name one ▸ first) second

theorem IsOrderly.step (orderly : before.IsOrderly owns) (division : IsDivision owns)
    (step : before.Step name new after) (keepsTo : KeepsTo owns before after name new) :
    after.IsOrderly owns where
  rooted := (step.turns orderly.rooted).rooted
  led _ _ _ owned led := orderly.led_step division step keepsTo owned led
  distinct _ _ _ here there := orderly.distinct_step step keepsTo here there

theorem ReachedWithin.isOrderly (division : IsDivision owns)
    (reached : ReachedWithin owns before) : before.IsOrderly owns := by
  induction reached with
  | start rooted free =>
    refine ⟨rooted, fun name key other owned led => ?_, fun _ _ _ here => nomatch here⟩
    cases (free name key owned).symm.trans led
  | step _ step keepsTo ih => exact ih.step division step keepsTo

/-- Plugins that have keys of their own never get in each other's way: no step changes what a key
leads to, unless it is the name or led to the command that was last loaded under the name. -/
theorem ReachedWithin.resolves_of_isForeign (division : IsDivision owns)
    (reached : ReachedWithin owns before) (step : before.Step name new after)
    (keepsTo : KeepsTo owns before after name new) (foreign : before.IsForeign name key other) :
    after.resolves key = some other := by
  obtain ⟨led, apart, away⟩ := foreign
  have orderly := reached.isOrderly division
  have untaken : (new.filter fun id => key.isAmong (after.answers id) || name.same key) = none := by
    apply Option.eq_none_iff_forall_ne_some.mpr
    intro id taken
    obtain ⟨loaded, hit⟩ := Option.filter_eq_some_iff.mp taken
    rw [apart, Bool.or_false] at hit
    exact away (orderly.led name key other (keepsTo.keys id loaded key hit) led).1
  rw [(step.turns orderly.rooted).resolves, untaken, Option.none_or, if_neg, led]
  rintro ⟨-, equal⟩
  exact away (orderly.led name name other keepsTo.named (equal.symm.trans led)).1

end Roster

/-! ### Bots to start from -/

namespace Graph

variable {g : Graph} {id : NodeId}

theorem IsRooted.setChild (rooted : g.IsRooted) (known : id < g.size) (label : Label) :
    (g.setChild root label id).IsRooted := by
  change (g.withChildren root fun children => children.insert label id).IsRooted
  apply rooted.withChildren
  · intro entry member
    rcases Labelled.mem_insert member with same | old
    · rw [same]
      exact known
    · exact rooted.sound.known root entry old
  · exact rooted.once.insert label id

/-- What holds of rooted graphs and goes on to hold while commands are made and put under the
root. -/
structure Lasts (holds : Graph → Prop) : Prop where
  rooted : ∀ g, holds g → g.IsRooted
  stays : ∀ g later, holds g → Stays g later → holds later
  put : ∀ g id label, holds g → id < g.size → holds (g.setChild root label id)

theorem lasts_isRooted : Lasts IsRooted where
  rooted _ rooted := rooted
  stays _ _ rooted stays := stays.isRooted rooted
  put _ _ label rooted inside := rooted.setChild inside label

/-- Registering a command keeps what lasts, whether or not it fails. -/
theorem Lasts.leads_register {holds : Graph → Prop} (lasts : Lasts holds) (held : holds g)
    {spec : Spec} (known : ∀ id, .node id ∈ spec.lives → id < g.size) (name : Label) :
    Leads (· = g) (fun _ => holds) holds (do
      let id ← build name spec
      link root name id
      return id) := by
  have rooted := lasts.rooted g held
  have builds := builds_build g name spec known g (.refl rooted.sound)
  refine (builds.weaken (fun _ same => same) (fun _ _ led => led)
    fun later adds => lasts.stays g later held (.of_adds adds)).bind fun id => ?_
  rintro built ⟨adds, inside⟩
  have built_holds := lasts.stays g built held (.of_adds adds)
  have prepares := prepares_prepare adds.sound inside name
  have put (later : Graph) (label : Label) (held : holds later ∧ id < later.size) :
      holds (later.setChild root label id) ∧ id < (later.setChild root label id).size := by
    refine ⟨lasts.put later id label held.1 held.2, ?_⟩
    rw [Graph.setChild, size_update]
    exact held.2
  have linked : Leads (· = built) (fun _ later => holds later ∧ id < later.size) holds
      (link root name id) := by
    refine Leads.via (fun _ later => holds later ∧ id < later.size) ?_ fun _ => ?_
    · refine prepares.weaken (fun _ same => same) (fun _ later led => ⟨?_, ?_⟩)
        fun later advance => lasts.stays built later built_holds (.of_advance advance)
      · exact lasts.stays built later built_holds (.of_advance led.1.toAdvance)
      · exact lt_size_of_prepared led.2
    · exact Leads.via (fun _ later => holds later ∧ id < later.size)
        (.modify fun later held => put later name held)
        fun _ => leads_addAliases put fun _ held => held.1
  exact (linked.bind fun _ => .pure fun _ held => held.1) built rfl

end Graph

namespace Bot

theorem lives_command (builtin : Builtin) (help : Option String) (aliases arguments : List String) :
    (Builtin.command builtin help aliases arguments).lives = [.handler (.builtin builtin)] := by
  cases help <;>
    simp [Builtin.command, Datum.lives, Datum.livesOfFields, Spec.livesOfItems_texts]

/-- No command that every bot has hands in a finished command. -/
theorem lives_builtins : ∀ entry ∈ Builtin.commands, ∀ id, .node id ∉ entry.2.lives := by
  simp [Builtin.commands, Builtin.variableCommands, Builtin.aliasCommands, Builtin.scopeCommands,
    Builtin.levelCommands, Builtin.group, Datum.lives, Datum.livesOfFields, lives_command]

theorem lasts_withBuiltins {holds : Graph → Prop} (lasts : Graph.Lasts holds) {bot : Bot}
    (held : holds bot.graph) : holds bot.withBuiltins.graph := by
  let still : Bot → Prop := fun later => holds later.graph
  have each (entry : String × Spec) (member : entry ∈ Builtin.commands) :
      Leads still (fun _ => still) still (discard (register (.text entry.1) entry.2)) := by
    intro later held
    have registers := leads_onGraph (lasts.leads_register held
      (fun id node => absurd node (lives_builtins entry member id)) (.text entry.1))
    exact (registers.discard.weaken (fun _ same => same) (fun _ _ led => led.elim fun _ led => led)
      fun _ led => led) later rfl
  exact (Leads.forM Builtin.commands each).snd held

/-- The bots with the commands that every bot has can be started from as well. -/
theorem isRooted_withBuiltins {bot : Bot} (rooted : bot.graph.IsRooted) :
    bot.withBuiltins.graph.IsRooted :=
  lasts_withBuiltins Graph.lasts_isRooted rooted

end Bot

namespace Roster

/-! ### Keys of others

The commands are put in and taken away without a look at whose keys they are; the plugins `b` and
`a` at the end show what comes of it.
-/

variable {before after : Roster} {name key : Label} {new : Option NodeId} {other : NodeId}

/-- A step that leaves a key alone: the new command does not answer to it or is the one that it led
to before, and it is not taken away together with what stood under the name. -/
def Spares (before after : Roster) (name : Label) (new : Option NodeId) (key : Label)
    (other : NodeId) : Prop :=
  match new.filter fun id => key.isAmong (after.answers id) with
  | some id => id = other
  | none => name = helpLabel ∨ before.resolves name ≠ some other

/-- The bot after it loaded a plugin, whose command is now at `id`. -/
def loading (before : Roster) (name : String) (aliases : List String) (id : NodeId) : Roster where
  bot := ((Plugin.loadOne (name, Plugin.aliased (aliases.map .text))).run before.bot).2
  last := before.last.insert (.text name) id

theorem step_loading (before : Roster) {text : String} {aliases : List String} {id : NodeId}
    (done : ((Plugin.loadOne (text, Plugin.aliased (aliases.map .text))).run
      before.bot).1.toOption = some (some (.text text)))
    (found : (before.loading text aliases id).resolves (.text text) = some id) :
    before.Step (.text text) (some id) (before.loading text aliases id) :=
  .load (Plugin.isKnownIn_aliased aliases _) (run_eq_of_toOption done) found

/-- A new bot with a plugin `b` that answers to `a` as well. -/
def holdingB : Roster :=
  loading { bot := {} } "b" ["a"] 3

theorem reached_holdingB : holdingB.Reached := by
  have start : Reached { bot := {} } := .start Graph.isRooted_start
  exact start.step (step_loading _ (by decide +kernel) (by decide +kernel))

/-- Loading or unloading one plugin leaves a key of others as it was exactly if it spares it. -/
theorem resolves_iff_spares (reached : before.Reached) (step : before.Step name new after)
    (foreign : before.IsForeign name key other) :
    after.resolves key = some other ↔ before.Spares after name new key other := by
  obtain ⟨led, apart, -⟩ := foreign
  have turns := step.turns reached.rooted
  rw [turns.resolves, led, apart]
  unfold Spares
  simp only [Bool.or_false]
  cases new.filter fun id => key.isAmong (after.answers id) with
  | some id => simp
  | none =>
    by_cases help : name = helpLabel
    · simp [help]
    · simp [help, eq_comm]

/-- Loading a plugin with names of its own leaves `b` where it is. -/
theorem resolves_holdingB :
    (holdingB.loading "c" ["d"] 5).resolves (.text "b") = some 3 := by
  have step : holdingB.Step (.text "c") (some 5) (holdingB.loading "c" ["d"] 5) :=
    step_loading _ (by decide +kernel) (by decide +kernel)
  have foreign : holdingB.IsForeign (.text "c") (.text "b") 3 :=
    ⟨by decide +kernel, by decide, by decide +kernel⟩
  refine (resolves_iff_spares reached_holdingB step foreign).mpr ?_
  have unanswered : (some 5).filter (fun id =>
      (Label.text "b").isAmong ((holdingB.loading "c" ["d"] 5).answers id)) = none := by
    decide +kernel
  have free : holdingB.resolves (.text "c") = none := by decide +kernel
  simp [Spares, unanswered, free]

/-- Loading a plugin `a` takes `b` away, as that answers to `a`. -/
theorem taken_away :
    holdingB.Reached ∧ holdingB.Step (.text "a") (some 5) (holdingB.loading "a" [] 5) ∧
      holdingB.IsForeign (.text "a") (.text "b") 3 ∧
      (holdingB.loading "a" [] 5).resolves (.text "b") = none := by
  refine ⟨reached_holdingB, ?_, ?_, by decide +kernel⟩
  · exact step_loading _ (by decide +kernel) (by decide +kernel)
  · exact ⟨by decide +kernel, by decide, by decide +kernel⟩

end Roster
end Switchboard
