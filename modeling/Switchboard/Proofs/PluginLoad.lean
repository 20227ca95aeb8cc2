import Switchboard.Proofs.Replacement

/-!
Loading one plugin: it is passed over and the keys of the root stay as they are, or its command
takes the place of the one that had its name, or it raises a failure since one of the aliases of its
command is no label.
-/
namespace Switchboard

open Work

namespace Spec

/-- Nothing in texts lives outside of a declaration. -/
theorem livesOfItems_texts (texts : List String) :
    Datum.livesOfItems (texts.map fun s => (.text s : Spec)) = [] := by
  induction texts with
  | nil => rfl
  | cons first rest ih => simpa [Datum.livesOfItems, Datum.lives] using ih

mutual

theorem lives_withScripts (settings : Table Document) (spec : Spec) {id : NodeId}
    (member : .node id ∈ (spec.withScripts settings).lives) : .node id ∈ spec.lives := by
  match spec, member with
  | .table fields, member =>
    rw [withScripts, Datum.lives] at member
    rw [Datum.lives]
    exact lives_withScriptsIn settings fields member
  | .null, member | .bool _, member | .int _, member | .real _, member | .text _, member
  | .moment _, member | .list _, member | .live _, member | .mapping _, member =>
    rw [withScripts] at member
    · exact member
    · nofun

theorem lives_withScriptsIn (settings : Table Document) (fields : List (String × Spec))
    {id : NodeId} (member : .node id ∈ Datum.livesOfFields (withScriptsIn settings fields)) :
    .node id ∈ Datum.livesOfFields fields := by
  match fields, member with
  | [], member => exact member
  | (key, value) :: rest, member =>
    unfold withScriptsIn at member
    rw [Datum.livesOfFields] at member
    rw [Datum.livesOfFields]
    rcases List.mem_append.mp member with here | later
    · apply List.mem_append_left
      split at here
      · split at here
        · simp [Datum.lives] at here
        · exact here
      · split at here
        · split at here
          · exact lives_withScriptsBelow settings _ here
          · exact lives_withScriptsUnder settings _ here
          · exact here
        · exact here
    · exact List.mem_append_right _ (lives_withScriptsIn settings rest later)

theorem lives_withScriptsBelow (settings : Table Document) (children : List (String × Spec))
    {id : NodeId} (member : .node id ∈ Datum.livesOfFields (withScriptsBelow settings children)) :
    .node id ∈ Datum.livesOfFields children := by
  match children, member with
  | [], member => exact member
  | (key, child) :: rest, member =>
    rw [withScriptsBelow, Datum.livesOfFields] at member
    rw [Datum.livesOfFields]
    rcases List.mem_append.mp member with here | later
    · exact List.mem_append_left _ (lives_withScripts settings child here)
    · exact List.mem_append_right _ (lives_withScriptsBelow settings rest later)

theorem lives_withScriptsUnder (settings : Table Document) (children : List (Label × Spec))
    {id : NodeId} (member : .node id ∈ Datum.livesOfEntries (withScriptsUnder settings children)) :
    .node id ∈ Datum.livesOfEntries children := by
  match children, member with
  | [], member => exact member
  | (label, child) :: rest, member =>
    rw [withScriptsUnder, Datum.livesOfEntries] at member
    rw [Datum.livesOfEntries]
    rcases List.mem_append.mp member with here | later
    · exact List.mem_append_left _ (lives_withScripts settings child here)
    · exact List.mem_append_right _ (lives_withScriptsUnder settings rest later)

end

end Spec

namespace Bot

theorem run_onGraph {α : Type} (work : GraphM α) (bot : Bot) :
    (onGraph work).run bot =
      ((work.run bot.graph).1, { bot with graph := (work.run bot.graph).2 }) := by
  unfold onGraph
  rw [run_bind_ok _ (run_get bot)]
  rcases work.run bot.graph with ⟨result, later⟩
  dsimp only
  rw [run_bind_ok _ (run_set bot _), run_ofExcept]

theorem leads_onGraph {α : Type} {before : Graph → Prop} {after : α → Graph → Prop}
    {otherwise : Graph → Prop} {work : GraphM α} (leads : Leads before after otherwise work) :
    Leads (fun bot : Bot => before bot.graph) (fun value bot => after value bot.graph)
      (fun bot => otherwise bot.graph) (onGraph work) := by
  intro bot known
  have led := leads bot.graph known
  rw [run_onGraph]
  rcases ran : work.run bot.graph with ⟨result, later⟩
  rw [ran] at led
  cases result with
  | error failure => exact led
  | ok value => exact led

end Bot

namespace Plugin

open Switchboard.Graph

variable {g : Graph}

/-- A module whose declaration hands in no commands but those of a graph. -/
def Module.IsKnownIn (module : Module) (g : Graph) : Prop :=
  ∀ spec, module.setup = .declares spec → ∀ id, .node id ∈ spec.lives → id < g.size

theorem Module.IsKnownIn.mono {module : Module} {later : Graph} (known : module.IsKnownIn g)
    (grown : g.size ≤ later.size) : module.IsKnownIn later :=
  fun spec declared id member => Nat.lt_of_lt_of_le (known spec declared id member) grown

/-- A module whose declaration hands in nothing that lives outside of it. -/
theorem isKnownIn_declares {spec : Spec} (plain : spec.lives = []) (g : Graph) :
    Module.IsKnownIn { setup := .declares spec } g := by
  intro declared same id member
  obtain rfl := Setup.declares.inj same
  rw [plain] at member
  cases member

/-- A plugin whose command has these aliases. -/
def aliased (aliases : List Spec) : Module :=
  { setup := .declares (.table [("alias", .list aliases)]) }

theorem isKnownIn_aliased (aliases : List String) (g : Graph) :
    (aliased (aliases.map .text)).IsKnownIn g := by
  apply isKnownIn_declares
  simp [Datum.lives, Datum.livesOfFields, Spec.livesOfItems_texts]

/-- A command that was set up under a name, with the keys of the root as they were. -/
structure IsSetUp (g : Graph) (title : Document) (made : Label × NodeId) (later : Graph) :
    Prop where
  named : Label.ofDocument? title = some made.1
  rests : Rests g later
  prepared : (later.node made.2).prepared = true

theorem leads_build (rooted : g.IsRooted) (name : Label) {spec : Spec}
    (known : ∀ id, .node id ∈ spec.lives → id < g.size) :
    Leads (· = g) (fun made later => Rests g later ∧ made.1 = name ∧
      (later.node made.2).prepared = true) (Rests g ·) (do
        let id ← Graph.build name spec
        Graph.prepare id name
        return (name, id)) := by
  have builds := Graph.builds_build g name spec known g (.refl rooted.sound)
  refine (builds.weaken (fun _ same => same) (fun _ _ led => led)
    fun later => rooted.rests_of_adds).bind fun id => ?_
  rintro built ⟨adds, inside⟩
  have rests := rooted.rests_of_adds adds
  have prepares := prepares_prepare adds.sound inside name
  refine (prepares.weaken (fun _ same => same) (fun _ _ led => led)
    fun later advance => rests.trans (rests.rooted.rests_of_advance advance)).bind
      (fun _ => ?_) built rfl
  refine .pure ?_
  rintro later ⟨finishes, prepared⟩
  exact ⟨rests.trans (rests.rooted.rests_of_advance finishes.toAdvance), rfl, prepared⟩

/-- Setting up a plugin leaves the keys of the root as they are, whether or not it fails. -/
theorem leads_setUp (rooted : g.IsRooted) (title : Document) (stem : String) {module : Module}
    (known : module.IsKnownIn g) :
    Leads (fun bot : Bot => bot.graph = g) (fun made bot => IsSetUp g title made bot.graph)
      (fun bot => Rests g bot.graph) (setUp title stem module) := by
  have rests (bot : Bot) (same : bot.graph = g) : Rests g bot.graph := by
    rw [same]
    exact .refl rooted
  refine Leads.via (fun _ bot => bot.graph = g) (.modify fun _ same => same) fun _ => ?_
  -- The name and the settings are read before anything is done to the graph.
  have settled : Leads (fun bot : Bot => bot.graph = g)
      (fun (read : Label × Table Document) bot =>
        bot.graph = g ∧ Label.ofDocument? title = some read.1) (fun bot => Rests g bot.graph) (do
        let name ← MonadExcept.ofExcept (Label.ofDocument title)
        let given := settingsFor (← get).config name
        return (name, ← MonadExcept.ofExcept
          (module.schema.read ("willbot_plugin_" ++ stem) given)) : BotM _) := by
    intro bot same
    rw [run_bind, run_ofExcept]
    cases read : Label.ofDocument title with
    | error failure => exact rests bot same
    | ok name =>
      dsimp only
      rw [run_bind_ok _ (run_get bot), run_bind, run_ofExcept]
      cases module.schema.read ("willbot_plugin_" ++ stem) (settingsFor bot.config name) with
      | error failure => exact rests bot same
      | ok given => exact ⟨same, ofDocument?_of_ofDocument read⟩
  split
  · exact .throw rests
  · refine Leads.via (fun _ bot => bot.graph = g) ?_ fun _ => .throw rests
    exact settled.discard.weaken (fun _ same => same) (fun _ _ led => led.elim fun _ led => led.1)
      fun _ rests => rests
  · rename_i spec declared
    refine settled.bind fun read => ?_
    obtain ⟨name, settings⟩ := read
    rintro bot ⟨same, named⟩
    have lives : ∀ id, .node id ∈ (spec.withScripts settings).lives → id < g.size :=
      fun id member => known spec declared id (Spec.lives_withScripts settings spec member)
    refine ((Bot.leads_onGraph (leads_build rooted name lives)).weaken (fun _ same => same)
      (fun made later led => ?_) fun _ rests => rests) bot same
    exact ⟨led.2.1 ▸ named, led.1, led.2.2⟩

/-- A plugin that could be set up: what it made, and the bot at that time. -/
def Readies (bot : Bot) (entry : String × Module) (made : Label × NodeId) (middle : Bot) : Prop :=
  entry.2.broken = none ∧
    (setUp (entry.2.title entry.1) entry.1 entry.2).run bot = (.ok made, middle)

theorem Readies.unique {bot middle other : Bot} {entry : String × Module}
    {made another : Label × NodeId} (readies : Readies bot entry made middle)
    (again : Readies bot entry another other) : made = another ∧ middle = other := by
  obtain ⟨result, same⟩ := Prod.mk.inj (readies.2.symm.trans again.2)
  exact ⟨Except.ok.inj result, same⟩

/-- What loading a plugin may come to. -/
inductive Loads (bot : Bot) (entry : String × Module) :
    Except Failure (Option Label) → Graph → Prop
  | passedOver {later : Graph} (unready : ∀ made middle, ¬ Readies bot entry made middle)
    (rests : Rests bot.graph later) : Loads bot entry (.ok none) later
  | linked {made : Label × NodeId} {middle : Bot} (ready : Readies bot entry made middle)
    (setUp : IsSetUp bot.graph (entry.2.title entry.1) made middle.graph)
    (keyed : (middle.graph.node made.2).IsKeyed) :
    Loads bot entry (.ok (some made.1)) (middle.graph.installed made.1 made.2)
  | raised {made : Label × NodeId} {middle : Bot} {later : Graph} {failure : Failure}
    (ready : Readies bot entry made middle)
    (setUp : IsSetUp bot.graph (entry.2.title entry.1) made middle.graph)
    (unkeyed : ¬ (middle.graph.node made.2).IsKeyed) : Loads bot entry (.error failure) later

/-- A plugin that did not raise leaves a root that is prepared and has each key once. -/
theorem Loads.rooted {bot : Bot} {entry : String × Module} {name? : Option Label} {later : Graph}
    (loads : Loads bot entry (.ok name?) later) : later.IsRooted := by
  cases loads with
  | passedOver unready rests => exact rests.rooted
  | linked ready setUp keyed =>
    exact isRooted_installed setUp.rests.rooted (lt_size_of_prepared setUp.prepared)

/-- A plugin is passed over, linked, or raises since one of its aliases is no label. -/
theorem loads_loadOne {bot : Bot} {entry : String × Module} (rooted : bot.graph.IsRooted)
    (known : entry.2.IsKnownIn bot.graph) :
    Loads bot entry ((loadOne entry).run bot).1 ((loadOne entry).run bot).2.graph := by
  obtain ⟨stem, module⟩ := entry
  unfold loadOne
  dsimp only
  split
  · rename_i cause broken
    refine .passedOver (fun made middle ready => ?_) (.refl rooted)
    cases broken.symm.trans ready.1
  rename_i working
  have led := leads_setUp rooted (module.title stem) stem known bot rfl
  rw [run_bind, run_tryCatch, run_map]
  rcases ran : (setUp (module.title stem) stem module).run bot with ⟨result, middle⟩
  rw [ran] at led
  cases result with
  | error cause =>
    refine .passedOver (fun made other ready => ?_) led
    cases (Prod.mk.inj (ran.symm.trans ready.2)).1
  | ok made =>
    obtain ⟨name, id⟩ := made
    have ready : Readies bot (stem, module) (name, id) middle := ⟨working, ran⟩
    have setUp : IsSetUp bot.graph (module.title stem) (name, id) middle.graph := led
    have placing : (install name id).run middle = _ := Bot.run_onGraph (replace name id) middle
    dsimp only [Except.map]
    rw [run_bind, placing]
    rcases run_replace setUp.rests.rooted setUp.prepared name with
      ⟨failure, later, failed, unkeyed⟩ | ⟨replaced, keyed⟩
    · rw [failed]
      exact .raised ready setUp unkeyed
    · rw [replaced]
      exact .linked ready setUp keyed

end Plugin
end Switchboard
