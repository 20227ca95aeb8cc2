import Switchboard.Proofs.Dispatch
import Switchboard.Proofs.PluginLoad

/-!
What loading one plugin leaves of the commands, however it ends. While it is set up, commands that
are prepared stay as they are, but for their names. After that its command at most takes the place
of the one under its name, and is put under labels that it answers to: all of them, unless loading
breaks off at an alias that is no label.
-/
namespace Switchboard

open Work

namespace Graph

variable {g later last : Graph}

/-- A graph that grew out of another one. The commands that were prepared there are as they were,
but for their names. -/
structure Stays (g later : Graph) : Prop where
  sound : later.Sound
  grown : g.size ≤ later.size
  kept : ∀ id, (g.node id).prepared = true → ∃ name, later.node id = { g.node id with name }

namespace Stays

theorem refl (sound : g.Sound) : Stays g g :=
  ⟨sound, Nat.le_refl _, fun id _ => ⟨(g.node id).name, rfl⟩⟩

theorem trans (first : Stays g later) (second : Stays later last) : Stays g last := by
  refine ⟨second.sound, Nat.le_trans first.grown second.grown, fun id prepared => ?_⟩
  obtain ⟨name, same⟩ := first.kept id prepared
  obtain ⟨other, again⟩ := second.kept id (by rw [same]; exact prepared)
  exact ⟨other, by rw [again, same]⟩

theorem of_adds (adds : Adds g later) : Stays g later :=
  ⟨adds.sound, adds.grown, fun id prepared => adds.old id (lt_size_of_prepared prepared)⟩

theorem of_advance (advance : Advance g later) : Stays g later :=
  ⟨advance.sound, advance.grown, fun id prepared => ⟨_, advance.kept id prepared⟩⟩

theorem prepared (stays : Stays g later) {id : NodeId} (prepared : (g.node id).prepared = true) :
    (later.node id).prepared = true := by
  obtain ⟨name, same⟩ := stays.kept id prepared
  rw [same]
  exact prepared

theorem isRooted (stays : Stays g later) (rooted : g.IsRooted) : later.IsRooted := by
  obtain ⟨name, same⟩ := stays.kept root rooted.prepared
  refine ⟨stays.sound, stays.prepared rooted.prepared, ?_⟩
  rw [same]
  exact rooted.once

theorem children_root (stays : Stays g later) (rooted : g.IsRooted) :
    (later.node root).children = (g.node root).children := by
  obtain ⟨name, same⟩ := stays.kept root rooted.prepared
  rw [same]

end Stays

/-- Putting a command under its aliases stops at one that is no label; up to there they count. -/
theorem exists_labels_of_addEach (parent child : NodeId) (names : List Document) (g : Graph) :
    ∃ labels, (∀ label ∈ labels, label ∈ names.filterMap Label.ofDocument?) ∧
      ((names.forM (addAlias parent child)).run g).2 =
        g.withChildren parent fun children => children.insertAll child labels := by
  induction names generalizing g with
  | nil => exact ⟨[], nofun, (update_same parent).symm⟩
  | cons name rest ih =>
    have step : (name :: rest).forM (addAlias parent child) =
        (addAlias parent child name >>= fun _ => rest.forM (addAlias parent child)) := rfl
    rw [step, run_bind]
    cases read : Label.ofDocument? name with
    | none =>
      refine ⟨[], nofun, ?_⟩
      have unread : Label.ofDocument name = .error (Label.unusable name) := by
        rw [Label.ofDocument, read]
      rw [addAlias, run_bind, run_ofExcept, unread]
      exact (update_same parent).symm
    | some label =>
      have done : (addAlias parent child name).run g =
          (.ok ⟨⟩, g.withChildren parent fun children => children.insert label child) := by
        rw [addAlias, Label.ofDocument, read]
        rfl
      obtain ⟨labels, answered, put⟩ := ih (g.withChildren parent (·.insert label child))
      refine ⟨label :: labels, ?_, ?_⟩
      · rw [List.filterMap_cons_some read]
        exact List.forall_mem_cons.mpr
          ⟨List.mem_cons_self, fun other member =>
            List.mem_cons_of_mem label (answered other member)⟩
      · rw [done]
        dsimp only
        rw [put, withChildren_withChildren]
        rfl

end Graph

namespace Plugin

open Switchboard.Graph

variable {g : Graph}

/-- Building and preparing a command leaves those that were prepared as they are. -/
theorem leads_make (sound : g.Sound) (name : Label) {spec : Spec}
    (known : ∀ id, .node id ∈ spec.lives → id < g.size) :
    Leads (· = g) (fun _ later => Stays g later) (Stays g ·) (do
      let id ← Graph.build name spec
      Graph.prepare id name
      return (name, id)) := by
  have builds := Graph.builds_build g name spec known g (.refl sound)
  refine (builds.weaken (fun _ same => same) (fun _ _ led => led)
    fun later adds => .of_adds adds).bind fun id => ?_
  rintro built ⟨adds, inside⟩
  have prepares : Leads (· = built) (fun _ later => Stays g later) (Stays g ·)
      (Graph.prepare id name) := by
    refine (prepares_prepare adds.sound inside name).weaken (fun _ same => same) ?_ ?_
    · exact fun _ later led => (Stays.of_adds adds).trans (.of_advance led.1.toAdvance)
    · exact fun later advance => (Stays.of_adds adds).trans (.of_advance advance)
  refine prepares.bind (fun _ => ?_) built rfl
  exact .pure fun _ stays => stays

/-- Whatever setting a plugin up comes to, it leaves prepared commands as they are. -/
theorem preserves_setUp (title : Document) (stem : String) {module : Module}
    (known : module.IsKnownIn g) :
    Preserves (fun bot : Bot => Stays g bot.graph) (setUp title stem module) := by
  have settled : Preserves (fun bot : Bot => Stays g bot.graph) (do
      let name ← MonadExcept.ofExcept (Label.ofDocument title)
      let given := settingsFor (← get).config name
      return (name, ← MonadExcept.ofExcept
        (module.schema.read ("willbot_plugin_" ++ stem) given)) :
        BotM (Label × Table Document)) := by
    refine (FailsOnly.ofExcept fun _ _ => trivial).bind fun name => ?_
    refine FailsOnly.get.bind fun bot => ?_
    exact (FailsOnly.ofExcept fun _ _ => trivial).bind fun given => .pure _
  refine FailsOnly.bind (.modify fun _ stays => stays) fun _ => ?_
  split
  · exact .throw trivial
  · refine FailsOnly.bind ?_ fun _ => .throw trivial
    exact preserves_iff.mpr fun bot stays => by
      rw [run_discard]
      exact (settled bot stays).1
  · rename_i spec declared
    refine settled.bind fun read => ?_
    obtain ⟨name, settings⟩ := read
    refine preserves_iff.mpr fun bot stays => ?_
    rw [Bot.run_onGraph]
    have lives : ∀ id, .node id ∈ (spec.withScripts settings).lives → id < bot.graph.size :=
      fun id member => known.mono stays.grown spec declared id
        (Spec.lives_withScripts settings spec member)
    exact stays.trans ((leads_make stays.sound name lives).snd rfl)

/-- What loading a plugin leaves: the keys of the root as they are, or with the command that was set
up in the place of the one under its name, and under some labels that it answers to. -/
inductive Leaves (bot : Bot) (entry : String × Module) : Graph → Prop
  | passedOver {later : Graph} (stays : Stays bot.graph later) : Leaves bot entry later
  | placed {made : Label × NodeId} {middle : Bot} {labels : List Label}
      (ready : Readies bot entry made middle) (stays : Stays bot.graph middle.graph)
      (prepared : (middle.graph.node made.2).prepared = true)
      (answered : ∀ label ∈ labels, label ∈ middle.graph.answers made.2) :
      Leaves bot entry ((middle.graph.placed made.1 made.2).withChildren root fun children =>
        children.insertAll made.2 labels)

theorem leaves_loadOne {bot : Bot} {entry : String × Module} (rooted : bot.graph.IsRooted)
    (known : entry.2.IsKnownIn bot.graph) :
    Leaves bot entry ((loadOne entry).run bot).2.graph := by
  obtain ⟨stem, module⟩ := entry
  unfold loadOne
  dsimp only
  split
  · exact .passedOver (.refl rooted.sound)
  rename_i working
  have led := leads_setUp rooted (module.title stem) stem known bot rfl
  have stays := (preserves_setUp (module.title stem) stem known bot (.refl rooted.sound)).1
  rw [run_bind, run_tryCatch, run_map]
  rcases ran : (setUp (module.title stem) stem module).run bot with ⟨result, middle⟩
  rw [ran] at led stays
  cases result with
  | error cause => exact .passedOver stays
  | ok made =>
    obtain ⟨name, id⟩ := made
    have ready : Readies bot (stem, module) (name, id) middle := ⟨working, ran⟩
    have inside := lt_size_of_prepared led.prepared
    have placing : (install name id).run middle = _ := Bot.run_onGraph (replace name id) middle
    obtain ⟨labels, answered, put⟩ := exists_labels_of_addEach root id
      (middle.graph.node id).aliases (middle.graph.placed name id)
    rw [← answers_of_lt inside] at answered
    have leaves : Leaves bot (stem, module) ((replace name id).run middle.graph).2 := by
      rw [run_replace_eq led.rests.rooted led.prepared, put]
      exact .placed ready stays led.prepared answered
    dsimp only [Except.map]
    rw [run_bind, placing]
    rcases replaced : (replace name id).run middle.graph with ⟨result, later⟩
    rw [replaced] at leaves
    cases result with
    | error failure => exact leaves
    | ok done => exact leaves

/-! ### The rest of a bot -/

section Rest

variable {γ : Type} {view : Bot → γ}

/-- A view of bots that sees neither the commands nor the log. -/
structure IsBlind (view : Bot → γ) : Prop where
  graph : ∀ (bot : Bot) (graph : Graph), view { bot with graph } = view bot
  log : ∀ (bot : Bot) (log : List Event), view { bot with log } = view bot

theorem IsBlind.keeps_record (blind : IsBlind view) (event : Event) :
    Keeps view (Bot.record event) :=
  .modify fun bot => blind.log bot _

theorem keeps_select (blind : IsBlind view) (modules : Table Module) (selection : Selection) :
    Keeps view (select modules selection) := by
  cases selection with
  | pattern glob => exact .pure _
  | names names =>
    refine .filterMapM names fun stem => ?_
    split
    · exact .pure _
    · exact (blind.keeps_record _).bind fun _ => .pure _

theorem keeps_setUp (blind : IsBlind view) (title : Document) (stem : String) (module : Module) :
    Keeps view (setUp title stem module) := by
  refine (blind.keeps_record _).bind fun _ => ?_
  extract_lets settled
  have settles : Keeps view settled := by
    refine (Keeps.ofExcept _).bind fun name => Keeps.get.bind fun bot => ?_
    exact (Keeps.ofExcept _).bind fun given => .pure _
  cases module.setup with
  | missing => exact .throw _
  | fails cause => exact settles.discard.bind fun _ => .throw _
  | declares spec => exact settles.bind fun _ => Bot.keeps_onGraph blind.graph _

theorem keeps_loadOne (blind : IsBlind view) (entry : String × Module) :
    Keeps view (loadOne entry) := by
  obtain ⟨stem, module⟩ := entry
  unfold loadOne
  dsimp only
  cases module.broken with
  | some cause => exact (blind.keeps_record _).bind fun _ => .pure _
  | none =>
    refine Keeps.bind (Keeps.tryCatch ?_ fun cause => ?_) fun ready? => ?_
    · exact (keeps_setUp blind _ stem module).map some
    · exact (blind.keeps_record _).bind fun _ => .pure _
    · cases ready? with
      | none => exact .pure _
      | some made =>
        refine (Bot.keeps_onGraph blind.graph _).bind fun _ => ?_
        exact (blind.keeps_record _).bind fun _ => .pure _

/-- Nothing but the commands and the log is touched by plugins that are loaded. -/
theorem keeps_load (blind : IsBlind view) (directory : Option Directory) (selection : Selection) :
    Keeps view (load directory selection) := by
  refine Keeps.get.bind fun bot => (Keeps.ofExcept _).bind fun modules => ?_
  refine (keeps_select blind modules selection).bind fun plugins => ?_
  exact .filterMapM plugins (keeps_loadOne blind)

theorem keeps_unload (blind : IsBlind view) (name : Label) : Keeps view (unload name) := by
  refine (Bot.keeps_onGraph blind.graph _).bind fun removed => ?_
  refine .ite (.pure _) ?_
  exact (blind.keeps_record _).bind fun _ => .pure _

end Rest

end Plugin
end Switchboard
