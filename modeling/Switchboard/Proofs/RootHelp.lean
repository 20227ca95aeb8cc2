import Switchboard.Proofs.Batch
import Switchboard.Proofs.Isolation

/-!
The help of the root while plugins are loaded and commands are taken out. It stands under two keys,
and only one of them is protected: taking a command out by the other key takes the help away, under
both. Nothing else does, as long as plugins keep to other keys, and while the help is there a blank
line is answered with the description of the root.
-/
namespace Switchboard

open Work

namespace Graph

/-- The place of the help of the root. -/
def rootHelp : NodeId := 2

/-- Whether a label is a key of every help. -/
def isHelpKey (label : Label) : Bool :=
  label.isAmong (helpLabel :: helpAliases.map .text)

theorem isHelpKey_iff {label : Label} :
    isHelpKey label = true ↔ label = helpLabel ∨ label = .text "help" := by
  simp [isHelpKey, Label.isAmong, helpLabel, helpName, helpAliases, Label.same_text]

theorem isHelpKey_congr {label other : Label} (same : label.same other = true) :
    isHelpKey label = isHelpKey other := by
  have flows {first second : Label} (same : first.same second = true)
      (key : isHelpKey first = true) : isHelpKey second = true := by
    rw [isHelpKey, Label.isAmong, List.any_eq_true] at key ⊢
    obtain ⟨known, member, known_same⟩ := key
    exact ⟨known, member, Label.same_trans known_same same⟩
  exact Bool.eq_iff_iff.mpr ⟨flows same, flows (Label.same_comm label other ▸ same)⟩

/-- A label that is among labels of which none is a key of the help. -/
theorem isHelpKey_of_isAmong {label : Label} {labels : List Label}
    (apart : ∀ other ∈ labels, isHelpKey other = false) (among : label.isAmong labels = true) :
    isHelpKey label = false := by
  obtain ⟨other, member, same⟩ := List.any_eq_true.mp among
  rw [← isHelpKey_congr same]
  exact apart other member

/-- A command that is put under other keys leaves the keys of the help where they lead. -/
theorem get?_put_of_isHelpKey {children : Children} {id : NodeId} {name key : Label}
    {labels : List Label} (apart : ∀ label ∈ name :: labels, isHelpKey label = false)
    (isKey : isHelpKey key = true) :
    (Children.insertAll (children.insert name id) id labels).get? key = children.get? key := by
  obtain ⟨named, answered⟩ := List.forall_mem_cons.mp apart
  have notAmong : ¬ key.isAmong labels = true := fun among =>
    nomatch isKey.symm.trans (isHelpKey_of_isAmong answered among)
  have notNamed : ¬ name.same key = true := fun same =>
    nomatch isKey.symm.trans ((isHelpKey_congr same).symm.trans named)
  rw [Children.get?_insertAll, if_neg notAmong, Labelled.get?_insert, if_neg notNamed]

/-- What a key leads to besides a command that was put in, it led to before. -/
theorem get?_of_put {children : Children} {id other : NodeId} {name key : Label}
    {labels : List Label} (apart : id ≠ other)
    (led : (Children.insertAll (children.insert name id) id labels).get? key = some other) :
    children.get? key = some other := by
  rw [Children.get?_insertAll, Labelled.get?_insert] at led
  split at led
  · exact absurd (Option.some.inj led) apart
  · split at led
    · exact absurd (Option.some.inj led) apart
    · exact led

/-- A root with its help at its place, wherever its keys lead. -/
structure HasHelp (g : Graph) : Prop where
  rooted : g.IsRooted
  help : ∃ name, g.node rootHelp = { helpNode root .blank with name }
  bare : (g.node root).aliases = [] ∧ (g.node root).parameters = none

/-- A root whose help stands under the keys of the help and no others, or under none if it was taken
away. -/
structure HoldsHelp (g : Graph) (kept : Bool) : Prop extends HasHelp g where
  led : ∀ key, isHelpKey key = true →
    (g.node root).children.get? key = if kept then some rootHelp else none
  only : ∀ key, (g.node root).children.get? key = some rootHelp → isHelpKey key = true

variable {g later : Graph} {kept : Bool}

namespace HasHelp

theorem prepared (has : g.HasHelp) : (g.node rootHelp).prepared = true := by
  obtain ⟨name, same⟩ := has.help
  rw [same]
  rfl

/-- The help answers to one of its keys, so no command that does not is the help. -/
theorem ne_rootHelp (has : g.HasHelp) {id : NodeId}
    (apart : ∀ label ∈ g.answers id, isHelpKey label = false) : id ≠ rootHelp := by
  rintro rfl
  obtain ⟨name, same⟩ := has.help
  have answers : g.answers rootHelp = helpAliases.map .text := by
    rw [answers_of_lt (lt_size_of_prepared has.prepared), same]
    rfl
  have key := apart (.text "help") (answers ▸ List.mem_cons_self)
  cases key.symm.trans (isHelpKey_iff.mpr (.inr rfl))

theorem stays (has : g.HasHelp) (stays : Stays g later) : later.HasHelp := by
  obtain ⟨title, root_same⟩ := stays.kept root has.rooted.prepared
  obtain ⟨name, help_same⟩ := stays.kept rootHelp has.prepared
  obtain ⟨old, helped⟩ := has.help
  refine ⟨stays.isRooted has.rooted, ⟨name, ?_⟩, ?_⟩
  · rw [help_same, helped]
  · rw [root_same]
    exact has.bare

theorem withChildren (has : g.HasHelp) {change : Children → Children}
    (rooted : (g.withChildren root change).IsRooted) : (g.withChildren root change).HasHelp := by
  have inside := has.rooted.inside
  refine ⟨rooted, ?_, ?_⟩
  · rw [node_withChildren inside, if_neg (by decide)]
    exact has.help
  · rw [node_withChildren inside, if_pos rfl]
    exact has.bare

end HasHelp

theorem lasts_hasHelp : Lasts HasHelp where
  rooted _ has := has.rooted
  stays _ _ has stays := has.stays stays
  put g id label has inside := by
    have rooted : (g.withChildren root fun children => children.insert label id).IsRooted :=
      has.rooted.setChild inside label
    exact has.withChildren rooted

namespace HoldsHelp

theorem stays (held : g.HoldsHelp kept) (stays : Stays g later) : later.HoldsHelp kept := by
  have children := stays.children_root held.rooted
  refine ⟨held.toHasHelp.stays stays, ?_, ?_⟩
  · rw [children]
    exact held.led
  · rw [children]
    exact held.only

/-- Only what becomes of the keys of the root counts. -/
theorem withChildren (held : g.HoldsHelp kept) {change : Children → Children} {still : Bool}
    (rooted : (g.withChildren root change).IsRooted)
    (led : ∀ key, isHelpKey key = true →
      (change (g.node root).children).get? key = if still then some rootHelp else none)
    (only : ∀ key, (change (g.node root).children).get? key = some rootHelp →
      isHelpKey key = true) : (g.withChildren root change).HoldsHelp still := by
  have children : ((g.withChildren root change).node root).children =
      change (g.node root).children := by
    rw [node_withChildren held.rooted.inside, if_pos rfl]
  refine ⟨held.toHasHelp.withChildren rooted, ?_, ?_⟩
  · rw [children]
    exact led
  · rw [children]
    exact only

/-- Whatever is taken away under a name takes the help along exactly if the name is the key of the
help that is not protected. -/
theorem get?_released (held : g.HoldsHelp kept) (name : Label) {key : Label}
    (isKey : isHelpKey key = true) :
    ((g.node root).children.released name).get? key =
      if kept && name ≠ .text "help" then some rootHelp else none := by
  rw [Children.get?_released held.rooted.once, held.led key isKey]
  by_cases unprotected : name = .text "help"
  · subst unprotected
    rw [held.led (.text "help") (isHelpKey_iff.mpr (.inr rfl)), if_pos ⟨by decide, rfl⟩]
    simp
  · cases kept with
    | false => simp
    | true =>
      have still : ¬ (name ≠ helpLabel ∧ some rootHelp = (g.node root).children.get? name) := by
        rintro ⟨ordinary, same⟩
        rcases isHelpKey_iff.mp (held.only name same.symm) with help | help
        · exact ordinary help
        · exact unprotected help
      simp [unprotected, still]

theorem only_released (held : g.HoldsHelp kept) {name key : Label}
    (led : ((g.node root).children.released name).get? key = some rootHelp) :
    isHelpKey key = true := by
  rw [Children.get?_released held.rooted.once] at led
  split at led
  · cases led
  · exact held.only key led

/-- A command that keeps to other keys does not get in the way of the help. -/
theorem placed (held : g.HoldsHelp kept) {name : Label} {id : NodeId} {labels : List Label}
    (inside : id < g.size) (named : isHelpKey name = false)
    (apart : ∀ label ∈ g.answers id, isHelpKey label = false)
    (answered : ∀ label ∈ labels, label ∈ g.answers id) :
    ((g.placed name id).withChildren root fun children =>
      children.insertAll id labels).HoldsHelp kept := by
  have unhelpful : name ≠ .text "help" := by
    rintro rfl
    cases named
  have keys : ∀ label ∈ name :: labels, isHelpKey label = false :=
    List.forall_mem_cons.mpr ⟨named, fun label member => apart label (answered label member)⟩
  unfold Graph.placed
  rw [withChildren_withChildren]
  refine held.withChildren (held.rooted.put inside name labels) ?_ ?_
  · intro key isKey
    rw [get?_put_of_isHelpKey keys isKey, held.get?_released name isKey]
    simp [unhelpful]
  · intro key led
    exact held.only_released (get?_of_put (held.ne_rootHelp apart) led)

theorem unlink (held : g.HoldsHelp kept) (name : Label) :
    (g.unlink root name).2.HoldsHelp (kept && name ≠ .text "help") := by
  have rooted : (g.unlink root name).2.IsRooted := isRooted_unlink held.rooted
  rw [unlink_eq] at rooted ⊢
  exact held.withChildren rooted (fun _ isKey => held.get?_released name isKey)
    fun _ led => held.only_released led

end HoldsHelp

end Graph

namespace Plugin

open Switchboard.Graph

variable {bot : Bot} {kept : Bool}

/-- A plugin that keeps off the keys of the help: should it come to be set up, neither its name nor
an alias of its command is one of them. -/
structure KeepsOff (bot : Bot) (entry : String × Module) : Prop where
  known : entry.2.IsKnownIn bot.graph
  apart : ∀ made middle, Readies bot entry made middle →
    ∀ label ∈ made.1 :: middle.graph.answers made.2, isHelpKey label = false

/-- Plugins that keep off the keys of the help when their turn comes. -/
def AllKeepOff (bot : Bot) : Table Module → Prop
  | [] => True
  | entry :: rest =>
    KeepsOff bot entry ∧ ∀ name? later, (loadOne entry).run bot = (.ok name?, later) →
      AllKeepOff later rest

theorem holdsHelp_loadOne (held : bot.graph.HoldsHelp kept) {entry : String × Module}
    (keepsOff : KeepsOff bot entry) : ((loadOne entry).run bot).2.graph.HoldsHelp kept := by
  have leaves := leaves_loadOne held.rooted keepsOff.known
  generalize ((loadOne entry).run bot).2.graph = graph at leaves ⊢
  cases leaves with
  | passedOver stays => exact held.stays stays
  | @placed made middle labels ready stays prepared answered =>
    obtain ⟨named, apart⟩ := List.forall_mem_cons.mp (keepsOff.apart made middle ready)
    exact (held.stays stays).placed (lt_size_of_prepared prepared) named apart answered

theorem holdsHelp_loadAll {entries : Table Module} (held : bot.graph.HoldsHelp kept)
    (keepOff : AllKeepOff bot entries) :
    ((entries.filterMapM loadOne).run bot).2.graph.HoldsHelp kept := by
  induction entries generalizing bot with
  | nil => exact held
  | cons entry rest ih =>
    obtain ⟨first, others⟩ := keepOff
    have one := holdsHelp_loadOne held first
    rw [run_filterMapM_cons]
    rcases ran : (loadOne entry).run bot with ⟨result, later⟩
    rw [ran] at one
    cases result with
    | error failure => exact one
    | ok name? =>
      have all := ih one (others name? later ran)
      cases name? with
      | none => exact all
      | some name => exact all

/-! ### Changes -/

/-- What is done to the plugins of a bot: some of a directory are loaded, or what stands under a
name is taken out. -/
inductive Change where
  | load (directory : Option Directory) (selection : Selection)
  | unload (name : Label)

namespace Change

/-- The bot after a change, whether or not the change fails. -/
def after (bot : Bot) : Change → Bot
  | .load directory selection => ((Plugin.load directory selection).run bot).2
  | .unload name => ((Plugin.unload name).run bot).2

/-- A change that loads no plugins but those that keep off the keys of the help; taking out may be
asked for under any name. -/
def KeepsOff (bot : Bot) : Change → Prop
  | .load directory selection =>
    ∀ modules plugins ready, available bot.config directory = .ok modules →
      (select modules selection).run bot = (.ok plugins, ready) → AllKeepOff ready plugins
  | .unload _ => True

/-- Whether a change is anything but taking out what stands under the key of the help that is not
protected. -/
def sparesHelp : Change → Bool
  | .load _ _ => true
  | .unload name => name ≠ .text "help"

theorem holdsHelp_after (held : bot.graph.HoldsHelp kept) {change : Change}
    (keepsOff : change.KeepsOff bot) :
    (change.after bot).graph.HoldsHelp (kept && change.sparesHelp) := by
  cases change with
  | unload name =>
    rw [after, Roster.graph_unload]
    exact held.unlink name
  | load directory selection =>
    rw [after, sparesHelp, Bool.and_true, Plugin.load, run_bind_ok _ (run_get bot), run_bind,
      run_ofExcept]
    cases found : available bot.config directory with
    | error failure => exact held
    | ok modules =>
      obtain ⟨ready, selected, same⟩ := run_select modules selection bot
      dsimp only
      rw [run_bind_ok _ selected]
      exact holdsHelp_loadAll (same ▸ held) (keepsOff modules _ ready found selected)

end Change

/-- The bots that come about by one change after the other, none of which brings in plugins that get
in the way of the help. -/
inductive Reaches : Bot → List Change → Bot → Prop
  | nil {bot : Bot} : Reaches bot [] bot
  | cons {bot last : Bot} {change : Change} {rest : List Change} (keepsOff : change.KeepsOff bot)
    (others : Reaches (change.after bot) rest last) : Reaches bot (change :: rest) last

/-- The help is kept by changes if each of them spares it. -/
theorem Reaches.holdsHelp {later : Bot} {changes : List Change}
    (reaches : Reaches bot changes later) (held : bot.graph.HoldsHelp kept) :
    later.graph.HoldsHelp (kept && changes.all Change.sparesHelp) := by
  induction reaches generalizing kept with
  | nil =>
    rw [List.all_nil, Bool.and_true]
    exact held
  | cons keepsOff others ih =>
    rw [List.all_cons, ← Bool.and_assoc]
    exact ih (Change.holdsHelp_after held keepsOff)

theorem all_sparesHelp {changes : List Change} :
    changes.all Change.sparesHelp = true ↔ .unload (.text "help") ∉ changes := by
  rw [List.all_eq_true]
  constructor
  · intro spares member
    cases spares _ member
  · intro absent change member
    cases change with
    | load directory selection => rfl
    | unload name => exact decide_eq_true fun same => absent (same ▸ member)

end Plugin

/-! ### New bots -/

namespace Graph

variable {g : Graph}

theorem HasHelp.holdsHelp (has : g.HasHelp) (others : Children)
    (children : (g.node root).children =
      (helpLabel, rootHelp) :: (.text "help", rootHelp) :: others)
    (apart : ∀ entry ∈ others, entry.2 ≠ rootHelp) : g.HoldsHelp true := by
  refine ⟨has, fun key isKey => ?_, fun key led => ?_⟩
  · rw [children]
    rcases isHelpKey_iff.mp isKey with rfl | rfl
    · rfl
    · rfl
  · rw [children, Labelled.get?_cons, Labelled.get?_cons] at led
    split at led
    · rename_i same
      rw [← isHelpKey_congr same]
      rfl
    · split at led
      · rename_i same
        rw [← isHelpKey_congr same]
        rfl
      · obtain ⟨known, member⟩ := Labelled.exists_of_get? led
        exact absurd rfl (apart _ member)

theorem hasHelp_start : Graph.start.HasHelp :=
  ⟨isRooted_start, ⟨_, rfl⟩, ⟨rfl, rfl⟩⟩

theorem holdsHelp_start : Graph.start.HoldsHelp true :=
  hasHelp_start.holdsHelp [] rfl nofun

end Graph

namespace Bot

/-- Work on the graph, one item after the other, depends on nothing but the graph. -/
theorem graph_forM {α β : Type} (items : List β) (work : β → GraphM α) (bot : Bot) :
    ((items.forM fun item => discard (onGraph (work item))).run bot).2.graph =
      ((items.forM fun item => discard (work item)).run bot.graph).2 := by
  induction items generalizing bot with
  | nil => rfl
  | cons item rest ih =>
    have step : (item :: rest).forM (fun item => discard (onGraph (work item))) =
        discard (onGraph (work item)) >>= fun _ =>
          rest.forM fun item => discard (onGraph (work item)) := rfl
    have step' : (item :: rest).forM (fun item => discard (work item)) =
        discard (work item) >>= fun _ => rest.forM fun item => discard (work item) := rfl
    rw [step, step', run_bind, run_bind, run_discard, run_discard, run_onGraph]
    rcases (work item).run bot.graph with ⟨result, later⟩
    cases result with
    | error failure => rfl
    | ok value => exact ih _

theorem graph_withBuiltins {bot other : Bot} (same : bot.graph = other.graph) :
    bot.withBuiltins.graph = other.withBuiltins.graph := by
  have work (bot : Bot) := graph_forM Builtin.commands (fun entry => do
    let id ← Graph.build (.text entry.1) entry.2
    Graph.link Graph.root (.text entry.1) id
    return id) bot
  exact (work bot).trans (same ▸ (work other).symm)

/-- With the builtin commands there are two more keys. -/
theorem holdsHelp_withBuiltins {bot : Bot} (new : bot.graph = Graph.start) :
    bot.withBuiltins.graph.HoldsHelp true := by
  have start : bot.graph.HasHelp := new ▸ Graph.hasHelp_start
  have has := lasts_withBuiltins Graph.lasts_hasHelp start
  have same : bot.withBuiltins.graph = (withBuiltins {}).graph := graph_withBuiltins new
  rw [same] at has ⊢
  exact has.holdsHelp [(.text "my", 15), (.text "perm", 31)] (by decide +kernel) (by decide)

end Bot
end Switchboard
