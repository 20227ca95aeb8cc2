import Switchboard.Proofs.PluginLoad

/-!
Taking a command away undoes putting it in. A command that stands under none of a parent's keys
comes under new keys only, and these are all that goes when it is taken away by any of them, so the
parent has the keys that it had, in their order. Only the key of the help takes nothing away. Under
any keys whatever, those that go are the ones that lead to the command that was named, so none is
left that leads to a command which a plugin was loaded in place of.
-/
namespace Switchboard

open Work

namespace Children

variable {children : Children} {label : Label} {child : NodeId}

/-- A key that no other child has does not matter once the child is taken away. -/
theorem without_insert (free : ∀ other, children.get? label = some other → other = child) :
    without (Labelled.insert children label child) child = children.without child := by
  induction children with
  | nil => simp [without, Labelled.insert]
  | cons entry rest ih =>
    obtain ⟨known, old⟩ := entry
    rw [Labelled.insert]
    split
    · rename_i here
      have same : old = child := free old (by simp [here])
      simp [without, same]
    · rename_i apart
      have goOn := ih fun other found => free other (by simp [apart, found])
      simp only [without, List.filter_cons] at goOn ⊢
      rw [goOn]

theorem without_insertAll {labels : List Label}
    (free : ∀ label ∈ labels, ∀ other, children.get? label = some other → other = child) :
    (children.insertAll child labels).without child = children.without child := by
  induction labels generalizing children with
  | nil => rfl
  | cons label rest ih =>
    have step : children.insertAll child (label :: rest) =
        insertAll (children.insert label child) child rest := rfl
    rw [step, ih, without_insert (free label List.mem_cons_self)]
    intro second member other found
    rw [Labelled.get?_insert] at found
    split at found
    · exact (Option.some.inj found).symm
    · exact free second (List.mem_cons_of_mem label member) other found

theorem without_eq_self (apart : child ∉ children.nodes) : children.without child = children := by
  unfold without
  rw [List.filter_eq_self]
  intro entry member
  rw [decide_eq_true_iff]
  rintro rfl
  exact apart (List.mem_map_of_mem member)

end Children

namespace Graph

variable {g later : Graph} {parent child : NodeId} {name : Label}

/-! ### What is taken away -/

theorem unlink_of_missing (missing : (g.node parent).children.get? name = none) :
    g.unlink parent name = (none, g) := by
  rw [unlink, missing]

/-- The help stays. -/
theorem unlink_help (g : Graph) (parent : NodeId) : g.unlink parent helpLabel = (none, g) := by
  unfold unlink
  split
  · rfl
  · exact if_pos rfl

theorem unlink_of_found (ordinary : name ≠ helpLabel)
    (found : (g.node parent).children.get? name = some child) :
    g.unlink parent name = (some child, g.removeChild parent child) := by
  rw [unlink, found]
  exact if_neg ordinary

/-- A command with children is a command of the graph. -/
theorem lt_size_of_get? {label : Label}
    (found : (g.node parent).children.get? label = some child) : parent < g.size := by
  by_contra outside
  rw [node_of_size_le (Nat.le_of_not_lt outside)] at found
  cases found

/-- The keys that lead to one command are gone, and what is left of the graph is as it was. -/
structure Released (g later : Graph) (parent child : NodeId) : Prop where
  size : later.size = g.size
  others : ∀ other, other ≠ parent → later.node other = g.node other
  here : later.node parent = { g.node parent with
    children := (g.node parent).children.filter fun entry => entry.2 ≠ child }
  keys : (g.node parent).children.HasKeysOnce → ∀ key,
    (later.node parent).children.get? key =
      if (g.node parent).children.get? key = some child then none
      else (g.node parent).children.get? key

theorem released_removeChild (inside : parent < g.size) (child : NodeId) :
    Released g (g.removeChild parent child) parent child := by
  have node := node_withChildren inside fun children => children.without child
  have here : (g.removeChild parent child).node parent = { g.node parent with
      children := (g.node parent).children.without child } := by
    exact (node parent).trans (if_pos rfl)
  refine ⟨size_withChildren parent _, fun other apart => ?_, here, fun once key => ?_⟩
  · exact (node other).trans (if_neg (Ne.symm apart))
  · rw [here]
    exact Children.get?_without once child key

/-! ### Putting in and taking away -/

/-- A command that can come under a parent by new keys: it is prepared and known under labels alone,
and neither it nor its name nor anything that it answers to is among the parent's children. -/
structure IsNewTo (g : Graph) (parent : NodeId) (name : Label) (child : NodeId) : Prop where
  inside : parent < g.size
  prepared : (g.node child).prepared = true
  keyed : (g.node child).IsKeyed
  apart : child ∉ (g.node parent).children.nodes
  named : (g.node parent).children.get? name = none
  answers : ∀ label ∈ g.answers child, (g.node parent).children.get? label = none

/-- The graph with a command under a parent by its name and by all that it answers to. -/
def linked (g : Graph) (parent : NodeId) (name : Label) (child : NodeId) : Graph :=
  g.withChildren parent fun children =>
    Children.insertAll (children.insert name child) child (g.answers child)

namespace IsNewTo

/-- A prepared command that is known under labels alone can be put in. -/
theorem run_link (isNew : g.IsNewTo parent name child) :
    (link parent name child).run g = (.ok ⟨⟩, g.linked parent name child) := by
  have known := lt_size_of_prepared isNew.prepared
  have inserted : g.setChild parent name child =
      g.withChildren parent fun children => children.insert name child := rfl
  rw [link, run_bind_ok _ (run_prepare_of_prepared isNew.prepared name),
    run_bind_ok _ (run_modify _ g), inserted]
  generalize put : g.withChildren parent (fun children => children.insert name child) = middle
  have bound : child < middle.size := by
    rw [← put, size_withChildren]
    exact known
  have aliases : (middle.node child).aliases = (g.node child).aliases := by
    rw [← put, node_withChildren isNew.inside]
    split <;> rfl
  have fine : ((addAliases parent child).run middle).1.isOk = true :=
    (isOk_addEach middle parent child (middle.node child).aliases).mpr (aliases ▸ isNew.keyed)
  rcases done : (addAliases parent child).run middle with ⟨result, last⟩
  rw [done] at fine
  cases result with
  | error failure => cases fine
  | ok _ =>
    rw [run_addAliases bound done, ← put, answers_withChildren isNew.inside,
      withChildren_withChildren]
    rfl

/-- By any of its keys but that of the help the command is taken away again, and nothing of it is
left. -/
theorem unlink_linked (isNew : g.IsNewTo parent name child) {key : Label}
    (own : name.same key = true ∨ key.isAmong (g.answers child) = true) :
    (g.linked parent name child).unlink parent key =
      if key = helpLabel then (none, g.linked parent name child) else (some child, g) := by
  split
  · rename_i help
    rw [help, unlink_help]
  · rename_i ordinary
    have found : ((g.linked parent name child).node parent).children.get? key = some child := by
      rw [linked, node_withChildren isNew.inside, if_pos rfl, Children.get?_insertAll,
        Labelled.get?_insert]
      rcases own with named | answered
      · rw [if_pos named, ite_self]
      · rw [if_pos answered]
    rw [unlink_of_found ordinary found]
    refine congrArg (Prod.mk (some child)) ?_
    have twice : (g.linked parent name child).removeChild parent child =
        g.withChildren parent fun children =>
          (Children.insertAll (children.insert name child) child (g.answers child)).without
            child :=
      withChildren_withChildren parent _ fun children => children.without child
    rw [twice]
    apply withChildren_eq_self
    rw [Children.without_insertAll, Children.without_insert]
    · exact Children.without_eq_self isNew.apart
    · intro other found
      rw [isNew.named] at found
      cases found
    · intro label member other found
      rw [Labelled.get?_insert, isNew.answers label member] at found
      split at found
      · exact (Option.some.inj found).symm
      · cases found

end IsNewTo

end Graph

namespace Plugin

open Switchboard.Graph

variable {bot later : Bot} {entry : String × Module} {name : Label}

/-- Once a plugin was loaded, its name leads to its command, and no key leads to another command
that the name led to before. -/
theorem loadOne_replaces (rooted : bot.graph.IsRooted) (known : entry.2.IsKnownIn bot.graph)
    (loaded : (loadOne entry).run bot = (.ok (some name), later)) (ordinary : name ≠ helpLabel) :
    ∃ id, (later.graph.node root).children.get? name = some id ∧
      ∀ old, (bot.graph.node root).children.get? name = some old → old ≠ id →
        ∀ key, (later.graph.node root).children.get? key ≠ some old := by
  have loads := loads_loadOne rooted known
  rw [loaded] at loads
  generalize same : later.graph = graph at loads
  cases loads with
  | @linked made middle ready setUp keyed =>
    obtain ⟨-, rests, -⟩ := setUp
    refine ⟨made.2, ?_, fun old before apart key found => ?_⟩
    · rw [get?_installed rests.rooted, if_pos (Label.same_refl made.1), ite_self]
    · rw [get?_installed rests.rooted, rests.children, before] at found
      split at found
      · exact apart (Option.some.inj found).symm
      split at found
      · exact apart (Option.some.inj found).symm
      split at found
      · cases found
      · rename_i kept
        exact kept ⟨ordinary, found⟩

end Plugin

namespace Graph

open Switchboard.Plugin

/-- Unlinking undoes linking. A command that is new to a parent can be put in, and is taken away
again by each of its keys, which leaves the whole graph as it was; only the key of the help takes
nothing away. Whatever a parent's keys are, those that go are the ones that lead to the command that
was named, and where none is found nothing changes. So after a plugin was loaded in place of another
one, no key leads to the command of that one. -/
theorem unlink_undoes_link (g : Graph) (parent : NodeId) :
    (∀ name child, g.IsNewTo parent name child →
      ∃ later, (link parent name child).run g = (.ok ⟨⟩, later) ∧
        ∀ key, name.same key = true ∨ key.isAmong (g.answers child) = true →
          later.unlink parent key =
            if key = helpLabel then (none, later) else (some child, g)) ∧
      (∀ name, name ≠ helpLabel →
        (g.unlink parent name).1 = (g.node parent).children.get? name ∧
          ∀ child, (g.unlink parent name).1 = some child →
            Released g (g.unlink parent name).2 parent child) ∧
      (∀ name, (g.unlink parent name).1 = none → (g.unlink parent name).2 = g) ∧
      ∀ (bot later : Bot) (entry : String × Module) (name : Label), bot.graph.IsRooted →
        entry.2.IsKnownIn bot.graph → (loadOne entry).run bot = (.ok (some name), later) →
        name ≠ helpLabel →
        ∃ id, (later.graph.node root).children.get? name = some id ∧
          ∀ old, (bot.graph.node root).children.get? name = some old → old ≠ id →
            ∀ key, (later.graph.node root).children.get? key ≠ some old := by
  refine ⟨?_, ?_, ?_, ?_⟩
  · intro name child isNew
    exact ⟨_, isNew.run_link, fun key own => isNew.unlink_linked own⟩
  · intro name ordinary
    cases found : (g.node parent).children.get? name with
    | none =>
      rw [unlink_of_missing found]
      exact ⟨rfl, nofun⟩
    | some child =>
      rw [unlink_of_found ordinary found]
      refine ⟨rfl, fun other same => ?_⟩
      obtain rfl := Option.some.inj same
      exact released_removeChild (lt_size_of_get? found) child
  · intro name nothing
    by_cases help : name = helpLabel
    · rw [help, unlink_help]
    · cases found : (g.node parent).children.get? name with
      | none => rw [unlink_of_missing found]
      | some child =>
        rw [unlink_of_found help found] at nothing
        cases nothing
  · intro bot later entry name rooted known loaded ordinary
    exact loadOne_replaces rooted known loaded ordinary

/-- A blank command, and a prepared one that answers to `k`. -/
def couple : Graph where
  nodes := #[
    helpOfHelpNode,
    { name := .text "p" },
    { name := .text "c", aliases := [.text "k"], children := [(helpLabel, 3), (.text "help", 3)],
      prepared := true },
    helpNode 2 (.text "c")]

theorem isNewTo_couple {name : Label} : couple.IsNewTo 1 name 2 where
  inside := by decide
  prepared := rfl
  keyed := by
    intro name member
    obtain rfl := List.mem_singleton.mp member
    rfl
  apart := nofun
  named := rfl
  answers _ _ := rfl

/-- A plugin whose command answers to `x`. -/
def answeringPlugin : String × Module :=
  ("a", aliased [.text "x"])

/-- A command is taken away by its alias; a plugin is loaded for the second time, and no key leads
to the command from the first time. -/
theorem unlink_undoes_link_couple :
    (∃ later, (link 1 (.text "c") 2).run couple = (.ok ⟨⟩, later) ∧
        later.unlink 1 (.text "k") = (some 2, couple) ∧
        Released later couple 1 2) ∧
      (couple.unlink 1 (.text "c")).2 = couple ∧
      ∃ first last : Bot, (loadOne answeringPlugin).run {} = (.ok (some (.text "a")), first) ∧
        (first.graph.node root).children.get? (.text "a") = some 3 ∧
        (loadOne answeringPlugin).run first = (.ok (some (.text "a")), last) ∧
        (last.graph.node root).children.get? (.text "a") = some 5 ∧
        ∀ key, (last.graph.node root).children.get? key ≠ some 3 := by
  refine ⟨?_, ?_, ?_⟩
  · obtain ⟨puts, -⟩ := unlink_undoes_link couple 1
    obtain ⟨later, done, back⟩ := puts (.text "c") 2 isNewTo_couple
    have gone := back (.text "k") (.inr rfl)
    rw [if_neg (by decide)] at gone
    obtain ⟨-, takes, -⟩ := unlink_undoes_link later 1
    obtain ⟨-, released⟩ := takes (.text "k") (by decide)
    rw [gone] at released
    exact ⟨later, done, gone, released 2 rfl⟩
  · obtain ⟨-, -, keeps, -⟩ := unlink_undoes_link couple 1
    exact keeps (.text "c") rfl
  · obtain ⟨-, -, -, reload⟩ := unlink_undoes_link couple 1
    have known (g : Graph) : answeringPlugin.2.IsKnownIn g := isKnownIn_aliased ["x"] g
    let first := ((loadOne answeringPlugin).run {}).2
    let last := ((loadOne answeringPlugin).run first).2
    have begun : (loadOne answeringPlugin).run {} = (.ok (some (.text "a")), first) :=
      run_eq_of_toOption (by decide +kernel)
    have done : (loadOne answeringPlugin).run first = (.ok (some (.text "a")), last) :=
      run_eq_of_toOption (by decide +kernel)
    have rooted : first.graph.IsRooted := by
      have loads : Loads {} answeringPlugin _ _ := loads_loadOne isRooted_start (known _)
      rw [begun] at loads
      exact loads.rooted
    have old : (first.graph.node root).children.get? (.text "a") = some 3 := by decide +kernel
    have new : (last.graph.node root).children.get? (.text "a") = some 5 := by decide +kernel
    obtain ⟨id, leads, replaced⟩ := reload first last answeringPlugin (.text "a") rooted
      (known _) done (by decide)
    obtain rfl := Option.some.inj (leads.symm.trans new)
    exact ⟨first, last, begun, old, done, new, replaced 3 old (by decide)⟩

/-- By the key of the help a command is not taken away, even if it stands there alone. -/
theorem not_unlink_by_help :
    ¬ ∀ (g later : Graph) (parent child : NodeId) (name key : Label),
      g.IsNewTo parent name child → (link parent name child).run g = (.ok ⟨⟩, later) →
      name.same key = true ∨ key.isAmong (g.answers child) = true →
      later.unlink parent key = (some child, g) := by
  intro undoes
  have isNew : couple.IsNewTo 1 helpLabel 2 := isNewTo_couple
  have undone := undoes couple _ 1 2 helpLabel helpLabel isNew isNew.run_link (.inl rfl)
  rw [unlink_help] at undone
  cases undone

end Graph
end Switchboard
