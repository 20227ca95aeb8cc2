import Switchboard.Plugin.Loading
import Switchboard.Proofs.Completion
import Switchboard.Proofs.Registry

/-!
What loading a plugin does to the root. Setting a plugin up leaves the root's keys alone; after that
the command under the plugin's name is taken away, under all of its keys, and the new one is put
under the name and all that it answers to. That fails if an alias is no label.
-/
namespace Switchboard

open Work

namespace Labelled

variable {α : Type}

theorem get?_eq_none_iff {entries : Labelled α} {label : Label} :
    get? entries label = none ↔ ∀ known ∈ entries.map Prod.fst, known.same label = false := by
  induction entries with
  | nil => simp
  | cons entry rest ih =>
    obtain ⟨known, value⟩ := entry
    cases here : known.same label <;> simp [here, ih]

theorem exists_of_get? {entries : Labelled α} {label : Label} {value : α}
    (found : entries.get? label = some value) : ∃ known, (known, value) ∈ entries := by
  induction entries with
  | nil => cases found
  | cons entry rest ih =>
    obtain ⟨known, other⟩ := entry
    rw [get?_cons] at found
    split at found
    · obtain rfl := Option.some.inj found
      exact ⟨known, List.mem_cons_self⟩
    · obtain ⟨later, member⟩ := ih found
      exact ⟨later, List.mem_cons_of_mem _ member⟩

theorem get?_congr {label other : Label} (same : label.same other = true) (entries : Labelled α) :
    get? entries label = get? entries other := by
  induction entries with
  | nil => rfl
  | cons entry rest ih =>
    obtain ⟨known, value⟩ := entry
    have equal : known.same label = known.same other := by
      apply Bool.eq_iff_iff.mpr
      constructor
      · exact fun here => Label.same_trans here same
      · exact fun here => Label.same_trans here (Label.same_comm label other ▸ same)
    rw [get?_cons, get?_cons, equal, ih]

/-- A label that is the same key as a known one is not kept. -/
theorem labels_insert (entries : Labelled α) (label : Label) (value : α) :
    (insert entries label value).map Prod.fst =
      if (get? entries label).isSome then entries.map Prod.fst
      else entries.map Prod.fst ++ [label] := by
  induction entries with
  | nil => rfl
  | cons entry rest ih =>
    obtain ⟨known, old⟩ := entry
    cases here : known.same label with
    | true => simp [insert, here]
    | false =>
      simp only [insert, here, Bool.false_eq_true, if_false, List.map_cons, ih, get?_cons]
      split <;> rfl

end Labelled

namespace Children

variable {children : Children}

/-- Children in which each key stands once. -/
def HasKeysOnce (children : Children) : Prop :=
  children.labels.Pairwise fun first second => first.same second = false

theorem HasKeysOnce.insert (once : children.HasKeysOnce) (label : Label) (child : NodeId) :
    HasKeysOnce (Labelled.insert children label child) := by
  unfold HasKeysOnce labels
  rw [Labelled.labels_insert]
  split
  · exact once
  · rename_i missing
    apply List.pairwise_append.mpr
    refine ⟨once, List.pairwise_singleton _ _, fun known member other new => ?_⟩
    obtain rfl := List.mem_singleton.mp new
    exact Labelled.get?_eq_none_iff.mp (Option.not_isSome_iff_eq_none.mp missing) known member

theorem HasKeysOnce.insertAll (once : children.HasKeysOnce) (child : NodeId)
    (labels : List Label) : HasKeysOnce (children.insertAll child labels) := by
  induction labels generalizing children with
  | nil => exact once
  | cons label rest ih => exact ih (once.insert label child)

theorem HasKeysOnce.without (once : children.HasKeysOnce) (child : NodeId) :
    HasKeysOnce (children.without child) :=
  List.Pairwise.sublist (List.Sublist.map Prod.fst List.filter_sublist) once

theorem get?_without (once : children.HasKeysOnce) (child : NodeId) (label : Label) :
    Labelled.get? (children.without child) label =
      if Labelled.get? children label = some child then none else Labelled.get? children label := by
  induction children with
  | nil => rfl
  | cons entry rest ih =>
    obtain ⟨known, old⟩ := entry
    obtain ⟨apart, later⟩ := List.pairwise_cons.mp once
    have goOn := ih later
    simp only [without, ne_eq, decide_not] at goOn ⊢
    cases here : known.same label with
    | false => by_cases same : old = child <;> simp [here, same, goOn]
    | true =>
      by_cases same : old = child
      · -- No later entry has the key.
        have missing : Labelled.get? rest label = none := by
          refine Labelled.get?_eq_none_iff.mpr fun other member => ?_
          have different := apart other member
          cases both : other.same label with
          | false => rfl
          | true =>
            have equal := Label.same_trans here (Label.same_comm other label ▸ both)
            exact absurd (different.symm.trans equal) Bool.false_ne_true
        simp [here, same, goOn, missing]
      · simp [here, same]

/-- The children without the one under a name, which goes with all its keys; the help stays. -/
def released (children : Children) (name : Label) : Children :=
  match children.get? name with
  | none => children
  | some child => if name = helpLabel then children else children.without child

theorem HasKeysOnce.released (once : children.HasKeysOnce) (name : Label) :
    HasKeysOnce (children.released name) := by
  unfold Children.released
  split
  · exact once
  · split
    · exact once
    · exact once.without _

theorem get?_released (once : children.HasKeysOnce) (name label : Label) :
    Labelled.get? (children.released name) label =
      if name ≠ helpLabel ∧ Labelled.get? children label = Labelled.get? children name then none
      else Labelled.get? children label := by
  unfold released
  split
  · rename_i missing
    by_cases none : Labelled.get? children label = none <;> simp [missing, none]
  · rename_i child found
    split
    · rename_i help
      simp [help]
    · rename_i ordinary
      rw [get?_without once, found]
      simp [ordinary]

theorem mem_of_released {name : Label} {entry : Label × NodeId}
    (member : entry ∈ children.released name) : entry ∈ children := by
  unfold released at member
  split at member
  · exact member
  · split at member
    · exact member
    · exact (mem_without.mp member).1

end Children

/-- A command that is known under labels alone. -/
def Node.IsKeyed (node : Node) : Prop :=
  ∀ name ∈ node.aliases, (Label.ofDocument? name).isSome = true

namespace Graph

variable {g later last : Graph} {name : Label} {parent id : NodeId}

/-! ### The root -/

/-- A graph whose root is prepared and has each key once. -/
structure IsRooted (g : Graph) : Prop where
  sound : g.Sound
  prepared : (g.node root).prepared = true
  once : (g.node root).children.HasKeysOnce

/-- What becomes of a graph while the keys of its root stay as they are. -/
structure Rests (g later : Graph) : Prop where
  rooted : later.IsRooted
  grown : g.size ≤ later.size
  children : (later.node root).children = (g.node root).children

theorem isRooted_start : Graph.start.IsRooted where
  sound := Registry.inOrder_start.sound
  prepared := Registry.inOrder_start.root
  once := by
    unfold Children.HasKeysOnce
    decide +kernel

theorem IsRooted.inside (rooted : g.IsRooted) : root < g.size :=
  lt_size_of_prepared rooted.prepared

theorem Rests.refl (rooted : g.IsRooted) : Rests g g :=
  ⟨rooted, Nat.le_refl _, rfl⟩

theorem Rests.trans (first : Rests g later) (second : Rests later last) : Rests g last :=
  ⟨second.rooted, Nat.le_trans first.grown second.grown, second.children.trans first.children⟩

theorem IsRooted.rests_of_adds (rooted : g.IsRooted) (adds : Adds g later) : Rests g later := by
  obtain ⟨title, same⟩ := adds.old root rooted.inside
  refine ⟨⟨adds.sound, ?_, ?_⟩, adds.grown, ?_⟩
  · rw [adds.prepared]
    exact rooted.prepared
  · rw [same]
    exact rooted.once
  · rw [same]

theorem IsRooted.rests_of_advance (rooted : g.IsRooted) (advance : Advance g later) :
    Rests g later := by
  have same := advance.kept root rooted.prepared
  refine ⟨⟨advance.sound, advance.prepared rooted.prepared, ?_⟩, advance.grown, ?_⟩
  · rw [same]
    exact rooted.once
  · rw [same]

/-- The root can get other children that exist. -/
theorem IsRooted.withChildren (rooted : g.IsRooted) {change : Children → Children}
    (known : ∀ entry ∈ change (g.node root).children, entry.2 < g.size)
    (once : (change (g.node root).children).HasKeysOnce) :
    (g.withChildren root change).IsRooted where
  sound := sound_update rooted.sound rooted.inside id known
  prepared := by
    rw [Graph.withChildren, prepared_update rooted.inside rfl]
    exact rooted.prepared
  once := by
    rw [node_withChildren rooted.inside, if_pos rfl]
    exact once

/-! ### Taking away and putting in -/

theorem withChildren_eq_self {change : Children → Children}
    (same : change (g.node id).children = (g.node id).children) : g.withChildren id change = g := by
  have equal : g.withChildren id change = g.withChildren id fun children => children :=
    withChildren_congr same
  exact equal.trans (update_same id)

theorem unlink_eq (g : Graph) (parent : NodeId) (name : Label) :
    (g.unlink parent name).2 = g.withChildren parent fun children => children.released name := by
  unfold unlink
  split
  · rename_i missing
    exact (withChildren_eq_self (by simp [Children.released, missing])).symm
  · rename_i child found
    split
    · rename_i help
      exact (withChildren_eq_self (by simp [Children.released, found, if_pos help])).symm
    · rename_i ordinary
      apply withChildren_congr
      simp only [Children.released, found, if_neg ordinary, Children.without]

/-- A command can take the place of the one under the root that had its name, and stand under
whatever labels. -/
theorem IsRooted.put (rooted : g.IsRooted) (known : id < g.size) (name : Label)
    (labels : List Label) :
    (g.withChildren root fun children =>
      Children.insertAll ((children.released name).insert name id) id labels).IsRooted := by
  apply rooted.withChildren
  · intro entry member
    rcases Children.mem_insertAll member with same | member
    · exact same ▸ known
    · rcases Labelled.mem_insert member with same | old
      · exact same ▸ known
      · exact rooted.sound.known root entry (Children.mem_of_released old)
  · exact ((rooted.once.released name).insert name id).insertAll id labels

/-- The graph with a command in the place of the one under the root that had its name. -/
def installed (g : Graph) (name : Label) (id : NodeId) : Graph :=
  g.withChildren root fun children =>
    Children.insertAll ((children.released name).insert name id) id (g.answers id)

theorem isRooted_installed (rooted : g.IsRooted) (known : id < g.size) :
    (g.installed name id).IsRooted :=
  rooted.put known name (g.answers id)

theorem isRooted_unlink (rooted : g.IsRooted) : (g.unlink root name).2.IsRooted := by
  rw [unlink_eq]
  apply rooted.withChildren
  · exact fun entry member => rooted.sound.known root entry (Children.mem_of_released member)
  · exact rooted.once.released name

/-- What a key of the root leads to after a command was put in. -/
theorem get?_installed (rooted : g.IsRooted) (label : Label) :
    ((g.installed name id).node root).children.get? label =
      if label.isAmong (g.answers id) then some id
      else if name.same label then some id
      else if name ≠ helpLabel ∧
        (g.node root).children.get? label = (g.node root).children.get? name then none
      else (g.node root).children.get? label := by
  unfold installed
  rw [node_withChildren rooted.inside, if_pos rfl, Children.get?_insertAll, Labelled.get?_insert,
    Children.get?_released rooted.once]

/-- What a key of the root leads to after a command was taken away. -/
theorem get?_unlink (rooted : g.IsRooted) (label : Label) :
    ((g.unlink root name).2.node root).children.get? label =
      if name ≠ helpLabel ∧
        (g.node root).children.get? label = (g.node root).children.get? name then none
      else (g.node root).children.get? label := by
  rw [unlink_eq, node_withChildren rooted.inside, if_pos rfl, Children.get?_released rooted.once]

/-! ### Commands whose aliases are labels -/

theorem isOk_addAlias (g : Graph) (parent child : NodeId) (name : Document) :
    ((addAlias parent child name).run g).1.isOk = (Label.ofDocument? name).isSome := by
  unfold addAlias Label.ofDocument
  rw [run_bind, run_ofExcept]
  cases Label.ofDocument? name <;> rfl

theorem isOk_addEach (g : Graph) (parent child : NodeId) (names : List Document) :
    ((names.forM (addAlias parent child)).run g).1.isOk = true ↔
      ∀ name ∈ names, (Label.ofDocument? name).isSome = true := by
  induction names generalizing g with
  | nil => exact iff_of_true rfl nofun
  | cons name rest ih =>
    have step : (name :: rest).forM (addAlias parent child) =
        (addAlias parent child name >>= fun _ => rest.forM (addAlias parent child)) := rfl
    have first := isOk_addAlias g parent child name
    rw [step, run_bind, List.forall_mem_cons, ← first]
    rcases (addAlias parent child name).run g with ⟨result, later⟩
    cases result with
    | error failure => exact iff_of_false Bool.false_ne_true fun both => nomatch both.1
    | ok done => exact (ih later).trans (iff_and_self.mpr fun _ => rfl)

/-- Preparing does nothing to a command that is prepared. -/
theorem run_prepare_of_prepared (prepared : (g.node id).prepared = true) (name : Label) :
    (prepare id name).run g = (.ok ⟨⟩, g) := by
  unfold prepare prepareWithin
  rw [run_bind_ok _ (run_get g), run_bind_ok _ (run_get g), if_pos prepared]
  rfl

/-- Puts a command in the place of the one under the root that has its name. -/
def replace (name : Label) (id : NodeId) : GraphM Unit := do
  modify fun g => (g.unlink root name).2
  link root name id

/-- The graph with a command under the root as `name`, before it is put under its aliases. -/
def placed (g : Graph) (name : Label) (id : NodeId) : Graph :=
  g.withChildren root fun children => (children.released name).insert name id

theorem aliases_placed (rooted : g.IsRooted) (name : Label) :
    ((g.placed name id).node id).aliases = (g.node id).aliases := by
  unfold placed
  rw [node_withChildren rooted.inside]
  split <;> rfl

/-- A prepared command just has to be put under its keys. -/
theorem run_replace_eq (rooted : g.IsRooted) (prepared : (g.node id).prepared = true)
    (name : Label) :
    (replace name id).run g =
      ((g.node id).aliases.forM (addAlias root id)).run (g.placed name id) := by
  have still : ((g.unlink root name).2.node id).prepared = true := by
    rw [unlink_eq, withChildren, prepared_update rooted.inside rfl]
    exact prepared
  have put : (g.unlink root name).2.setChild root name id = g.placed name id := by
    rw [unlink_eq]
    exact withChildren_withChildren root (fun children => children.released name)
      fun children => children.insert name id
  unfold replace link addAliases
  rw [run_bind_ok _ (run_modify _ g), run_bind_ok _ (run_prepare_of_prepared still name),
    run_bind_ok _ (run_modify _ _), run_bind_ok _ (run_get _), put, aliases_placed rooted]

/-- Putting a command in the place of another one succeeds just if its aliases are labels, and then
nothing but the children of the root changed. -/
theorem run_replace (rooted : g.IsRooted) (prepared : (g.node id).prepared = true)
    (name : Label) :
    (∃ failure later, (replace name id).run g = (.error failure, later) ∧
        ¬ (g.node id).IsKeyed) ∨
      (replace name id).run g = (.ok ⟨⟩, g.installed name id) ∧ (g.node id).IsKeyed := by
  have keyed := isOk_addEach (g.placed name id) root id (g.node id).aliases
  rw [run_replace_eq rooted prepared name]
  rcases ran : ((g.node id).aliases.forM (addAlias root id)).run (g.placed name id)
    with ⟨result, later⟩
  rw [ran] at keyed
  cases result with
  | error failure =>
    exact .inl ⟨failure, later, rfl, fun all => Bool.false_ne_true (keyed.mpr all)⟩
  | ok done =>
    refine .inr ⟨?_, keyed.mp rfl⟩
    rw [run_addEach ran, placed, withChildren_withChildren, installed,
      answers_of_lt (lt_size_of_prepared prepared)]

end Graph
end Switchboard
