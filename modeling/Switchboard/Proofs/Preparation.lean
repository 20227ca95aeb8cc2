import Mathlib.Data.Finset.Card
import Mathlib.Data.Finset.Range
import Switchboard.Command.Link
import Switchboard.Proofs.Work

/-!
What preparing a command does to the graph. Commands that were prepared before stay as they are, and
if nothing fails then every command that was prepared on the way is whole: its rules are read, it
has a help, and its sub-commands are prepared.
-/
namespace Switchboard

namespace Labelled

variable {α : Type}

theorem mem_insert {entries : Labelled α} {label : Label} {value : α} {entry : Label × α}
    (member : entry ∈ insert entries label value) : entry.2 = value ∨ entry ∈ entries := by
  induction entries with
  | nil =>
    rw [List.mem_singleton.mp member]
    exact .inl rfl
  | cons first rest ih =>
    obtain ⟨known, old⟩ := first
    rw [insert] at member
    split at member
    · rcases List.mem_cons.mp member with rfl | later
      · exact .inl rfl
      · exact .inr (List.mem_cons_of_mem _ later)
    · rcases List.mem_cons.mp member with rfl | later
      · exact .inr List.mem_cons_self
      · rcases ih later with new | found
        · exact .inl new
        · exact .inr (List.mem_cons_of_mem _ found)

end Labelled

theorem Children.contains_insert {children : Children} {label : Label} (other : Label)
    (child : NodeId) (held : children.contains label = true) :
    Children.contains (children.insert other child) label = true := by
  rw [Children.contains, Labelled.get?_insert]
  split
  · rfl
  · exact held

theorem Children.contains_insert_self (children : Children) (label : Label) (child : NodeId) :
    Children.contains (children.insert label child) label = true := by
  rw [Children.contains, Labelled.get?_insert, if_pos (Label.same_refl label)]
  rfl

/-- A command whose arguments are rules. -/
def Node.IsRead (node : Node) : Prop :=
  ∀ parameters, node.parameters = some parameters →
    ∀ parameter ∈ parameters, ∃ rule, parameter = .parsed rule

namespace Graph

open Work

/-! ### Graphs -/

/-- A graph in which every child exists and the help that describes help is prepared. -/
structure Sound (g : Graph) : Prop where
  helped : (g.node helpOfHelp).prepared = true
  known : ∀ id, ∀ entry ∈ (g.node id).children, entry.2 < g.size

/-- A prepared command with all that belongs to it. -/
structure IsWhole (g : Graph) (id : NodeId) : Prop where
  prepared : (g.node id).prepared = true
  read : (g.node id).IsRead
  helped : (g.node id).children.contains helpLabel = true
  children : ∀ entry ∈ (g.node id).children, (g.node entry.2).prepared = true

theorem node_of_size_le {g : Graph} {id : NodeId} (outside : g.size ≤ id) : g.node id = {} := by
  rw [node, Array.getElem?_eq_none outside]
  rfl

theorem lt_size_of_prepared {g : Graph} {id : NodeId} (prepared : (g.node id).prepared = true) :
    id < g.size := by
  by_contra outside
  rw [node_of_size_le (Nat.le_of_not_lt outside)] at prepared
  cases prepared

theorem pending_eq (g : Graph) :
    g.pending = ((Finset.range g.size).filter fun id => (g.node id).prepared = false).card := by
  have nodes : g.nodes.toList = (List.range g.size).map g.node := by
    refine List.ext_getElem (by simp [size]) fun i inside _ => ?_
    have bound : i < g.nodes.size := inside
    simp [node, bound]
  rw [pending, nodes, List.countP_map, List.countP_eq_length_filter]
  simp [Finset.card, Finset.filter, Multiset.range, Function.comp_def]

/-! ### How preparing goes on -/

/-- A graph that grew out of another one: what was prepared is as it was, and the commands that were
added are whole. -/
structure Advance (g later : Graph) : Prop where
  sound : later.Sound
  grown : g.size ≤ later.size
  kept : ∀ id, (g.node id).prepared = true → later.node id = g.node id
  added : ∀ id, g.size ≤ id → id < later.size → later.IsWhole id

/-- An advance that left no command half prepared. -/
structure Finishes (g later : Graph) : Prop extends Advance g later where
  finished : ∀ id, (g.node id).prepared = false → (later.node id).prepared = true →
    later.IsWhole id

variable {g later last : Graph}

namespace Advance

theorem refl (sound : g.Sound) : Advance g g where
  sound := sound
  grown := Nat.le_refl _
  kept _ _ := rfl
  added _ outside inside := absurd inside (Nat.not_lt.mpr outside)

theorem prepared (advance : Advance g later) {id : NodeId} (before : (g.node id).prepared = true) :
    (later.node id).prepared = true := by
  rw [advance.kept id before]
  exact before

/-- What is whole stays whole. -/
theorem isWhole (advance : Advance g later) {id : NodeId} (whole : g.IsWhole id) :
    later.IsWhole id := by
  have same := advance.kept id whole.prepared
  refine ⟨advance.prepared whole.prepared, ?_, ?_, fun entry member => ?_⟩
  · rw [same]
    exact whole.read
  · rw [same]
    exact whole.helped
  · rw [same] at member
    exact advance.prepared (whole.children entry member)

theorem trans (first : Advance g later) (second : Advance later last) : Advance g last where
  sound := second.sound
  grown := Nat.le_trans first.grown second.grown
  kept id before := (second.kept id (first.prepared before)).trans (first.kept id before)
  added id outside inside := by
    by_cases early : id < later.size
    · exact second.isWhole (first.added id outside early)
    · exact second.added id (Nat.le_of_not_lt early) inside

theorem unprepared_subset (advance : Advance g later) :
    ((Finset.range later.size).filter fun id => (later.node id).prepared = false) ⊆
      (Finset.range g.size).filter fun id => (g.node id).prepared = false := by
  intro id member
  obtain ⟨inside, unprepared⟩ := Finset.mem_filter.mp member
  have early : id < g.size := by
    by_contra outside
    have whole := advance.added id (Nat.le_of_not_lt outside) (Finset.mem_range.mp inside)
    exact Bool.false_ne_true (unprepared.symm.trans whole.prepared)
  refine Finset.mem_filter.mpr ⟨Finset.mem_range.mpr early, Bool.eq_false_iff.mpr fun before => ?_⟩
  exact Bool.false_ne_true (unprepared.symm.trans (advance.prepared before))

theorem pending_le (advance : Advance g later) : later.pending ≤ g.pending := by
  rw [pending_eq, pending_eq]
  exact Finset.card_le_card advance.unprepared_subset

/-- A command that was prepared on the way is not pending any more. -/
theorem pending_lt (advance : Advance g later) {id : NodeId} (inside : id < g.size)
    (before : (g.node id).prepared = false) (after : (later.node id).prepared = true) :
    later.pending < g.pending := by
  rw [pending_eq, pending_eq]
  refine Finset.card_lt_card ((Finset.ssubset_iff_of_subset advance.unprepared_subset).mpr
    ⟨id, ?_, fun member => ?_⟩)
  · exact Finset.mem_filter.mpr ⟨Finset.mem_range.mpr inside, before⟩
  · exact Bool.false_ne_true ((Finset.mem_filter.mp member).2.symm.trans after)

end Advance

namespace Finishes

theorem refl (sound : g.Sound) : Finishes g g where
  toAdvance := .refl sound
  finished _ before after := absurd (before.symm.trans after) Bool.false_ne_true

theorem trans (first : Finishes g later) (second : Finishes later last) : Finishes g last where
  toAdvance := first.toAdvance.trans second.toAdvance
  finished id before after := by
    cases middle : (later.node id).prepared with
    | true => exact second.isWhole (first.finished id before middle)
    | false => exact second.finished id middle after

end Finishes

/-! ### Changes of one command -/

section Update

variable {id : NodeId} {f : Node → Node}

/-- A change by which no command starts or stops to be prepared. -/
theorem prepared_update (inside : id < g.size)
    (same : (f (g.node id)).prepared = (g.node id).prepared) (other : NodeId) :
    ((g.update id f).node other).prepared = (g.node other).prepared := by
  rw [node_update g id other f inside]
  split
  · rename_i here
    rw [← here, same]
  · rfl

theorem sound_update (sound : g.Sound) (inside : id < g.size)
    (marked : (g.node id).prepared = true → (f (g.node id)).prepared = true)
    (known : ∀ entry ∈ (f (g.node id)).children, entry.2 < g.size) : (g.update id f).Sound := by
  refine ⟨?_, fun other entry member => ?_⟩
  · rw [node_update g id _ f inside]
    split
    · rename_i here
      rw [← here]
      refine marked ?_
      rw [here]
      exact sound.helped
    · exact sound.helped
  · rw [node_update g id _ f inside] at member
    rw [size_update]
    split at member
    · rename_i here
      rw [← here] at member
      exact known entry member
    · exact sound.known other entry member

/-- Other commands stay whole as long as none of their sub-commands stops to be prepared. -/
theorem isWhole_update (inside : id < g.size)
    (marked : (g.node id).prepared = true → (f (g.node id)).prepared = true) {other : NodeId}
    (apart : other ≠ id) (whole : g.IsWhole other) : (g.update id f).IsWhole other := by
  have same := node_update g id other f inside
  rw [if_neg (Ne.symm apart)] at same
  refine ⟨?_, ?_, ?_, fun entry member => ?_⟩
  · rw [same]
    exact whole.prepared
  · rw [same]
    exact whole.read
  · rw [same]
    exact whole.helped
  · rw [same] at member
    rw [node_update g id _ f inside]
    split
    · rename_i here
      rw [← here]
      refine marked ?_
      rw [here]
      exact whole.children entry member
    · exact whole.children entry member

end Update

/-! ### One command under way -/

/-- The preparing of the command at `id` under way: it is marked, and every other command that was
prepared since is whole. -/
structure Underway (g : Graph) (id : NodeId) (later : Graph) : Prop extends Advance g later where
  inside : id < g.size
  fresh : (g.node id).prepared = false
  marked : (later.node id).prepared = true
  others : ∀ other, other ≠ id → (g.node other).prepared = false →
    (later.node other).prepared = true → later.IsWhole other

namespace Underway

variable {id : NodeId}

theorem mark (sound : g.Sound) (inside : id < g.size) (fresh : (g.node id).prepared = false)
    (name : Label) : Underway g id (g.update id (mark · name)) where
  sound := sound_update sound inside (fun _ => rfl) (sound.known id)
  grown := Nat.le_of_eq (size_update g id _).symm
  kept other before := by
    have apart : id ≠ other := by
      rintro rfl
      exact Bool.false_ne_true (fresh.symm.trans before)
    rw [node_update g id other _ inside, if_neg apart]
  added other outside early := by
    rw [size_update] at early
    exact absurd early (Nat.not_lt.mpr outside)
  inside := inside
  fresh := fresh
  marked := by
    rw [node_update g id id _ inside, if_pos rfl]
    rfl
  others other apart before after := by
    rw [node_update g id other _ inside, if_neg (Ne.symm apart)] at after
    exact absurd (before.symm.trans after) Bool.false_ne_true

theorem lt_size (underway : Underway g id later) : id < later.size :=
  lt_size_of_prepared underway.marked

/-- A change of the command itself. -/
theorem update (underway : Underway g id later) {f : Node → Node}
    (marked : (f (later.node id)).prepared = true)
    (known : ∀ entry ∈ (f (later.node id)).children, entry.2 < later.size) :
    Underway g id (later.update id f) where
  sound := sound_update underway.sound underway.lt_size (fun _ => marked) known
  grown := by
    rw [size_update]
    exact underway.grown
  kept other before := by
    have apart : id ≠ other := by
      rintro rfl
      exact Bool.false_ne_true (underway.fresh.symm.trans before)
    rw [node_update later id other f underway.lt_size, if_neg apart]
    exact underway.kept other before
  added other outside early := by
    rw [size_update] at early
    have apart : other ≠ id := by
      rintro rfl
      exact absurd underway.inside (Nat.not_lt.mpr outside)
    exact isWhole_update underway.lt_size (fun _ => marked) apart
      (underway.added other outside early)
  inside := underway.inside
  fresh := underway.fresh
  marked := by
    rw [node_update later id id f underway.lt_size, if_pos rfl]
    exact marked
  others other apart before after := by
    rw [node_update later id other f underway.lt_size, if_neg (Ne.symm apart)] at after
    exact isWhole_update underway.lt_size (fun _ => marked) apart
      (underway.others other apart before after)

/-- What others go on with is none of the command's business. -/
theorem finishes (underway : Underway g id later) (finishes : Finishes later last) :
    Underway g id last where
  toAdvance := underway.toAdvance.trans finishes.toAdvance
  inside := underway.inside
  fresh := underway.fresh
  marked := finishes.prepared underway.marked
  others other apart before after := by
    cases middle : (later.node other).prepared with
    | true => exact finishes.isWhole (underway.others other apart before middle)
    | false => exact finishes.finished other middle after

theorem setChild (underway : Underway g id later) (label : Label) {child : NodeId}
    (prepared : (later.node child).prepared = true) :
    Underway g id (later.setChild id label child) := by
  refine underway.update underway.marked fun entry member => ?_
  rcases Labelled.mem_insert member with same | old
  · rw [same]
    exact lt_size_of_prepared prepared
  · exact underway.sound.known id entry old

theorem pending_lt (underway : Underway g id later) : later.pending < g.pending :=
  underway.toAdvance.pending_lt underway.inside underway.fresh underway.marked

/-- Once the command is whole, every command that was prepared is. -/
theorem finish (underway : Underway g id later) (whole : later.IsWhole id) :
    Finishes g later where
  toAdvance := underway.toAdvance
  finished other before after := by
    by_cases same : other = id
    · rw [same]
      exact whole
    · exact underway.others other same before after

end Underway

theorem size_add (g : Graph) (node : Node) : (g.add node).2.size = g.size + 1 := by
  simp [add, size]

theorem node_add_of_lt {id : NodeId} (inside : id < g.size) (node : Node) :
    (g.add node).2.node id = g.node id := by
  rw [node_add, if_neg (Nat.ne_of_lt inside)]

theorem sound_add (sound : g.Sound) {node : Node}
    (known : ∀ entry ∈ node.children, entry.2 < g.size) : (g.add node).2.Sound := by
  refine ⟨?_, fun id entry member => ?_⟩
  · rw [node_add_of_lt (lt_size_of_prepared sound.helped)]
    exact sound.helped
  · rw [size_add]
    rw [node_add] at member
    split at member
    · exact Nat.lt_succ_of_lt (known entry member)
    · exact Nat.lt_succ_of_lt (sound.known id entry member)

/-- A help that is added is whole. -/
theorem finishes_add (sound : g.Sound) (id : NodeId) (name : Label) :
    Finishes g (g.add (helpNode id name)).2 := by
  have here : (g.add (helpNode id name)).2.node g.size = helpNode id name := by
    rw [node_add, if_pos rfl]
  have helps : ∀ entry ∈ (helpNode id name).children, entry.2 = helpOfHelp := by
    intro entry member
    obtain ⟨text, -, rfl⟩ := List.mem_map.mp member
    rfl
  have soundLater : (g.add (helpNode id name)).2.Sound := by
    refine sound_add sound fun entry member => ?_
    rw [helps entry member]
    exact lt_size_of_prepared sound.helped
  have whole : (g.add (helpNode id name)).2.IsWhole g.size := by
    refine ⟨?_, ?_, ?_, ?_⟩
    · rw [here]
      rfl
    · rw [here]
      rintro parameters declared parameter member
      obtain rfl := Option.some.inj declared
      cases member
    · rw [here]
      rfl
    · rw [here]
      intro entry member
      rw [helps entry member]
      exact soundLater.helped
  have new {other : NodeId} (outside : g.size ≤ other)
      (inside : other < (g.add (helpNode id name)).2.size) : other = g.size := by
    rw [size_add] at inside
    exact Nat.le_antisymm (Nat.le_of_lt_succ inside) outside
  refine {
    sound := soundLater, grown := ?_
    kept := fun other before => node_add_of_lt (lt_size_of_prepared before) _
    added := fun other outside inside => new outside inside ▸ whole, finished := ?_ }
  · rw [size_add]
    exact Nat.le_succ _
  · intro other before after
    have inside := lt_size_of_prepared after
    by_cases early : other < g.size
    · rw [node_add_of_lt early, before] at after
      cases after
    · exact new (Nat.le_of_not_lt early) inside ▸ whole

/-! ### What becomes of the children -/

section SetChild

variable {parent : NodeId} (label : Label) {child : NodeId}

theorem node_setChild (inside : parent < g.size) (other : NodeId) :
    (g.setChild parent label child).node other =
      if parent = other then
        { g.node other with children := (g.node other).children.insert label child }
      else g.node other :=
  node_update g parent other _ inside

theorem prepared_setChild (inside : parent < g.size) (other : NodeId) :
    ((g.setChild parent label child).node other).prepared = (g.node other).prepared :=
  prepared_update inside rfl other

/-- A command is whole if only its help was missing. -/
theorem isWhole_setChild (marked : (g.node parent).prepared = true) (read : (g.node parent).IsRead)
    (children : ∀ entry ∈ (g.node parent).children, (g.node entry.2).prepared = true)
    (prepared : (g.node child).prepared = true)
    (helped : Children.contains ((g.node parent).children.insert label child) helpLabel = true) :
    (g.setChild parent label child).IsWhole parent := by
  have inside := lt_size_of_prepared marked
  have here : (g.setChild parent label child).node parent = _ :=
    node_setChild label inside parent
  rw [if_pos rfl] at here
  refine ⟨?_, ?_, ?_, fun entry member => ?_⟩
  · rw [prepared_setChild label inside]
    exact marked
  · rw [here]
    exact read
  · rw [here]
    exact helped
  · rw [prepared_setChild label inside]
    rw [here] at member
    rcases Labelled.mem_insert member with same | old
    · rw [same]
      exact prepared
    · exact children entry old

end SetChild

/-- What each alias keeps is kept by all of them. -/
theorem leads_addAliases {holds otherwise : Graph → Prop} {parent child : NodeId}
    (kept : ∀ g label, holds g → holds (g.setChild parent label child))
    (fails : ∀ g, holds g → otherwise g) :
    Leads holds (fun _ => holds) otherwise (addAliases parent child) := by
  refine .get_bind fun g known => ?_
  have each (name : Document) :
      Leads holds (fun _ => holds) otherwise (addAlias parent child name) :=
    (Leads.ofExcept (fun _ _ => id) fails).bind fun label => .modify fun g => kept g label
  refine (Leads.forM (g.node child).aliases fun name _ => each name).weaken ?_
    (fun _ _ led => led) fun _ led => led
  rintro other rfl
  exact known

theorem leads_addChildAliases {id : NodeId} :
    Leads (fun later => Underway g id later ∧ later.IsWhole id)
      (fun _ later => Underway g id later ∧ later.IsWhole id) (Advance g ·)
      (addChildAliases id) := by
  refine .get_bind fun start known => ?_
  let holds : Graph → Prop := fun later =>
    (Underway g id later ∧ later.IsWhole id) ∧
      ∀ child ∈ (start.node id).children.nodes, (later.node child).prepared = true
  have each (child : NodeId) (member : child ∈ (start.node id).children.nodes) :
      Leads holds (fun _ => holds) (Advance g ·) (addAliases id child) := by
    refine leads_addAliases (fun later label led => ?_) fun later led => led.1.1.toAdvance
    obtain ⟨⟨underway, whole⟩, prepared⟩ := led
    have here := prepared child member
    refine ⟨⟨underway.setChild label here, ?_⟩, fun other old => ?_⟩
    · exact isWhole_setChild label whole.prepared whole.read whole.children here
        (Children.contains_insert label child whole.helped)
    · rw [prepared_setChild label underway.lt_size]
      exact prepared other old
  refine (Leads.forM (start.node id).children.nodes each).weaken ?_ (fun _ _ led => led.1)
    fun _ led => led
  rintro other rfl
  refine ⟨known, fun child member => ?_⟩
  obtain ⟨entry, here, rfl⟩ := List.mem_map.mp member
  exact known.2.children entry here

/-- A command that was read and whose sub-commands are prepared lacks nothing but its help. -/
theorem Underway.addHelp {id : NodeId} (underway : Underway g id later)
    (read : (later.node id).IsRead)
    (children : ∀ entry ∈ (later.node id).children, (later.node entry.2).prepared = true)
    (name : Label) :
    Underway g id (later.addHelp id name) ∧ (later.addHelp id name).IsWhole id := by
  unfold Graph.addHelp
  split
  · rename_i helped
    exact ⟨underway, underway.marked, read, helped, children⟩
  · have added := finishes_add underway.sound id name
    have same := added.kept id underway.marked
    have help : ((later.add (helpNode id name)).2.node later.size).prepared = true := by
      rw [node_add, if_pos rfl]
      rfl
    have goesOn := underway.finishes added
    change Underway g id ((later.add (helpNode id name)).2.setChild id helpLabel later.size) ∧
      ((later.add (helpNode id name)).2.setChild id helpLabel later.size).IsWhole id
    refine ⟨goesOn.setChild helpLabel help, ?_⟩
    refine isWhole_setChild helpLabel goesOn.marked ?_ (fun entry member => ?_) help
      (Children.contains_insert_self _ _ _)
    · rw [same]
      exact read
    · rw [same] at member
      exact added.prepared (children entry member)

/-- Declarations that can be read give rules. -/
theorem leads_parsed {holds otherwise : Graph → Prop} (parameters : List Parameter)
    (fails : ∀ g, holds g → otherwise g) :
    Leads holds
      (fun parsed g => holds g ∧ ∀ parameter ∈ parsed, ∃ rule, parameter = .parsed rule)
      otherwise
      (parameters.mapM fun parameter => (liftM (parsedParameter parameter) : GraphM _)) := by
  refine .mapM parameters fun parameter => .liftM (fun parsed g done known => ⟨known, ?_⟩) fails
  cases parameter with
  | parsed rule => exact ⟨rule, (Except.ok.inj done).symm⟩
  | declared spec =>
    rw [parsedParameter] at done
    cases rule : Rule.parse spec with
    | error failure =>
      rw [rule] at done
      cases done
    | ok rule' =>
      rw [rule] at done
      exact ⟨rule', (Except.ok.inj done).symm⟩

/-- What preparing leads to with enough fuel. -/
def Prepares (g : Graph) (id : NodeId) (work : GraphM Unit) : Prop :=
  Leads (· = g) (fun _ later => Finishes g later ∧ (later.node id).prepared = true) (Advance g ·)
    work

theorem leads_children {fuel : Nat}
    (each : ∀ (g : Graph) (id : NodeId) (name : Label), g.Sound → id < g.size → g.pending < fuel →
      Prepares g id (prepareWithin fuel id name))
    (entries : Children) {g : Graph} (sound : g.Sound) (known : ∀ entry ∈ entries, entry.2 < g.size)
    (enough : g.pending < fuel) :
    Leads (· = g)
      (fun _ later => Finishes g later ∧
        ∀ entry ∈ entries, (later.node entry.2).prepared = true) (Advance g ·)
      (forIn entries PUnit.unit fun entry _ => do
        prepareWithin fuel entry.2 entry.1
        pure (.yield PUnit.unit) : GraphM PUnit) := by
  induction entries generalizing g with
  | nil =>
    refine .pure fun later same => ?_
    subst same
    exact ⟨.refl sound, nofun⟩
  | cons entry rest ih =>
    rw [List.forIn_cons, bind_assoc]
    have first := each g entry.2 entry.1 sound (known entry List.mem_cons_self) enough
    refine first.bind fun _ => ?_
    rintro next ⟨finishes, prepared⟩
    have goOn := ih finishes.sound
      (fun other member => Nat.lt_of_lt_of_le (known other (List.mem_cons_of_mem _ member))
        finishes.grown)
      (Nat.lt_of_le_of_lt finishes.pending_le enough)
    refine goOn.weaken (fun _ led => led) (fun _ last led => ?_) (fun last => ?_) next rfl
    · refine ⟨finishes.trans led.1, fun other member => ?_⟩
      rcases List.mem_cons.mp member with rfl | later
      · exact led.1.prepared prepared
      · exact led.2 other later
    · exact finishes.toAdvance.trans

/-- With enough fuel a command is prepared, and everything that is prepared on the way is whole,
unless something fails. -/
theorem prepares_prepareWithin (fuel : Nat) (g : Graph) (id : NodeId) (name : Label)
    (sound : g.Sound) (inside : id < g.size) (enough : g.pending < fuel) :
    Prepares g id (prepareWithin fuel id name) := by
  induction fuel generalizing g id name with
  | zero => cases enough
  | succ fuel ih =>
    rw [prepareWithin]
    refine .get_bind fun start same => ?_
    subst same
    split
    · rename_i prepared
      refine .pure fun later same => ?_
      subst same
      exact ⟨.refl sound, prepared⟩
    rename_i unprepared
    have fresh : (start.node id).prepared = false := Bool.eq_false_iff.mpr unprepared
    -- From here on the command is marked, so it is not prepared again further down.
    refine Leads.via (fun _ later => Underway start id later) (.modify ?_) fun _ => ?_
    · rintro later rfl
      exact .mark sound inside fresh name
    have rest : Leads (fun later => Underway start id later ∧ (later.node id).IsRead)
        (fun _ later => Finishes start later ∧ (later.node id).prepared = true) (Advance start ·)
        (do
          for entry in ((← get).node id).children do
            prepareWithin fuel entry.2 entry.1
          modify fun g => g.addHelp id name
          addChildAliases id : GraphM Unit) := by
      refine .get_bind fun marked known => ?_
      obtain ⟨underway, read⟩ := known
      have loop := leads_children (fun g id name => ih g id name) (marked.node id).children
        underway.sound (underway.sound.known id)
        (Nat.lt_of_lt_of_le underway.pending_lt (Nat.le_of_lt_succ enough))
      refine (loop.weaken (fun _ led => led) (fun _ _ led => led)
        fun _ => underway.toAdvance.trans).bind fun _ => ?_
      refine Leads.via (fun _ later => Underway start id later ∧ later.IsWhole id)
        (.modify fun later led => ?_) fun _ => ?_
      · obtain ⟨finishes, children⟩ := led
        have same := finishes.kept id underway.marked
        refine (underway.finishes finishes).addHelp ?_ ?_ name
        · rw [same]
          exact read
        · rw [same]
          exact children
      · refine leads_addChildAliases.weaken (fun _ led => led) (fun _ later led => ?_)
          fun _ led => led
        exact ⟨led.1.finish led.2, led.1.marked⟩
    refine .get_bind fun marked underway => ?_
    split
    · rename_i none
      refine rest.weaken ?_ (fun _ _ led => led) fun _ led => led
      rintro later rfl
      refine ⟨underway, fun parameters declared => ?_⟩
      rw [none] at declared
      cases declared
    · rename_i parameters declared
      refine Leads.bind (leads_parsed parameters ?_) fun parsed => ?_
      · rintro later rfl
        exact underway.toAdvance
      · refine Leads.bind (.modify ?_) fun _ => rest
        rintro later ⟨rfl, rules⟩
        refine ⟨underway.update underway.marked (underway.sound.known id), ?_⟩
        rw [node_update later id id _ underway.lt_size, if_pos rfl]
        rintro known held parameter member
        obtain rfl := Option.some.inj held
        exact rules parameter member

theorem prepares_prepare {g : Graph} {id : NodeId} (sound : g.Sound) (inside : id < g.size)
    (name : Label) : Prepares g id (prepare id name) := by
  refine .get_bind fun start same => ?_
  subst same
  exact prepares_prepareWithin _ start id name sound inside (Nat.lt_succ_self _)

end Graph
end Switchboard
