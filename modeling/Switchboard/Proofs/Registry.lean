import Mathlib.Data.Set.Basic
import Switchboard.Bot.Basic
import Switchboard.Proofs.Building

/-!
The commands of a bot over a whole run of calls, some of which may fail. A command that is marked
before it is done can be left half prepared by a call that fails on the way, and goes for prepared
when it is handed in again. Apart from such commands everything that can be reached is whole.
-/
namespace Switchboard

open Work

/-- The commands that are marked by work that fails. -/
def Graph.leftHalf (g : Graph) (work : GraphM Unit) : Set NodeId :=
  { id | (work.run g).1.isOk = false ∧ (g.node id).prepared = false ∧
    ((work.run g).2.node id).prepared = true }

/-- What the root leads to through certain commands. -/
inductive Graph.Reaches (g : Graph) (through : Set NodeId) : NodeId → Prop
  | root : Reaches g through Graph.root
  | child {id : NodeId} {entry : Label × NodeId} (parent : Reaches g through id)
    (passable : id ∈ through) (member : entry ∈ (g.node id).children) : Reaches g through entry.2

/-- A call that builds commands or changes the graph of commands. -/
inductive Call where
  /-- Makes a command by hand. -/
  | create (node : Node)
  | build (name : Label) (spec : Spec)
  | prepare (id : NodeId) (name : Label)
  | link (parent : NodeId) (name : Label) (child : NodeId)
  | unlink (parent : NodeId) (name : Label)
  | register (name : Label) (spec : Spec)

namespace Call

/-- A call about commands that exist. -/
def IsKnownIn (g : Graph) : Call → Prop
  | .create node => g.Has node.children
  | .build _ spec | .register _ spec => ∀ id, .node id ∈ spec.lives → id < g.size
  | .prepare id _ => id < g.size
  | .link parent _ child => parent < g.size ∧ child < g.size
  | .unlink parent _ => parent < g.size

/-- The part of a call in which commands are prepared. -/
def preparation : Call → GraphM Unit
  | .prepare id name => Graph.prepare id name
  | .link _ name child => Graph.prepare child name
  | .register name spec => do Graph.prepare (← Graph.build name spec) name
  | .create _ | .build _ _ | .unlink _ _ => pure ()

/-- What a call does. -/
def work : Call → GraphM Unit
  | .create node => modify fun g => (g.add node).2
  | .build name spec => discard (Graph.build name spec)
  | .prepare id name => Graph.prepare id name
  | .link parent name child => Graph.link parent name child
  | .unlink parent name => modify fun g => (g.unlink parent name).2
  | .register name spec => do Graph.link Graph.root name (← Graph.build name spec)

/-- The graph after a call, whether or not it failed. -/
def after (call : Call) (g : Graph) : Graph :=
  (call.work.run g).2

/-- The commands that go for prepared after a call although nobody saw to it that they are: those
that were marked by a preparation that failed, and one that was made with the mark. -/
def spoils (g : Graph) : Call → Set NodeId
  | .create node => { id | id = g.size ∧ node.prepared = true }
  | call => g.leftHalf call.preparation

/-- The commands whose help a call takes away. -/
def strips (g : Graph) : Call → Set NodeId
  | .unlink parent name =>
    { id | (g.node id).children.contains helpLabel = true ∧
      ((g.unlink parent name).2.node id).children.contains helpLabel = false }
  | _ => ∅

theorem graph_onGraph {α : Type} (work : GraphM α) (bot : Bot) :
    ((Bot.onGraph work).run bot).2.graph = (work.run bot.graph).2 := by
  unfold Bot.onGraph
  rw [run_bind, run_get]
  dsimp only
  rcases work.run bot.graph with ⟨result, later⟩
  cases result with
  | error failure => rfl
  | ok value => rfl

/-- Registering a command with a bot changes its graph as the call does. -/
theorem graph_register (bot : Bot) (name : Label) (spec : Spec) :
    ((Bot.register name spec).run bot).2.graph = (register name spec).after bot.graph := by
  rw [Bot.register, graph_onGraph, after, work, run_bind, run_bind]
  rcases (Graph.build name spec).run bot.graph with ⟨result, built⟩
  cases result with
  | error failure => rfl
  | ok id =>
    dsimp only
    rw [run_bind]
    rcases (Graph.link Graph.root name id).run built with ⟨result, linked⟩
    cases result with
    | error failure => rfl
    | ok done => rfl

end Call

/-- A graph of commands with what happened to it. -/
structure Registry where
  graph : Graph := Graph.start
  spoiled : Set NodeId := ∅
  stripped : Set NodeId := ∅

namespace Registry

/-- The registry after a call. -/
def after (registry : Registry) (call : Call) : Registry where
  graph := call.after registry.graph
  spoiled := registry.spoiled ∪ call.spoils registry.graph
  stripped := registry.stripped ∪ call.strips registry.graph

/-- The registries that a new bot comes to by calls about commands that exist. -/
inductive Occurs : Registry → Prop
  | start : Occurs {}
  | call {registry : Registry} {call : Call} (earlier : Occurs registry)
    (known : call.IsKnownIn registry.graph) : Occurs (registry.after call)

variable {registry : Registry} {g later : Graph} {spoiled stripped : Set NodeId} {id : NodeId}

/-- A command with all that belongs to it, but for a help that was taken away. -/
structure IsSettled (registry : Registry) (id : NodeId) : Prop where
  read : (registry.graph.node id).IsRead
  helped : (registry.graph.node id).children.contains helpLabel = true ∨ id ∈ registry.stripped
  children : ∀ entry ∈ (registry.graph.node id).children,
    (registry.graph.node entry.2).prepared = true

/-- A registry whose root is prepared and whose prepared commands are settled unless they are
spoiled. -/
structure InOrder (registry : Registry) : Prop where
  sound : registry.graph.Sound
  root : (registry.graph.node Graph.root).prepared = true
  settled : ∀ id, (registry.graph.node id).prepared = true → id ∉ registry.spoiled →
    registry.IsSettled id

namespace InOrder

/-- The more is known to be spoiled or stripped, the less is asked. -/
theorem mono {spoiled' stripped' : Set NodeId} (inOrder : InOrder ⟨g, spoiled, stripped⟩)
    (more : spoiled ⊆ spoiled') (moreStripped : stripped ⊆ stripped') :
    InOrder ⟨g, spoiled', stripped'⟩ where
  sound := inOrder.sound
  root := inOrder.root
  settled id prepared fine := by
    have settled := inOrder.settled id prepared fun old => fine (more old)
    refine ⟨settled.read, settled.helped.imp_right fun old => moreStripped old, settled.children⟩

/-- A command that stays as it was stays settled. -/
theorem settled_of_same (inOrder : InOrder ⟨g, spoiled, stripped⟩)
    (prepared : (g.node id).prepared = true) (fine : id ∉ spoiled)
    (read : (later.node id).parameters = (g.node id).parameters)
    (children : (later.node id).children = (g.node id).children)
    (kept : ∀ other, (g.node other).prepared = true → (later.node other).prepared = true)
    {spoiled' : Set NodeId} : IsSettled ⟨later, spoiled', stripped⟩ id := by
  have settled := inOrder.settled id prepared fine
  refine ⟨?_, ?_, fun entry member => ?_⟩
  · intro parameters declared
    rw [read] at declared
    exact settled.read parameters declared
  · rw [children]
    exact settled.helped
  · rw [children] at member
    exact kept entry.2 (settled.children entry member)

theorem of_isWhole (whole : later.IsWhole id) : IsSettled ⟨later, spoiled, stripped⟩ id :=
  ⟨whole.read, .inl whole.helped, whole.children⟩

/-- Building leaves the prepared commands alone. -/
theorem adds (inOrder : InOrder ⟨g, spoiled, stripped⟩) (adds : Graph.Adds g later) :
    InOrder ⟨later, spoiled, stripped⟩ := by
  have same (id : NodeId) : (later.node id).prepared = (g.node id).prepared := adds.prepared id
  refine ⟨adds.sound, (same Graph.root).trans inOrder.root, fun id prepared fine => ?_⟩
  have before : (g.node id).prepared = true := (same id).symm.trans prepared
  obtain ⟨name, renamed⟩ := adds.old id (Graph.lt_size_of_prepared before)
  refine inOrder.settled_of_same before fine ?_ ?_ fun other => ((same other).trans ·)
  · rw [renamed]
  · rw [renamed]

theorem finishes (inOrder : InOrder ⟨g, spoiled, stripped⟩) (finishes : Graph.Finishes g later) :
    InOrder ⟨later, spoiled, stripped⟩ := by
  refine ⟨finishes.sound, finishes.prepared inOrder.root, fun id prepared fine => ?_⟩
  cases before : (g.node id).prepared with
  | true =>
    have same := finishes.kept id before
    refine inOrder.settled_of_same before fine ?_ ?_ fun other => finishes.prepared
    · rw [same]
    · rw [same]
  | false => exact of_isWhole (finishes.finished id before prepared)

/-- Whatever a preparation that fails has marked is spoiled. -/
theorem advance (inOrder : InOrder ⟨g, spoiled, stripped⟩) (advance : Graph.Advance g later) :
    InOrder ⟨later,
      spoiled ∪ { id | (g.node id).prepared = false ∧ (later.node id).prepared = true },
      stripped⟩ := by
  refine ⟨advance.sound, advance.prepared inOrder.root, fun id prepared fine => ?_⟩
  cases before : (g.node id).prepared with
  | true =>
    have same := advance.kept id before
    refine inOrder.settled_of_same before (fun old => fine (.inl old)) ?_ ?_
      fun other => advance.prepared
    · rw [same]
    · rw [same]
  | false => exact absurd (.inr ⟨before, prepared⟩) fine

/-- The children of a command can be exchanged for others that are prepared. -/
theorem update (inOrder : InOrder ⟨g, spoiled, stripped⟩) {parent : NodeId}
    (inside : parent < g.size) {f : Children → Children} {stripped' : Set NodeId}
    (more : stripped ⊆ stripped')
    (prepared : ∀ entry ∈ f (g.node parent).children,
      entry ∈ (g.node parent).children ∨ (g.node entry.2).prepared = true)
    (helped : (g.node parent).children.contains helpLabel = true →
      (f (g.node parent).children).contains helpLabel = true ∨ parent ∈ stripped') :
    InOrder ⟨g.update parent fun node => { node with children := f node.children }, spoiled,
      stripped'⟩ := by
  have same (id : NodeId) := Graph.prepared_update (g := g)
    (f := fun node : Node => { node with children := f node.children }) inside rfl id
  refine ⟨Graph.sound_update inOrder.sound inside id fun entry member => ?_,
    (same Graph.root).trans inOrder.root, fun id marked fine => ?_⟩
  · rcases prepared entry member with old | new
    · exact inOrder.sound.known parent entry old
    · exact Graph.lt_size_of_prepared new
  have settled := inOrder.settled id ((same id).symm.trans marked) fine
  have node := Graph.node_update g parent id
    (fun node : Node => { node with children := f node.children }) inside
  by_cases here : parent = id
  · subst here
    rw [if_pos rfl] at node
    refine ⟨?_, ?_, fun entry member => ?_⟩
    · rw [node]
      exact settled.read
    · rw [node]
      rcases settled.helped with held | taken
      · exact helped held
      · exact .inr (more taken)
    · rw [node] at member
      rw [same]
      rcases prepared entry member with old | new
      · exact settled.children entry old
      · exact new
  · rw [if_neg here] at node
    refine ⟨?_, ?_, fun entry member => ?_⟩
    · rw [node]
      exact settled.read
    · rw [node]
      exact settled.helped.imp_right fun taken => more taken
    · rw [node] at member
      rw [same]
      exact settled.children entry member

/-- A prepared command can be put under any other. -/
theorem setChild (inOrder : InOrder ⟨g, spoiled, stripped⟩) {parent child : NodeId}
    (inside : parent < g.size) (prepared : (g.node child).prepared = true) (label : Label) :
    InOrder ⟨g.setChild parent label child, spoiled, stripped⟩ := by
  refine inOrder.update (f := fun children => children.insert label child) inside subset_rfl
    (fun entry member => ?_) fun held => .inl (Children.contains_insert label child held)
  rcases Labelled.mem_insert member with same | old
  · rw [same]
    exact .inr prepared
  · exact .inl old

/-- A command can be taken away from any other, together with its help if that is the same one. -/
theorem unlink (inOrder : InOrder ⟨g, spoiled, stripped⟩) {parent : NodeId}
    (inside : parent < g.size) (name : Label) :
    InOrder ⟨(g.unlink parent name).2, spoiled,
      stripped ∪ (Call.unlink parent name).strips g⟩ := by
  unfold Graph.unlink
  split
  · exact inOrder.mono subset_rfl Set.subset_union_left
  rename_i child found
  split
  · exact inOrder.mono subset_rfl Set.subset_union_left
  rename_i ordinary
  have taken : (g.unlink parent name).2 = g.removeChild parent child := by
    rw [Graph.unlink, found]
    exact congrArg Prod.snd (if_neg ordinary)
  refine inOrder.update (f := fun children => children.without child) inside Set.subset_union_left
    (fun entry member => .inl (Children.mem_without.mp member).1) fun held => ?_
  cases left : ((g.node parent).children.without child).contains helpLabel with
  | true => exact .inl rfl
  | false =>
    refine .inr (.inr ⟨held, ?_⟩)
    rw [taken, Graph.removeChild, Graph.node_update g parent parent _ inside, if_pos rfl]
    exact left

theorem prepare (inOrder : InOrder ⟨g, spoiled, stripped⟩) {child : NodeId}
    (inside : child < g.size) (name : Label) :
    InOrder ⟨((Graph.prepare child name).run g).2,
      spoiled ∪ g.leftHalf (Graph.prepare child name), stripped⟩ := by
  have led := Graph.prepares_prepare inOrder.sound inside name g rfl
  unfold Graph.leftHalf
  rcases ran : (Graph.prepare child name).run g with ⟨result, later⟩
  rw [ran] at led
  cases result with
  | ok done => exact (inOrder.finishes led.1).mono Set.subset_union_left subset_rfl
  | error failure =>
    refine (inOrder.advance led).mono (Set.union_subset_union_right _ ?_) subset_rfl
    exact fun id half => ⟨rfl, half⟩

theorem link (inOrder : InOrder ⟨g, spoiled, stripped⟩) {parent child : NodeId}
    (inside : parent < g.size) (known : child < g.size) (name : Label) :
    InOrder ⟨((Graph.link parent name child).run g).2,
      spoiled ∪ g.leftHalf (Graph.prepare child name), stripped⟩ := by
  have led := Graph.prepares_prepare inOrder.sound known name g rfl
  have kept := inOrder.prepare known name
  unfold Graph.link
  rw [run_bind]
  rcases ran : (Graph.prepare child name).run g with ⟨result, later⟩
  rw [ran] at led kept
  cases result with
  | error failure => exact kept
  | ok done =>
    -- Whether or not all aliases can be put in, the child is prepared by now.
    let holds : Graph → Prop := fun last =>
      InOrder ⟨last, spoiled ∪ g.leftHalf (Graph.prepare child name), stripped⟩ ∧
        (last.node child).prepared = true ∧ parent < last.size
    have put (last : Graph) (label : Label) (known : holds last) :
        holds (last.setChild parent label child) := by
      obtain ⟨inOrder, prepared, inside⟩ := known
      refine ⟨inOrder.setChild inside prepared label, ?_, ?_⟩
      · rw [Graph.prepared_setChild label inside]
        exact prepared
      · rw [Graph.setChild, Graph.size_update]
        exact inside
    have leads : Leads holds (fun _ => holds) holds (do
        modify fun g => g.setChild parent name child
        Graph.addAliases parent child : GraphM Unit) :=
      Leads.bind (.modify fun last known => put last name known) fun _ =>
        Graph.leads_addAliases put fun _ known => known
    have begun : holds later := ⟨kept, led.2, Nat.lt_of_lt_of_le inside led.1.grown⟩
    exact (leads.snd begun).1

theorem create (inOrder : InOrder ⟨g, spoiled, stripped⟩) {node : Node}
    (known : g.Has node.children) :
    InOrder ⟨(g.add node).2, spoiled ∪ (Call.create node).spoils g, stripped⟩ := by
  have kept (id : NodeId) (prepared : (g.node id).prepared = true) :
      (g.add node).2.node id = g.node id :=
    Graph.node_add_of_lt (Graph.lt_size_of_prepared prepared) node
  refine ⟨Graph.sound_add inOrder.sound known, ?_, fun id prepared fine => ?_⟩
  · rw [kept Graph.root inOrder.root]
    exact inOrder.root
  rw [Graph.node_add] at prepared
  split at prepared
  · rename_i new
    exact absurd (.inr ⟨new, prepared⟩) fine
  · have same := kept id prepared
    refine inOrder.settled_of_same prepared (fun old => fine (.inl old)) ?_ ?_ ?_
    · rw [same]
    · rw [same]
    · intro other before
      rw [kept other before]
      exact before

theorem build (inOrder : InOrder ⟨g, spoiled, stripped⟩) {spec : Spec}
    (known : ∀ id, .node id ∈ spec.lives → id < g.size) (name : Label) :
    InOrder ⟨((Graph.build name spec).run g).2, spoiled, stripped⟩ :=
  inOrder.adds ((Graph.builds_build g name spec known).adds inOrder.sound)

theorem register (inOrder : InOrder ⟨g, spoiled, stripped⟩) {spec : Spec}
    (known : ∀ id, .node id ∈ spec.lives → id < g.size) (name : Label) :
    InOrder ⟨(Call.register name spec).after g,
      spoiled ∪ (Call.register name spec).spoils g, stripped⟩ := by
  have built := inOrder.build known name
  have led := Graph.builds_build g name spec known g (.refl inOrder.sound) g rfl
  have work : (Call.register name spec).after g =
      ((Graph.build name spec >>= Graph.link Graph.root name).run g).2 := rfl
  have halves : (Call.register name spec).spoils g =
      g.leftHalf (Graph.build name spec >>= fun id => Graph.prepare id name) := rfl
  rw [work, halves, Graph.leftHalf, run_bind, run_bind]
  rcases ran : (Graph.build name spec).run g with ⟨result, later⟩
  rw [ran] at led built
  cases result with
  | error failure => exact built.mono Set.subset_union_left subset_rfl
  | ok id =>
    obtain ⟨adds, inside⟩ := led
    have linked := built.link (Graph.lt_size_of_prepared built.root) inside name
    refine linked.mono (Set.union_subset_union_right _ fun half spoiled => ?_) subset_rfl
    obtain ⟨failed, before, after⟩ := spoiled
    exact ⟨failed, (adds.prepared half).symm.trans before, after⟩

/-- One step: what is in order stays in order, whether or not the call fails. -/
theorem after (inOrder : registry.InOrder) {call : Call} (known : call.IsKnownIn registry.graph) :
    (registry.after call).InOrder := by
  obtain ⟨g, spoiled, stripped⟩ := registry
  cases call with
  | create node => exact (inOrder.create known).mono subset_rfl Set.subset_union_left
  | build name spec =>
    have built := inOrder.build known name
    unfold Registry.after Call.after Call.work
    rw [run_discard]
    exact built.mono Set.subset_union_left Set.subset_union_left
  | prepare id name => exact (inOrder.prepare known name).mono subset_rfl Set.subset_union_left
  | link parent name child =>
    exact (inOrder.link known.1 known.2 name).mono subset_rfl Set.subset_union_left
  | unlink parent name => exact (inOrder.unlink known name).mono Set.subset_union_left subset_rfl
  | register name spec =>
    exact (inOrder.register known name).mono subset_rfl Set.subset_union_left

end InOrder

/-- The graph that every bot starts with is whole. -/
theorem isWhole_start {id : NodeId} (inside : id < Graph.start.size) : Graph.start.IsWhole id := by
  have three : Graph.start.size = 3 := by decide +kernel
  have checked : ∀ id < 3,
      (Graph.start.node id).prepared = true ∧
      ((Graph.start.node id).parameters.getD []).isEmpty = true ∧
      (Graph.start.node id).children.contains helpLabel = true ∧
      ∀ entry ∈ (Graph.start.node id).children, (Graph.start.node entry.2).prepared = true := by
    decide +kernel
  obtain ⟨prepared, none, helped, children⟩ := checked id (three ▸ inside)
  refine ⟨prepared, fun parameters declared parameter member => ?_, helped, children⟩
  rw [declared, Option.getD_some, List.isEmpty_iff] at none
  rw [none] at member
  cases member

theorem inOrder_start : InOrder {} := by
  have sound : Graph.start.Sound := by
    refine ⟨by decide +kernel, fun id entry member => ?_⟩
    by_cases inside : id < Graph.start.size
    · exact Graph.lt_size_of_prepared ((isWhole_start inside).children entry member)
    · rw [Graph.node_of_size_le (Nat.le_of_not_lt inside)] at member
      cases member
  refine ⟨sound, by decide +kernel, fun id prepared _ => ?_⟩
  exact InOrder.of_isWhole (isWhole_start (Graph.lt_size_of_prepared prepared))

/-- Every registry that occurs is in order. -/
theorem Occurs.inOrder (occurs : registry.Occurs) : registry.InOrder := by
  induction occurs with
  | start => exact inOrder_start
  | call _ known ih => exact ih.after known

/-- Whatever calls were made, and whether or not they failed: each command that the root leads to
through commands that are not spoiled is prepared, and unless it is spoiled itself its arguments are
rules and it has a help, but for one that was taken away. -/
theorem reached_prepared (occurs : registry.Occurs)
    (reaches : registry.graph.Reaches registry.spoiledᶜ id) :
    (registry.graph.node id).prepared = true ∧
      (id ∉ registry.spoiled →
        (registry.graph.node id).IsRead ∧
        ((registry.graph.node id).children.contains helpLabel = true ∨
          id ∈ registry.stripped)) := by
  have inOrder := occurs.inOrder
  have prepared : (registry.graph.node id).prepared = true := by
    induction reaches with
    | root => exact inOrder.root
    | child _ fine member ih => exact (inOrder.settled _ ih fine).children _ member
  refine ⟨prepared, fun fine => ?_⟩
  have settled := inOrder.settled id prepared fine
  exact ⟨settled.read, settled.helped⟩

/-- A registry with one more command, made by hand with one argument and put under the root. -/
def withCommand (argument : String) : Registry :=
  (({} : Registry).after (.create { parameters := some [.declared (.text argument)] })).after
    (.link Graph.root (.text "a") 3)

theorem occurs_withCommand (argument : String) : (withCommand argument).Occurs :=
  have size : ((({} : Registry).after
      (.create { parameters := some [.declared (.text argument)] })).graph).size = 4 :=
    Graph.size_add Graph.start _
  .call (.call .start nofun) ⟨by rw [size]; decide, by rw [size]; decide⟩

/-- A command that could not be prepared is put under the root when that is tried again. -/
theorem half_prepared_reached :
    ¬ ∀ (registry : Registry) (id : NodeId), registry.Occurs →
      registry.graph.Reaches Set.univ id →
      (registry.graph.node id).prepared = true ∧ (registry.graph.node id).IsRead ∧
        ((registry.graph.node id).children.contains helpLabel = true ∨
          id ∈ registry.stripped) := by
  intro whole
  let again := (withCommand "x:float").after (.link Graph.root (.text "a") 3)
  have occurs : again.Occurs :=
    .call (occurs_withCommand "x:float") ⟨by decide +kernel, by decide +kernel⟩
  have unread : (again.graph.node 3).parameters = some [.declared (.text "x:float")] := by rfl
  have member : (Label.text "a", 3) ∈ (again.graph.node Graph.root).children := by decide +kernel
  obtain ⟨-, read, -⟩ := whole again 3 occurs (.child .root (Set.mem_univ _) member)
  obtain ⟨rule, same⟩ := read _ unread _ List.mem_cons_self
  cases same

/-- A command that could be prepared. -/
theorem reached_prepared_once :
    ((withCommand "x:num").graph.node 3).prepared = true ∧
      ((withCommand "x:num").graph.node 3).IsRead := by
  have fine (id : NodeId) : id ∉ (withCommand "x:num").spoiled := by
    rintro ((old | ⟨-, made⟩) | ⟨failed, -⟩)
    · exact old
    · cases made
    · revert failed
      decide +kernel
  have member : (Label.text "a", 3) ∈ ((withCommand "x:num").graph.node Graph.root).children := by
    decide +kernel
  obtain ⟨prepared, settled⟩ :=
    reached_prepared (occurs_withCommand "x:num") (.child .root (fine Graph.root) member)
  exact ⟨prepared, (settled (fine 3)).1⟩

end Registry
end Switchboard
