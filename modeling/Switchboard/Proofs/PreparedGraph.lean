import Mathlib.Logic.Relation
import Switchboard.Proofs.Replacement

/-!
What preparing makes of a whole graph. When a command was prepared without a failure, everything
that can be reached from it is settled: the rules of its arguments are read, no key is lost, and
each alias of a sub-command leads to a sub-command with that alias. This holds of commands that were
met again while they were still being prepared as well, since they are settled by the time that the
course ends.
-/
namespace Switchboard

open Work

theorem Children.contains_answering {children : Children} {label : Label}
    (answers : NodeId → List Label) (held : children.contains label = true) :
    (children.answering answers).contains label = true := by
  unfold contains at held ⊢
  rw [get?_answering, Option.isSome_or, held, Bool.or_true]

theorem Label.isAmong_of_mem {label : Label} {labels : List Label} (member : label ∈ labels) :
    label.isAmong labels = true :=
  List.any_eq_true.mpr ⟨label, member, Label.same_refl label⟩

namespace Graph

variable {g middle later last : Graph} {id child : NodeId} {name : Label} {declared : Node}

/-! ### Commands whose sub-commands are known under labels alone -/

theorem isKeyed_of_run_addAliases {parent : NodeId}
    (done : (addAliases parent child).run g = (.ok ⟨⟩, later)) : (g.node child).IsKeyed := by
  have keyed := isOk_addEach g parent child (g.node child).aliases
  have ran : ((g.node child).aliases.forM (addAlias parent child)).run g = (.ok ⟨⟩, later) := done
  rw [ran] at keyed
  exact keyed.mp rfl

theorem isKeyed_of_run_addEachAliases {kids : List NodeId} (inside : id < g.size)
    (known : ∀ kid ∈ kids, kid < g.size)
    (done : (kids.forM (addAliases id)).run g = (.ok ⟨⟩, later)) :
    ∀ kid ∈ kids, (g.node kid).IsKeyed := by
  induction kids generalizing g with
  | nil => exact nofun
  | cons kid rest ih =>
    obtain ⟨⟨⟩, middle, first, others⟩ := run_bind_eq_ok done
    have keyed := isKeyed_of_run_addAliases first
    obtain rfl := run_addAliases (known kid List.mem_cons_self) first
    have more := ih (by simpa using inside)
      (fun other member => by simpa using known other (List.mem_cons_of_mem kid member)) others
    intro other member
    rcases List.mem_cons.mp member with rfl | later
    · exact keyed
    · have found := more other later
      rw [node_withChildren inside] at found
      split at found <;> exact found

/-- A command could be closed only if its sub-commands are known under labels alone. -/
theorem isKeyed_of_run_closing (sound : g.Sound) (inside : id < g.size)
    (done : (closing id name).run g = (.ok ⟨⟩, later)) :
    ∀ kid ∈ ((g.addHelp id name).node id).children.nodes,
      ((g.addHelp id name).node kid).IsKeyed := by
  rw [closing, run_bind_ok _ (run_modify _ g)] at done
  have got := gotHelp_addHelp inside name
  refine isKeyed_of_run_addEachAliases (Nat.lt_of_lt_of_le inside got.grown) ?_ done
  intro kid member
  obtain ⟨entry, here, rfl⟩ := List.mem_map.mp member
  exact got.known sound entry here

/-! ### Everything that was prepared -/

/-- A completion in which the arguments of every command that was prepared were read, and its
sub-commands are known under labels alone. -/
structure Thorough (g later : Graph) : Prop extends Completion g later where
  read : ∀ id, id < g.size → (g.node id).prepared = false → (later.node id).prepared = true →
    parsedParameters (g.node id).parameters = .ok (later.node id).parameters
  keyed : ∀ id, id < g.size → (g.node id).prepared = false → (later.node id).prepared = true →
    ∀ child ∈ (later.node id).children.nodes, (later.node child).IsKeyed

theorem Sound.lt_of_mem_nodes (sound : g.Sound) (member : child ∈ (g.node id).children.nodes) :
    child < g.size := by
  obtain ⟨entry, here, rfl⟩ := List.mem_map.mp member
  exact sound.known id entry here

namespace Thorough

theorem refl (sound : g.Sound) : Thorough g g where
  toCompletion := .refl sound
  read _ _ before after := absurd (before.symm.trans after) Bool.false_ne_true
  keyed _ _ before after := absurd (before.symm.trans after) Bool.false_ne_true

theorem trans (first : Thorough g later) (second : Thorough later last) : Thorough g last where
  toCompletion := first.toCompletion.trans second.toCompletion
  read id early before after := by
    cases met : (later.node id).prepared with
    | true =>
      rw [second.kept id met]
      exact first.read id early before met
    | false =>
      have inside := Nat.lt_of_lt_of_le early first.grown
      rw [← first.left id early met]
      exact second.read id inside met after
  keyed id early before after := by
    cases met : (later.node id).prepared with
    | true =>
      intro child member
      rw [second.kept id met] at member
      have keyed := first.keyed id early before met child member
      have same := second.aliases_eq (first.sound.lt_of_mem_nodes member)
      rw [Node.IsKeyed, same]
      exact keyed
    | false => exact second.keyed id (Nat.lt_of_lt_of_le early first.grown) met after

/-- Marking, filling and closing a command is thorough if what happened below it was. -/
theorem of_fills {marked helped : Graph} {parameters : Option (List Parameter)}
    (marks : Marks g marked id name parameters)
    (read : parsedParameters (g.node id).parameters = .ok parameters)
    (below : Thorough marked middle) (fills : Fills marked middle helped later id name)
    (keyed : ∀ kid ∈ (helped.node id).children.nodes, (helped.node kid).IsKeyed)
    (completion : Completion g later) : Thorough g later where
  toCompletion := completion
  read other early before after := by
    by_cases apart : other = id
    · subst apart
      obtain ⟨children, -, node⟩ := fills.got.helped
      rw [read, fills.node_eq marks, if_pos rfl, node, below.kept other marks.prepared, marks.here]
    · have inside := Nat.lt_of_lt_of_le (marks.size ▸ early) below.grown
      rw [fills.elsewhere marks apart inside] at after ⊢
      rw [← marks.others other apart] at before ⊢
      exact below.read other (marks.size ▸ early) before after
  keyed other early before after := by
    have room : id < middle.size := lt_size_of_prepared (below.prepared marks.prepared)
    intro child member
    by_cases apart : other = id
    · subst apart
      rw [fills.node_eq marks, if_pos rfl] at member
      obtain ⟨entry, here, rfl⟩ := List.mem_map.mp member
      have found := keyed entry.2 (Children.mem_nodes_of_answering here)
      rw [fills.node_eq marks]
      split <;> exact found
    · have inside := Nat.lt_of_lt_of_le (marks.size ▸ early) below.grown
      rw [fills.elsewhere marks apart inside] at after member
      rw [← marks.others other apart] at before
      have found := below.keyed other (marks.size ▸ early) before after child member
      rw [Node.IsKeyed, fills.aliases_eq marks (below.sound.lt_of_mem_nodes member)]
      exact found

end Thorough

/-- A course that ends without a failure is thorough. -/
theorem Ends.thorough {task : Task} {result : Except Failure Unit}
    (ends : Ends task g result later) (sound : g.Sound) (known : task.IsKnownIn g)
    (fine : result = .ok ⟨⟩) : Thorough g later := by
  induction ends with
  | again met => exact .refl sound
  | unread | stopped | first => cases fine
  | none => exact .refl sound
  | closed fresh opened below finished ih =>
    subst fine
    have completion := (Ends.closed fresh opened below finished).completion sound known rfl
    obtain ⟨parameters, read, marks, underway, rfl⟩ :=
      run_opening_eq_ok sound known fresh opened
    have thorough := ih underway.sound (underway.sound.known _) rfl
    have room := lt_size_of_prepared (thorough.prepared marks.prepared)
    have filled := run_closing_eq_ok thorough.sound room finished
    have keyed := isKeyed_of_run_closing thorough.sound room finished
    exact .of_fills marks read thorough
      ⟨thorough.toCompletion, gotHelp_addHelp room _, filled⟩ keyed completion
  | next head others ihHead ihOthers =>
    have first := ihHead sound (known _ List.mem_cons_self) rfl
    exact first.trans (ihOthers first.sound (known.tail.mono first.grown) fine)

/-! ### Settled commands -/

/-- A command that was declared like this, settled: it is prepared and the rules of its arguments
are read, it has every key that it had and a help, and each alias of one of its sub-commands is a
key that leads to a sub-command with that alias. -/
structure Settled (g : Graph) (id : NodeId) (declared : Node) : Prop where
  prepared : (g.node id).prepared = true
  read : parsedParameters declared.parameters = .ok (g.node id).parameters
  kept : ∀ label, declared.children.contains label = true →
    (g.node id).children.contains label = true
  helped : (g.node id).children.contains helpLabel = true
  answered : ∀ child ∈ (g.node id).children.nodes, ∀ name ∈ (g.node child).aliases,
    ∃ label, Label.ofDocument? name = some label ∧
      ∃ other, (g.node id).children.get? label = some other ∧
        label.isAmong ((g.node other).aliases.filterMap Label.ofDocument?) = true

/-- A command that was prepared on the way is settled. -/
theorem Thorough.settled (thorough : Thorough g later) (early : id < g.size)
    (before : (g.node id).prepared = false) (after : (later.node id).prepared = true) :
    Settled later id (g.node id) := by
  obtain ⟨title, parameters, children, withHelp, same⟩ :=
    thorough.completed id early before after
  have filled : (later.node id).children = children.answering g.answers := by
    rw [same]
  have answers {kid : NodeId} (inside : kid < later.size) :
      g.answers kid = (later.node kid).aliases.filterMap Label.ofDocument? := by
    rw [← thorough.answers_eq, answers_of_lt inside]
  refine ⟨after, thorough.read id early before after, fun label held => ?_,
    (thorough.finished id before after).helped, fun child member alternative declares => ?_⟩
  · rw [filled]
    apply Children.contains_answering
    rcases withHelp with ⟨-, rfl⟩ | ⟨-, help, -, -, rfl⟩
    · exact held
    · exact Children.contains_insert helpLabel help held
  · have keyed := thorough.keyed id early before after child member alternative declares
    obtain ⟨label, read⟩ := Option.isSome_iff_exists.mp keyed
    have inside := thorough.sound.lt_of_mem_nodes member
    have among : label.isAmong (g.answers child) = true := by
      rw [answers inside]
      exact Label.isAmong_of_mem (List.mem_filterMap.mpr ⟨alternative, declares, read⟩)
    have kid : child ∈ children.nodes := by
      rw [filled] at member
      obtain ⟨entry, here, rfl⟩ := List.mem_map.mp member
      exact Children.mem_nodes_of_answering here
    -- The child itself answers to the label, so there is a last one that does.
    obtain ⟨other, found⟩ : ∃ other, (children.nodes.filter fun kid =>
        label.isAmong (g.answers kid)).getLast? = some other := by
      apply Option.isSome_iff_exists.mp
      rw [List.getLast?_isSome]
      exact List.ne_nil_of_mem (List.mem_filter.mpr ⟨kid, among⟩)
    have leads : (later.node id).children.get? label = some other := by
      rw [filled, Children.get?_answering, found, Option.some_or]
    obtain ⟨known, stands⟩ := Labelled.exists_of_get? leads
    refine ⟨label, read, other, leads, ?_⟩
    rw [← answers (thorough.sound.known id _ stands)]
    exact (List.mem_filter.mp (List.mem_of_getLast? found)).2

theorem eq_of_mem_helpChildren (member : child ∈ Children.nodes helpChildren) :
    child = helpOfHelp := by
  obtain ⟨entry, here, rfl⟩ := List.mem_map.mp member
  obtain ⟨text, -, rfl⟩ := List.mem_map.mp here
  rfl

/-- A help is settled as it was made. -/
theorem settled_of_help (helps : g.node helpOfHelp = helpOfHelpNode) (here : g.node id = declared)
    (prepared : declared.prepared = true) (parameters : declared.parameters = some [])
    (children : declared.children = helpChildren) : Settled g id declared := by
  subst here
  refine ⟨prepared, ?_, fun _ held => held, ?_, fun child member alternative declares => ?_⟩
  · rw [parameters]
    rfl
  · rw [children]
    rfl
  · rw [children] at member ⊢
    have same := eq_of_mem_helpChildren member
    rw [same, helps] at declares
    obtain rfl := List.mem_singleton.mp declares
    refine ⟨.text "help", rfl, helpOfHelp, rfl, ?_⟩
    rw [helps]
    rfl

/-! ### What can be reached -/

/-- The commands that a command leads to, through sub-commands of sub-commands, and itself. -/
def Spans (g : Graph) : NodeId → NodeId → Prop :=
  Relation.ReflTransGen fun parent child => child ∈ (g.node parent).children.nodes

/-- What a command of the graph is to be compared with once it is settled: how it was declared
before, or the help that was made. -/
inductive Declares (g : Graph) (id : NodeId) : Node → Prop
  | before (known : id < g.size) : Declares g id (g.node id)
  | help (new : g.size ≤ id) (owner : NodeId) (name : Label) : Declares g id (helpNode owner name)

/-- Whatever can be reached after preparing could be reached before, or is a help. -/
theorem Thorough.spans_cases (thorough : Thorough g later) (sound : g.Sound)
    (helps : later.node helpOfHelp = helpOfHelpNode)
    (fresh : ∀ n, g.Spans id n → (g.node n).prepared = false) (inside : id < g.size)
    (prepared : (later.node id).prepared = true) {n : NodeId} (reached : later.Spans id n) :
    (n < g.size ∧ g.Spans id n ∧ (later.node n).prepared = true) ∨
      (g.size ≤ n ∧ n < later.size) ∨ n = helpOfHelp := by
  induction reached with
  | refl => exact .inl ⟨inside, .refl, prepared⟩
  | @tail parent child _ member ih =>
    rcases ih with ⟨early, spans, after⟩ | ⟨new, old⟩ | rfl
    · have before := fresh parent spans
      have ready : (later.node child).prepared = true := by
        obtain ⟨entry, here, rfl⟩ := List.mem_map.mp member
        exact (thorough.finished parent before after).children entry here
      obtain ⟨title, parameters, children, withHelp, same⟩ :=
        thorough.completed parent early before after
      have kid : child ∈ children.nodes := by
        rw [same] at member
        obtain ⟨entry, here, rfl⟩ := List.mem_map.mp member
        exact Children.mem_nodes_of_answering here
      have ofOwn (own : child ∈ (g.node parent).children.nodes) :
          child < g.size ∧ g.Spans id child ∧ (later.node child).prepared = true :=
        ⟨sound.lt_of_mem_nodes own, spans.tail own, ready⟩
      rcases withHelp with ⟨-, rfl⟩ | ⟨-, help, outside, -, rfl⟩
      · exact .inl (ofOwn kid)
      · obtain ⟨entry, put, rfl⟩ := List.mem_map.mp kid
        rcases Labelled.mem_insert put with new | own
        · exact .inr (.inl ⟨new ▸ outside, lt_size_of_prepared ready⟩)
        · exact .inl (ofOwn (List.mem_map_of_mem own))
    · obtain ⟨owner, name, help⟩ := thorough.new parent new old
      rw [help] at member
      exact .inr (.inr (eq_of_mem_helpChildren member))
    · rw [helps] at member
      exact .inr (.inr (eq_of_mem_helpChildren member))

/-- Preparing handles any graph of commands that were not prepared, whichever of them are shared or
lie on a cycle. Its course ends, and if it ends without a failure, then everything that can be
reached afterwards is settled, and preparing any of it again changes nothing. -/
theorem prepare_settles {g : Graph} {id : NodeId} (sound : g.Sound) (inside : id < g.size)
    (helps : g.node helpOfHelp = helpOfHelpNode)
    (fresh : ∀ n, g.Spans id n → (g.node n).prepared = false) (name : Label) :
    (∃ result later, Ends (.command id name) g result later) ∧
      ∀ result later, Ends (.command id name) g result later →
        (prepare id name).run g = (result, later) ∧
          (result = .ok ⟨⟩ → ∀ n, later.Spans id n →
            (∃ declared, g.Declares n declared ∧ later.Settled n declared) ∧
              ∀ again, (prepare n again).run later = (.ok ⟨⟩, later)) := by
  refine ⟨⟨_, _, (ends_iff sound inside).mpr rfl⟩, fun result later ends => ?_⟩
  have ran := (ends_iff sound inside).mp ends
  refine ⟨ran, ?_⟩
  rintro rfl n reached
  have thorough := ends.thorough sound inside rfl
  obtain ⟨-, prepared⟩ := completion_of_prepare sound inside ran
  have helpsLater : later.node helpOfHelp = helpOfHelpNode := by
    rw [thorough.kept helpOfHelp sound.helped, helps]
  have settled : ∃ declared, g.Declares n declared ∧ later.Settled n declared := by
    rcases thorough.spans_cases sound helpsLater fresh inside prepared reached with
      ⟨early, spans, after⟩ | ⟨new, old⟩ | rfl
    · exact ⟨g.node n, .before early, thorough.settled early (fresh n spans) after⟩
    · obtain ⟨owner, title, help⟩ := thorough.new n new old
      exact ⟨_, .help new owner title, settled_of_help helpsLater help rfl rfl rfl⟩
    · refine ⟨g.node helpOfHelp, .before (lt_size_of_prepared sound.helped), ?_⟩
      rw [helps]
      exact settled_of_help helpsLater helpsLater rfl rfl rfl
  obtain ⟨declared, origin, whole⟩ := settled
  exact ⟨⟨declared, origin, whole⟩, run_prepare_of_prepared whole.prepared⟩

/-- Two commands that lead to each other; one of them stands under two keys of the other. -/
def ring : Graph where
  nodes := #[
    helpOfHelpNode,
    { parameters := some [.declared (.text "name:str")],
      children := [(.text "b", 2), (.text "c", 2)] },
    { aliases := [.text "x"], children := [(.text "up", 1)] }]

theorem sound_ring : ring.Sound := by
  refine ⟨rfl, fun id entry member => ?_⟩
  have checked : ∀ id < ring.size, ∀ entry ∈ (ring.node id).children, entry.2 < ring.size := by
    decide
  by_cases inside : id < ring.size
  · exact checked id inside entry member
  · rw [node_of_size_le (Nat.le_of_not_lt inside)] at member
    cases member

theorem fresh_ring {n : NodeId} (spans : ring.Spans 1 n) : (ring.node n).prepared = false := by
  have either : n = 1 ∨ n = 2 := by
    induction spans with
    | refl => exact .inl rfl
    | @tail parent child _ member ih =>
      rcases ih with rfl | rfl
      · have all : ∀ child ∈ (ring.node 1).children.nodes, child = 2 := by decide
        exact .inr (all child member)
      · have all : ∀ child ∈ (ring.node 2).children.nodes, child = 1 := by decide
        exact .inl (all child member)
  rcases either with rfl | rfl
  · rfl
  · rfl

/-- Both commands of the ring are settled once one of them was prepared. -/
theorem prepare_settles_ring :
    ∃ later, (prepare 1 (.text "a")).run ring = (.ok ⟨⟩, later) ∧ later.Spans 1 2 ∧
      (∃ declared, ring.Declares 2 declared ∧ later.Settled 2 declared) ∧
      (prepare 2 (.text "b")).run later = (.ok ⟨⟩, later) := by
  obtain ⟨⟨result, later, ends⟩, course⟩ :=
    prepare_settles sound_ring (by decide) rfl (fun n spans => fresh_ring spans) (.text "a")
  obtain ⟨ran, settles⟩ := course result later ends
  have fine : ((prepare 1 (.text "a")).run ring).1.toOption = some ⟨⟩ := by decide +kernel
  rw [ran] at fine
  obtain rfl := eq_ok_of_toOption fine
  have member : 2 ∈ ((((prepare 1 (.text "a")).run ring).2).node 1).children.nodes := by
    decide +kernel
  rw [ran] at member
  have spans : later.Spans 1 2 := .single member
  obtain ⟨settled, again⟩ := settles rfl 2 spans
  exact ⟨later, ran, spans, settled, again (.text "b")⟩

end Graph
end Switchboard
