import Switchboard.Command.Lookup
import Switchboard.Proofs.Declared

/-!
What the segments of a dotted name lead to below a prepared command: to its help, to the last
sub-command that answers to the segment, or to the one of that name.
-/
namespace Switchboard

theorem Label.isAmong_text (s : String) (labels : List Label) :
    (Label.text s).isAmong labels = decide (Label.text s ∈ labels) := by
  induction labels with
  | nil => rfl
  | cons label rest ih =>
    have step : (Label.text s).isAmong (label :: rest) =
        (label.same (.text s) || (Label.text s).isAmong rest) := rfl
    rw [step, ih, Label.same_comm, Label.same_text]
    simp [eq_comm]

namespace Labelled

variable {α : Type} {entries : Labelled α} {s : String} {value : α}

theorem mem_of_get?_text (found : get? entries (.text s) = some value) :
    (Label.text s, value) ∈ entries := by
  induction entries with
  | nil => cases found
  | cons entry rest ih =>
    obtain ⟨known, first⟩ := entry
    rw [get?_cons, Label.same_comm, Label.same_text] at found
    split at found
    · rename_i here
      obtain rfl := of_decide_eq_true here
      obtain rfl := Option.some.inj found
      exact List.mem_cons_self
    · exact List.mem_cons_of_mem _ (ih found)

theorem get?_text_of_mem (once : (entries.map Prod.fst).Nodup)
    (member : (Label.text s, value) ∈ entries) : get? entries (.text s) = some value := by
  induction entries with
  | nil => cases member
  | cons entry rest ih =>
    obtain ⟨known, first⟩ := entry
    obtain ⟨fresh, onceLater⟩ := List.nodup_cons.mp once
    rw [get?_cons, Label.same_comm, Label.same_text]
    rcases List.mem_cons.mp member with same | later
    · obtain ⟨rfl, rfl⟩ := Prod.mk.inj same
      simp
    · have apart : known ≠ .text s := by
        rintro rfl
        exact fresh (List.mem_map.mpr ⟨_, later, rfl⟩)
      simp [apart, ih onceLater later]

/-- A label that is new comes last. -/
theorem insert_of_get?_eq_none {label : Label} (fresh : get? entries label = none) (value : α) :
    insert entries label value = entries ++ [(label, value)] := by
  induction entries with
  | nil => rfl
  | cons entry rest ih =>
    obtain ⟨known, first⟩ := entry
    rw [get?_cons] at fresh
    split at fresh
    · cases fresh
    · rename_i apart
      simp [insert, apart, ih fresh]

end Labelled

namespace Spec

/-- Sub-commands whose names are texts, each its own, and none of them the one of the help. -/
structure AreNamed (commands : Labelled Spec) : Prop where
  once : (commands.map Prod.fst).Nodup
  named : ∀ command ∈ commands, ∃ name, command.1 = .text name ∧ name ≠ helpName

/-- The last sub-command that answers to a segment. -/
def answering (spec : Spec) (segment : String) : Option (Label × Spec) :=
  (spec.subcommands.filter fun command => .text segment ∈ command.2.answers).getLast?

/-- The name of the sub-command that a segment leads to: the last one that answers to it, or else
the one of that name. -/
def holder? (spec : Spec) (segment : String) : Option Label :=
  ((spec.answering segment).map Prod.fst).or
    (if .text segment ∈ spec.subcommands.map Prod.fst then some (.text segment) else none)

theorem mem_of_holder? {spec : Spec} {segment : String} {holder : Label}
    (held : spec.holder? segment = some holder) : holder ∈ spec.subcommands.map Prod.fst := by
  rcases Option.or_eq_some_iff.mp held with answers | ⟨-, named⟩
  · obtain ⟨command, last, rfl⟩ := Option.map_eq_some_iff.mp answers
    exact List.mem_map_of_mem (List.mem_of_mem_filter (List.mem_of_getLast? last))
  · split at named
    · obtain rfl := Option.some.inj named
      assumption
    · cases named

theorem exists_holder {spec : Spec} {segment : String}
    (declared : .text segment ∈ spec.subcommands.map Prod.fst) :
    ∃ holder, spec.holder? segment = some holder := by
  unfold holder?
  rw [if_pos declared]
  cases spec.answering segment with
  | none => exact ⟨_, rfl⟩
  | some command => exact ⟨_, rfl⟩

theorem exists_of_at? {spec sub : Spec} {name : String} {trail : List String}
    (declared : spec.at? (name :: trail) = some sub) :
    ∃ next, spec.subcommands.get? (.text name) = some next ∧ next.at? trail = some sub := by
  unfold at? at declared
  split at declared
  · exact ⟨_, ‹_›, declared⟩
  · cases declared

end Spec

namespace Graph

variable {g built later : Graph} {name : Label} {spec sub : Spec} {commands : Labelled Spec}
  {low high id : NodeId} {children : Children} {segment : String} {trail : List String}

/-! ### What was built -/

/-- In lists that correspond, what is chosen last corresponds. -/
theorem getLast?_filter {α β : Type} {related : α → β → Prop} {lefts : List α} {rights : List β}
    (pairs : List.Forall₂ related lefts rights) (chosen : α → Bool) (taken : β → Bool)
    (same : ∀ a b, related a b → chosen a = taken b) :
    (lefts.filter chosen).getLast? = none ∧ (rights.filter taken).getLast? = none ∨
      ∃ a b, (lefts.filter chosen).getLast? = some a ∧ (rights.filter taken).getLast? = some b ∧
        related a b := by
  induction pairs with
  | nil => exact .inl ⟨rfl, rfl⟩
  | @cons a b lefts rights here _ ih =>
    have equal := same a b here
    cases keeps : chosen a with
    | false =>
      rw [keeps] at equal
      simpa [keeps, ← equal] using ih
    | true =>
      rw [keeps] at equal
      right
      rcases ih with ⟨noLeft, noRight⟩ | ⟨c, d, left, right, both⟩
      · exact ⟨a, b, by simp [keeps, List.getLast?_cons, noLeft],
          by simp [← equal, List.getLast?_cons, noRight], here⟩
      · exact ⟨c, d, by simp [keeps, List.getLast?_cons, left],
          by simp [← equal, List.getLast?_cons, right], both⟩

/-- The child of the last sub-command that answers to a segment is the last one that does. -/
theorem MadeBelow.last_answering (made : MadeBelow built commands low high children)
    (inside : high ≤ built.size) (named : Spec.AreNamed commands) (segment : String) :
    (children.nodes.filter fun child =>
        (Label.text segment).isAmong (built.answers child)).getLast? =
      ((commands.filter fun command => .text segment ∈ command.2.answers).getLast?).bind
        fun command => children.get? command.1 := by
  have once : (children.map Prod.fst).Nodup := by
    have labels : children.map Prod.fst = commands.map Prod.fst := made.labels_eq
    rw [labels]
    exact named.once
  have last := getLast?_filter made.pairs
    (fun command => decide (Label.text segment ∈ command.2.answers))
    (fun entry => (Label.text segment).isAmong (built.answers entry.2)) (by
      intro command entry related
      obtain ⟨-, -, early, start, child⟩ := related
      rw [Label.isAmong_text, child.answers_eq (Nat.lt_of_lt_of_le early inside)])
  have nodes : (children.nodes.filter fun child =>
      (Label.text segment).isAmong (built.answers child)) =
        (children.filter fun entry =>
          (Label.text segment).isAmong (built.answers entry.2)).map Prod.snd := by
    rw [Children.nodes, List.filter_map]
    rfl
  rw [nodes, List.getLast?_map]
  rcases last with ⟨noCommand, noChild⟩ | ⟨command, entry, last, child, related⟩
  · simp [noCommand, noChild]
  · have declared := List.mem_of_mem_filter (List.mem_of_getLast? last)
    obtain ⟨text, label, -⟩ := named.named command declared
    have member := List.mem_of_mem_filter (List.mem_of_getLast? child)
    have found : children.get? (.text text) = some entry.2 := by
      apply Labelled.get?_text_of_mem once
      rw [← label, ← related.1]
      exact member
    simp [last, child, label, found]

/-- There is a child of a name exactly if there is a sub-command of that name. -/
theorem MadeBelow.isSome_get? (made : MadeBelow built commands low high children)
    (named : Spec.AreNamed commands) (text : String) :
    (children.get? (.text text)).isSome ↔ .text text ∈ commands.map Prod.fst := by
  have labels : children.map Prod.fst = commands.map Prod.fst := made.labels_eq
  constructor
  · intro found
    obtain ⟨child, here⟩ := Option.isSome_iff_exists.mp found
    rw [← labels]
    exact List.mem_map_of_mem (Labelled.mem_of_get?_text here)
  · intro declared
    rw [← labels] at declared
    obtain ⟨⟨label, child⟩, member, same⟩ := List.mem_map.mp declared
    obtain rfl : label = .text text := same
    rw [Labelled.get?_text_of_mem (labels ▸ named.once) member]
    rfl

/-- The commands below one that is made from a declaration. -/
theorem Made.madeBelow (made : Made built name spec low id) :
    MadeBelow built spec.subcommands low id (built.node id).children := by
  cases made with
  | command node held below =>
    rw [held]
    exact below

theorem Made.fresh (made : Made built name spec low id) : (built.node id).prepared = false := by
  cases made with
  | command node held below => exact node.fresh

/-- A graph is sound if commands were only added to a sound one, each with its sub-commands. -/
theorem sound_of_extends (sound : g.Sound) (extended : Extends g built)
    (closed : built.IsClosed g.size built.size) : built.Sound where
  helped := by
    rw [extended.same _ (lt_size_of_prepared sound.helped)]
    exact sound.helped
  known place entry member := by
    by_cases early : place < g.size
    · rw [extended.same place early] at member
      exact Nat.lt_of_lt_of_le (sound.known place entry member) extended.grown
    · by_cases inside : place < built.size
      · exact ((closed place (Nat.le_of_not_lt early) inside).2 entry member).2
      · rw [node_of_size_le (Nat.le_of_not_lt inside)] at member
        cases member

/-- A child with the commands around it: those in the places before it and those in the places
after it have no children elsewhere, and all its siblings are among these. -/
structure IsSetApart (g : Graph) (id low start child : NodeId) : Prop where
  outside : low ≤ start
  inside : child < id
  before : g.IsClosed low start
  after : g.IsClosed (child + 1) id
  siblings : ∀ entry ∈ (g.node id).children, entry.2 = child ∨
    low ≤ entry.2 ∧ entry.2 < start ∨ child + 1 ≤ entry.2 ∧ entry.2 < id

/-- The child that is made from a sub-command. -/
theorem Made.child (made : Made built name spec low id)
    (named : Spec.AreNamed spec.subcommands)
    (declared : spec.subcommands.get? (.text segment) = some sub) :
    ∃ start child, (built.node id).children.get? (.text segment) = some child ∧
      Made built (.text segment) sub start child ∧ built.IsSetApart id low start child := by
  obtain ⟨before, after, same⟩ := List.append_of_mem (Labelled.mem_of_get?_text declared)
  have below := made.madeBelow
  have labels : (built.node id).children.map Prod.fst = spec.subcommands.map Prod.fst :=
    below.labels_eq
  rw [same] at below
  obtain ⟨start, child, kidsBefore, kidsAfter, children, earlier, here, later⟩ := below.split
  have member : (Label.text segment, child) ∈ (built.node id).children := by
    simp [children]
  refine ⟨start, child, ?_, here, ?_⟩
  · exact Labelled.get?_text_of_mem (labels ▸ named.once) member
  constructor
  · exact earlier.low_le
  · exact later.low_le
  · exact earlier.isClosed.1
  · exact later.isClosed.1
  · intro entry held
    rw [children] at held
    rcases List.mem_append.mp held with kid | kid
    · exact .inr (.inl (earlier.isClosed.2 entry kid))
    · rcases List.mem_cons.mp kid with rfl | kid
      · exact .inl rfl
      · exact .inr (.inr (later.isClosed.2 entry kid))

/-- What is declared at the end of a trail was made, and is found there. -/
theorem Made.walk?_declared (made : Made built name spec low id) (tree : spec.IsTree Spec.AreNamed)
    (declared : spec.at? trail = some sub) :
    ∃ start command, built.walk? id trail = some command ∧
      Made built (Spec.lastName name trail) sub start command ∧
      low ≤ start ∧ command ≤ id := by
  induction trail generalizing name spec low id with
  | nil =>
    obtain rfl := Option.some.inj declared
    exact ⟨low, id, rfl, made, Nat.le_refl _, Nat.le_refl _⟩
  | cons first rest ih =>
    obtain ⟨next, found, further⟩ := Spec.exists_of_at? declared
    obtain ⟨start, child, here, madeChild, apart⟩ := made.child tree.here found
    obtain ⟨begin_, command, walked, madeLast, outside, inside⟩ :=
      ih madeChild (tree.sub (Labelled.mem_of_get?_text found)) further
    refine ⟨begin_, command, ?_, madeLast, Nat.le_trans apart.outside outside,
      Nat.le_trans inside (Nat.le_of_lt apart.inside)⟩
    simp [walk?, here, walked]

/-- What building a declaration leads to: the graph is extended by the command and all below it. -/
structure BuiltFrom (g built : Graph) (name : Label) (spec : Spec) (id : NodeId) : Prop where
  extended : Extends g built
  size : built.size = id + 1
  made : Made built name spec g.size id
  sound : built.Sound

theorem BuiltFrom.lt_size (construction : BuiltFrom g built name spec id) : id < built.size := by
  rw [construction.size]
  exact Nat.lt_succ_self id

theorem builtFrom_of_run {good : Labelled Spec → Prop} (sound : g.Sound) (tree : spec.IsTree good)
    (builds : (build name spec).run g = (.ok id, built)) : BuiltFrom g built name spec id := by
  obtain ⟨extended, size, made⟩ := isBuildable_of_isTree tree builds
  have here := made built fun _ _ _ => rfl
  exact ⟨extended, size, here, sound_of_extends sound extended (size ▸ here.isClosed)⟩

/-! ### What a prepared command leads to -/

/-- A child that is found is a child of a prepared command, so it is prepared. -/
theorem Completion.prepared_child (completion : Completion built later)
    (fresh : (built.node id).prepared = false) (prepared : (later.node id).prepared = true)
    {child : NodeId} (found : (later.node id).children.get? (.text segment) = some child) :
    (later.node child).prepared = true :=
  (completion.finished id fresh prepared).children _ (Labelled.mem_of_get?_text found)

theorem get?_helpLabel_of_named (named : Spec.AreNamed commands)
    (labels : children.labels = commands.map Prod.fst) : children.get? helpLabel = none := by
  apply Option.eq_none_iff_forall_ne_some.mpr
  intro child found
  have member : helpLabel ∈ commands.map Prod.fst := by
    rw [← labels]
    exact List.mem_map_of_mem (Labelled.mem_of_get?_text found)
  obtain ⟨command, declared, same⟩ := List.mem_map.mp member
  obtain ⟨text, label, other⟩ := named.named command declared
  rw [label] at same
  exact other (Label.text.inj same)

/-- A prepared command with its help, which is put in last and then counts as the last child. -/
theorem Completion.children_eq (completion : Completion built later)
    (made : Made built name spec low id) (inside : id < built.size)
    (prepared : (later.node id).prepared = true) (named : Spec.AreNamed spec.subcommands) :
    ∃ help title, built.size ≤ help ∧ later.node help = helpNode id title ∧
      (later.node id).children =
        ((built.node id).children ++ [(helpLabel, help)]).answering built.answers := by
  obtain ⟨title, parameters, children, helped, same⟩ :=
    completion.completed id inside made.fresh prepared
  have missing := get?_helpLabel_of_named named made.madeBelow.labels_eq
  rcases helped with ⟨held, -⟩ | ⟨-, help, outside, node, rfl⟩
  · rw [Children.contains, missing] at held
    cases held
  · refine ⟨help, title, outside, node, ?_⟩
    rw [same, Labelled.insert_of_get?_eq_none missing]

theorem get?_append_help {segment : String} (help : NodeId) :
    Labelled.get? (children ++ [(helpLabel, help)]) (.text segment) =
      (children.get? (.text segment)).or (if segment = helpName then some help else none) := by
  induction children with
  | nil =>
    have same : helpLabel.same (.text segment) = decide (segment = helpName) := by
      rw [Label.same_comm, Label.same_text]
      simp [helpLabel, eq_comm]
    simp [Labelled.get?, same]
  | cons entry rest ih =>
    rw [List.cons_append, Labelled.get?_cons, Labelled.get?_cons, ih]
    split <;> rfl

/-- Below a prepared command a segment leads to its help if that answers to it, then to the
sub-command that has the segment, and the help's name to the help if no sub-command has it. -/
theorem Completion.get?_children (completion : Completion built later)
    (made : Made built name spec low id) (inside : id < built.size)
    (prepared : (later.node id).prepared = true) (named : Spec.AreNamed spec.subcommands) :
    ∃ help title, built.size ≤ help ∧ later.node help = helpNode id title ∧ ∀ segment,
      (later.node id).children.get? (.text segment) =
        if segment ∈ helpAliases then some help
        else ((spec.holder? segment).bind fun holder => (built.node id).children.get? holder).or
          (if segment = helpName then some help else none) := by
  obtain ⟨help, title, outside, node, children⟩ :=
    completion.children_eq made inside prepared named
  refine ⟨help, title, outside, node, fun segment => ?_⟩
  have labels := made.madeBelow.labels_eq
  have helps :
      (Label.text segment).isAmong (built.answers help) = decide (segment ∈ helpAliases) := by
    rw [Label.isAmong_text, answers, if_neg (Nat.not_lt.mpr outside)]
    simp
  rw [children, Children.get?_answering, Children.nodes, List.map_append, List.filter_append,
    get?_append_help]
  by_cases answered : segment ∈ helpAliases
  · simp [helps, answered]
  have last := made.madeBelow.last_answering (Nat.le_of_lt inside) named segment
  rw [Children.nodes] at last
  simp only [List.map_cons, List.map_nil, helps, answered, decide_false, Bool.false_eq_true,
    not_false_eq_true, List.filter_cons_of_neg, List.filter_nil, List.append_nil, if_false, last]
  unfold Spec.holder? Spec.answering
  have present := made.madeBelow.isSome_get? named
  cases found : (spec.subcommands.filter fun command =>
      decide (Label.text segment ∈ command.2.answers)).getLast? with
  | some command =>
    have member := List.mem_of_mem_filter (List.mem_of_getLast? found)
    obtain ⟨text, label, -⟩ := named.named command member
    have held := (present text).mpr (label ▸ List.mem_map_of_mem member)
    obtain ⟨child, here⟩ := Option.isSome_iff_exists.mp held
    simp [label, here]
  | none =>
    by_cases declared : Label.text segment ∈ spec.subcommands.map Prod.fst
    · obtain ⟨child, here⟩ := Option.isSome_iff_exists.mp ((present segment).mpr declared)
      simp [declared, here]
    · have missing := Option.not_isSome_iff_eq_none.mp (mt (present segment).mp declared)
      simp [declared, missing]

/-! ### Where walking leads -/

/-- Preparing puts no commands under others than those that were there, helps that it adds, and the
help that describes help. -/
theorem Completion.child_cases (completion : Completion built later) {place : NodeId}
    {entry : Label × NodeId} (member : entry ∈ (later.node place).children) :
    entry.2 ∈ (built.node place).children.nodes ∨ built.size ≤ entry.2 ∨
      entry.2 = helpOfHelp := by
  by_cases early : place < built.size
  · cases after : (later.node place).prepared with
    | false =>
      rw [completion.left place early after] at member
      exact .inl (List.mem_map_of_mem member)
    | true =>
      cases before : (built.node place).prepared with
      | true =>
        rw [completion.kept place before] at member
        exact .inl (List.mem_map_of_mem member)
      | false =>
        obtain ⟨title, parameters, children, helped, same⟩ :=
          completion.completed place early before after
        rw [same] at member
        have known := Children.mem_nodes_of_answering member
        rcases helped with ⟨-, rfl⟩ | ⟨-, help, outside, -, rfl⟩
        · exact .inl known
        · obtain ⟨old, held, kid⟩ := List.mem_map.mp known
          rcases Labelled.mem_insert held with new | old
          · rw [← kid, new]
            exact .inr (.inl outside)
          · rw [← kid]
            exact .inl (List.mem_map_of_mem old)
  · have outside := Nat.le_of_not_lt early
    by_cases inside : place < later.size
    · obtain ⟨owner, title, help⟩ := completion.new place outside inside
      rw [help] at member
      obtain ⟨text, -, rfl⟩ := List.mem_map.mp member
      exact .inr (.inr rfl)
    · rw [node_of_size_le (Nat.le_of_not_lt inside)] at member
      cases member

/-- Walking from commands that were built does not leave them and what they lead to, except for
helps. -/
theorem Completion.walk?_stays (completion : Completion built later) (within : NodeId → Prop)
    (help : within helpOfHelp)
    (closed : ∀ place, within place → ∀ child ∈ (built.node place).children.nodes, within child)
    {start target : NodeId} {keys : List String} (here : within start ∨ built.size ≤ start)
    (walked : later.walk? start keys = some target) : within target ∨ built.size ≤ target := by
  induction keys generalizing start with
  | nil =>
    obtain rfl := Option.some.inj walked
    exact here
  | cons key rest ih =>
    unfold walk? at walked
    split at walked
    · rename_i child found
      refine ih ?_ walked
      rcases completion.child_cases (Labelled.mem_of_get?_text found) with old | new | again
      · rcases here with inside | outside
        · exact .inl (closed start inside child old)
        · rw [node_of_size_le outside] at old
          cases old
      · exact .inr new
      · obtain rfl : child = helpOfHelp := again
        exact .inl help
    · cases walked

end Graph
end Switchboard
