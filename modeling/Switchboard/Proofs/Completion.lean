import Switchboard.Proofs.PreparationCourse

/-!
What preparing makes of each command. A prepared command has the children that it had before, its
help, and each of these under its aliases as well; of several children with one alias the last one
counts.
-/
namespace Switchboard

open Work

/-- Whether a label is the same key as one of some labels. -/
def Label.isAmong (label : Label) (labels : List Label) : Bool :=
  labels.any (·.same label)

namespace Children

/-- The children with `child` under some more labels. -/
def insertAll (children : Children) (child : NodeId) (labels : List Label) : Children :=
  labels.foldl (fun known label => known.insert label child) children

/-- The children with each of them under all that it answers to, one child after the other. -/
def answering (answers : NodeId → List Label) (children : Children) : Children :=
  children.nodes.foldl (fun known child => insertAll known child (answers child)) children

@[simp] theorem get?_insertAll (children : Children) (child : NodeId) (labels : List Label)
    (label : Label) :
    Labelled.get? (insertAll children child labels) label =
      if label.isAmong labels then some child else Labelled.get? children label := by
  induction labels generalizing children with
  | nil => rfl
  | cons first rest ih =>
    have step : insertAll children child (first :: rest) =
        insertAll (children.insert first child) child rest := rfl
    rw [step, ih, Labelled.get?_insert]
    by_cases later : label.isAmong rest = true
    · simp_all [Label.isAmong]
    · by_cases here : first.same label = true <;> simp_all [Label.isAmong]

/-- The last of the children that answer to a label stands under it; a label that none answers to
keeps its child. -/
theorem get?_answering (answers : NodeId → List Label) (children : Children) (label : Label) :
    Labelled.get? (children.answering answers) label =
      ((children.nodes.filter fun child => label.isAmong (answers child)).getLast?).or
        (Labelled.get? children label) := by
  unfold answering
  generalize children.nodes = kids
  induction kids generalizing children with
  | nil => rfl
  | cons kid rest ih =>
    rw [List.foldl_cons, ih, get?_insertAll]
    by_cases answered : label.isAmong (answers kid) = true
    · simp only [answered, if_true, List.filter_cons_of_pos, List.getLast?_cons]
      cases (rest.filter fun child => label.isAmong (answers child)).getLast? <;> rfl
    · simp [answered]

theorem mem_insertAll {children : Children} {child : NodeId} {labels : List Label}
    {entry : Label × NodeId} (member : entry ∈ children.insertAll child labels) :
    entry.2 = child ∨ entry ∈ children := by
  induction labels generalizing children with
  | nil => exact .inr member
  | cons label rest ih =>
    rcases ih member with same | known
    · exact .inl same
    · exact Labelled.mem_insert known

theorem node_of_mem_foldl {children : Children} {answers : NodeId → List Label} {kids : List NodeId}
    {entry : Label × NodeId}
    (member : entry ∈ kids.foldl (fun known kid => known.insertAll kid (answers kid)) children) :
    entry.2 ∈ kids ∨ entry ∈ children := by
  induction kids generalizing children with
  | nil => exact .inr member
  | cons kid rest ih =>
    rcases ih member with later | known
    · exact .inl (List.mem_cons_of_mem _ later)
    · rcases mem_insertAll known with rfl | old
      · exact .inl List.mem_cons_self
      · exact .inr old

/-- Under what they answer to there stand the same children again. -/
theorem mem_nodes_of_answering {children : Children} {answers : NodeId → List Label}
    {entry : Label × NodeId}
    (member : entry ∈ children.answering answers) : entry.2 ∈ children.nodes := by
  rcases node_of_mem_foldl member with kid | old
  · exact kid
  · exact List.mem_map_of_mem old

end Children

namespace Graph

variable {g later : Graph} {id : NodeId}

/-! ### What a command answers to -/

/-- The labels that a command answers to besides its name. A command that is still to be added will
be a help. -/
def answers (g : Graph) (id : NodeId) : List Label :=
  if id < g.size then (g.node id).aliases.filterMap Label.ofDocument? else helpAliases.map .text

theorem answers_of_lt (inside : id < g.size) :
    g.answers id = (g.node id).aliases.filterMap Label.ofDocument? :=
  if_pos inside

theorem answers_helpNode (name : Label) :
    (helpNode id name).aliases.filterMap Label.ofDocument? = helpAliases.map .text := rfl

theorem update_update (id : NodeId) (first second : Node → Node) :
    (g.update id first).update id second = g.update id fun node => second (first node) := by
  unfold update
  congr 1
  apply Array.ext
  · simp
  · intro place _ _
    by_cases same : id = place <;> simp [Array.getElem_modify, same]

theorem update_same (id : NodeId) : (g.update id fun node => node) = g := by
  have same : g.nodes.modify id (fun node => node) = g.nodes := by
    apply Array.ext
    · simp
    · intro place _ _
      simp [Array.getElem_modify]
  simp [update, same]

/-- The graph with a command's children changed. -/
def withChildren (g : Graph) (id : NodeId) (change : Children → Children) : Graph :=
  g.update id fun node => { node with children := change node.children }

theorem withChildren_withChildren (id : NodeId) (first second : Children → Children) :
    (g.withChildren id first).withChildren id second =
      g.withChildren id fun children => second (first children) :=
  update_update id _ _

/-- Only what becomes of the command's own children counts. -/
theorem withChildren_congr {change other : Children → Children}
    (same : change (g.node id).children = other (g.node id).children) :
    g.withChildren id change = g.withChildren id other := by
  unfold withChildren update
  congr 1
  apply Array.ext
  · simp
  · intro place inside _
    have bound : place < g.nodes.size := by simpa using inside
    by_cases here : id = place
    · subst here
      have found : g.nodes[id] = g.node id := by simp [node, bound]
      simp [Array.getElem_modify, found, same]
    · simp [Array.getElem_modify, here]

@[simp] theorem size_withChildren (id : NodeId) (change : Children → Children) :
    (g.withChildren id change).size = g.size :=
  size_update g id _

theorem node_withChildren (inside : id < g.size) (change : Children → Children) (other : NodeId) :
    (g.withChildren id change).node other =
      if id = other then { g.node other with children := change (g.node other).children }
      else g.node other :=
  node_update g id other _ inside

theorem answers_withChildren (inside : id < g.size) (change : Children → Children) :
    (g.withChildren id change).answers = g.answers := by
  funext other
  unfold answers
  rw [size_withChildren, node_withChildren inside]
  by_cases same : id = other <;> simp [same]

/-! ### Putting aliases in -/

theorem ofDocument?_of_ofDocument {d : Document} {label : Label}
    (read : Label.ofDocument d = .ok label) : Label.ofDocument? d = some label := by
  unfold Label.ofDocument at read
  split at read
  · obtain rfl := Except.ok.inj read
    assumption
  · cases read

theorem run_addAlias {parent child : NodeId} {name : Document}
    (done : (addAlias parent child name).run g = (.ok ⟨⟩, later)) :
    ∃ label, Label.ofDocument? name = some label ∧
      later = g.withChildren parent fun children => children.insert label child := by
  obtain ⟨label, middle, named, put⟩ := run_bind_eq_ok done
  rw [run_ofExcept] at named
  obtain ⟨read, rfl⟩ := Prod.mk.inj named
  exact ⟨label, ofDocument?_of_ofDocument read, (congrArg Prod.snd put).symm⟩

theorem run_addEach {parent child : NodeId} {names : List Document}
    (done : (names.forM (addAlias parent child)).run g = (.ok ⟨⟩, later)) :
    later = g.withChildren parent fun children =>
      children.insertAll child (names.filterMap Label.ofDocument?) := by
  induction names generalizing g with
  | nil =>
    obtain rfl : g = later := congrArg Prod.snd done
    exact (update_same parent).symm
  | cons name rest ih =>
    obtain ⟨⟨⟩, middle, first, others⟩ := run_bind_eq_ok done
    obtain ⟨label, read, rfl⟩ := run_addAlias first
    rw [ih others, withChildren_withChildren]
    simp [read, Children.insertAll]

/-- A child that could be put under its aliases stands under all that it answers to. -/
theorem run_addAliases {parent child : NodeId} (known : child < g.size)
    (done : (addAliases parent child).run g = (.ok ⟨⟩, later)) :
    later = g.withChildren parent fun children => children.insertAll child (g.answers child) := by
  rw [answers_of_lt known]
  exact run_addEach done

theorem run_addEachAliases {kids : List NodeId} (inside : id < g.size)
    (known : ∀ child ∈ kids, child < g.size)
    (done : (kids.forM (addAliases id)).run g = (.ok ⟨⟩, later)) :
    later = g.withChildren id fun children =>
      kids.foldl (fun known child => known.insertAll child (g.answers child)) children := by
  induction kids generalizing g with
  | nil =>
    obtain rfl : g = later := congrArg Prod.snd done
    exact (update_same id).symm
  | cons kid rest ih =>
    obtain ⟨⟨⟩, middle, first, others⟩ := run_bind_eq_ok done
    obtain rfl := run_addAliases (known kid List.mem_cons_self) first
    have more := ih (by simpa using inside)
      (fun child member => by simpa using known child (List.mem_cons_of_mem kid member)) others
    rw [more, withChildren_withChildren, answers_withChildren inside]
    rfl

/-- Once the aliases of all children could be put in, each of these stands under all that it
answers to. -/
theorem run_addChildAliases (inside : id < g.size)
    (known : ∀ entry ∈ (g.node id).children, entry.2 < g.size)
    (done : (addChildAliases id).run g = (.ok ⟨⟩, later)) :
    later = g.withChildren id fun children => children.answering g.answers := by
  have kids : ∀ child ∈ (g.node id).children.nodes, child < g.size := by
    intro child member
    obtain ⟨entry, here, rfl⟩ := List.mem_map.mp member
    exact known entry here
  rw [run_addEachAliases inside kids done]
  exact withChildren_congr rfl

/-! ### What is completed -/

/-- The children that a command has with its help among them: it declares one itself, or a new one
is put in. -/
def WithHelp (g later : Graph) (id : NodeId) (name : Label) (children : Children) : Prop :=
  ((g.node id).children.contains helpLabel = true ∧ children = (g.node id).children) ∨
    (g.node id).children.contains helpLabel = false ∧
      ∃ help, g.size ≤ help ∧ later.node help = helpNode id name ∧
        children = (g.node id).children.insert helpLabel help

/-- A command that got its help, and whose children and help stand under all that they answer to.
Besides, only its name and its arguments may have changed. -/
def Completed (g later : Graph) (id : NodeId) : Prop :=
  ∃ name parameters children, WithHelp g later id name children ∧
    later.node id = { mark (g.node id) name with
      parameters, children := children.answering g.answers }

/-- What preparing leads to: commands that it has nothing to do with stay as they are, those that it
prepared are completed, and helps are all that is added. -/
structure Completion (g later : Graph) : Prop extends Finishes g later where
  left : ∀ id, id < g.size → (later.node id).prepared = false → later.node id = g.node id
  completed : ∀ id, id < g.size → (g.node id).prepared = false →
    (later.node id).prepared = true → Completed g later id
  new : ∀ id, g.size ≤ id → id < later.size → ∃ owner name, later.node id = helpNode owner name

namespace Completion

variable {last : Graph}

theorem refl (sound : g.Sound) : Completion g g where
  toFinishes := .refl sound
  left _ _ _ := rfl
  completed _ _ before after := absurd (before.symm.trans after) Bool.false_ne_true
  new _ outside inside := absurd inside (Nat.not_lt.mpr outside)

/-- Nothing changes the aliases of a command. -/
theorem aliases_eq (completion : Completion g later) (early : id < g.size) :
    (later.node id).aliases = (g.node id).aliases := by
  cases after : (later.node id).prepared with
  | false => rw [completion.left id early after]
  | true =>
    cases before : (g.node id).prepared with
    | true => rw [completion.kept id before]
    | false =>
      obtain ⟨name, parameters, children, -, same⟩ := completion.completed id early before after
      rw [same]
      rfl

/-- Nothing changes what a command answers to. -/
theorem answers_eq (completion : Completion g later) : later.answers = g.answers := by
  funext id
  by_cases early : id < g.size
  · rw [answers_of_lt early, answers_of_lt (Nat.lt_of_lt_of_le early completion.grown),
      completion.aliases_eq early]
  · unfold answers
    rw [if_neg early]
    split
    · rename_i inside
      obtain ⟨owner, name, same⟩ := completion.new id (Nat.le_of_not_lt early) inside
      rw [same, answers_helpNode]
    · rfl

/-- What was completed stays so. -/
theorem completed_trans (first : Completion g later) (second : Completion later last)
    (before : (g.node id).prepared = false) (after : (last.node id).prepared = true)
    (early : id < g.size) : Completed g last id := by
  cases middle : (later.node id).prepared with
  | true =>
    obtain ⟨name, parameters, children, helped, same⟩ := first.completed id early before middle
    refine ⟨name, parameters, children, ?_, (second.kept id middle).trans same⟩
    refine helped.imp_right fun added => ?_
    obtain ⟨fresh, help, outside, node, inserted⟩ := added
    refine ⟨fresh, help, outside, ?_, inserted⟩
    rw [second.kept help (by rw [node]; rfl), node]
  | false =>
    have inside := Nat.lt_of_lt_of_le early first.grown
    obtain ⟨name, parameters, children, helped, same⟩ := second.completed id inside middle after
    have unchanged := first.left id early middle
    refine ⟨name, parameters, children, ?_, ?_⟩
    · unfold WithHelp at helped ⊢
      rw [unchanged] at helped
      refine helped.imp_right fun added => ?_
      obtain ⟨fresh, help, outside, node, inserted⟩ := added
      exact ⟨fresh, help, Nat.le_trans first.grown outside, node, inserted⟩
    · rw [same, unchanged, first.answers_eq]

theorem trans (first : Completion g later) (second : Completion later last) :
    Completion g last where
  toFinishes := first.toFinishes.trans second.toFinishes
  left id early after := by
    have inside := Nat.lt_of_lt_of_le early first.grown
    have same := second.left id inside after
    rw [same] at after ⊢
    exact first.left id early after
  completed id early before after := first.completed_trans second before after early
  new id outside inside := by
    by_cases early : id < later.size
    · obtain ⟨owner, name, same⟩ := first.new id outside early
      refine ⟨owner, name, ?_⟩
      rw [second.kept id (by rw [same]; rfl), same]
    · exact second.new id (Nat.le_of_not_lt early) inside

end Completion

/-! ### One command under way -/

theorem addHelp_cases (g : Graph) (id : NodeId) (name : Label) :
    ((g.node id).children.contains helpLabel = true ∧ g.addHelp id name = g) ∨
      (g.node id).children.contains helpLabel = false ∧
        g.addHelp id name = (g.add (helpNode id name)).2.withChildren id fun children =>
          children.insert helpLabel g.size := by
  cases helped : (g.node id).children.contains helpLabel with
  | true =>
    left
    simp [addHelp, helped]
  | false =>
    right
    simp only [addHelp, helped]
    exact ⟨trivial, rfl⟩

/-- A command with its help: the children that it stands with now, and nothing else that changed. -/
structure GotHelp (g later : Graph) (id : NodeId) (name : Label) : Prop where
  helped : ∃ children, WithHelp g later id name children ∧
    later.node id = { g.node id with children }
  kept : ∀ other, other ≠ id → other < g.size → later.node other = g.node other
  grown : g.size ≤ later.size
  new : ∀ other, g.size ≤ other → other < later.size → later.node other = helpNode id name

theorem gotHelp_addHelp (inside : id < g.size) (name : Label) :
    GotHelp g (g.addHelp id name) id name := by
  rcases addHelp_cases g id name with ⟨helped, same⟩ | ⟨fresh, same⟩
  · rw [same]
    exact ⟨⟨_, .inl ⟨helped, rfl⟩, rfl⟩, fun _ _ _ => rfl, Nat.le_refl _,
      fun _ outside inside => absurd inside (Nat.not_lt.mpr outside)⟩
  · rw [same]
    have bound : id < (g.add (helpNode id name)).2.size := by
      simpa [size_add] using Nat.lt_succ_of_lt inside
    have node := node_withChildren bound fun children => children.insert helpLabel g.size
    have apart : id ≠ g.size := Nat.ne_of_lt inside
    constructor
    · refine ⟨_, .inr ⟨fresh, g.size, Nat.le_refl _, ?_, rfl⟩, ?_⟩
      · rw [node, if_neg apart, node_add, if_pos rfl]
      · rw [node, if_pos rfl, node_add_of_lt inside]
    · intro other different early
      rw [node, if_neg (Ne.symm different), node_add_of_lt early]
    · simp [size_add]
    · intro other outside early
      have here : other = g.size := by
        simp only [size_withChildren, size_add] at early
        omega
      rw [node, here, if_neg apart, node_add, if_pos rfl]

theorem GotHelp.aliases_eq {name : Label} (got : GotHelp g later id name) {other : NodeId}
    (early : other < g.size) : (later.node other).aliases = (g.node other).aliases := by
  by_cases same : other = id
  · subst same
    obtain ⟨children, -, node⟩ := got.helped
    rw [node]
  · rw [got.kept other same early]

theorem GotHelp.answers_eq {name : Label} (got : GotHelp g later id name) :
    later.answers = g.answers := by
  funext other
  by_cases early : other < g.size
  · rw [answers_of_lt early, answers_of_lt (Nat.lt_of_lt_of_le early got.grown),
      got.aliases_eq early]
  · unfold answers
    rw [if_neg early]
    split
    · rename_i inside
      rw [got.new other (Nat.le_of_not_lt early) inside, answers_helpNode]
    · rfl

theorem WithHelp.transport {marked middle : Graph} {name : Label} {children : Children}
    (withHelp : WithHelp marked middle id name children)
    (same : (marked.node id).children = (g.node id).children) (size : marked.size = g.size)
    (kept : ∀ help, marked.size ≤ help → middle.node help = helpNode id name →
      later.node help = helpNode id name) : WithHelp g later id name children := by
  unfold WithHelp at withHelp ⊢
  rw [same] at withHelp
  refine withHelp.imp_right fun added => ?_
  obtain ⟨missing, help, outside, helpHere, inserted⟩ := added
  exact ⟨missing, help, size ▸ outside, kept help outside helpHere, inserted⟩

section Marked

variable {marked middle helped : Graph} {name : Label} {parameters : Option (List Parameter)}

theorem Marks.answers_eq (marks : Marks g marked id name parameters) :
    marked.answers = g.answers := by
  funext other
  unfold Graph.answers
  rw [marks.size]
  by_cases same : other = id
  · rw [same, marks.here]
    rfl
  · rw [marks.others other same]

/-- What becomes of a marked command and of its graph when its children were prepared, its help was
put in and then the aliases. -/
structure Fills (marked middle helped later : Graph) (id : NodeId) (name : Label) : Prop where
  below : Completion marked middle
  got : GotHelp middle helped id name
  last : later = helped.withChildren id fun children => children.answering helped.answers

variable (marks : Marks g marked id name parameters)
  (fills : Fills marked middle helped later id name)

include marks fills

theorem Fills.node_eq (other : NodeId) :
    later.node other = if id = other then
      { helped.node other with
        children := (helped.node other).children.answering helped.answers }
    else helped.node other := by
  have bound := lt_size_of_prepared (fills.below.prepared marks.prepared)
  rw [fills.last]
  exact node_withChildren (Nat.lt_of_lt_of_le bound fills.got.grown) _ other

theorem Fills.elsewhere {other : NodeId} (apart : other ≠ id) (early : other < middle.size) :
    later.node other = middle.node other := by
  rw [fills.node_eq marks, if_neg (Ne.symm apart)]
  exact fills.got.kept other apart early

theorem Fills.aliases_eq {other : NodeId} (early : other < middle.size) :
    (later.node other).aliases = (middle.node other).aliases := by
  rw [fills.node_eq marks]
  split
  · exact fills.got.aliases_eq early
  · exact fills.got.aliases_eq early

theorem Fills.answers_eq : helped.answers = g.answers := by
  rw [fills.got.answers_eq, fills.below.answers_eq, marks.answers_eq]

/-- The command itself is completed. -/
theorem Fills.completed : Completed g later id := by
  obtain ⟨children, withHelp, kept⟩ := fills.got.helped
  have same : middle.node id = marked.node id := fills.below.kept id marks.prepared
  refine ⟨name, parameters, children, ?_, ?_⟩
  · have transported : WithHelp marked later id name children := by
      unfold WithHelp at withHelp ⊢
      rw [same] at withHelp
      refine withHelp.imp_right fun added => ?_
      obtain ⟨missing, help, outside, helpHere, inserted⟩ := added
      refine ⟨missing, help, Nat.le_trans fills.below.grown outside, ?_, inserted⟩
      have inside := lt_size_of_prepared (fills.below.prepared marks.prepared)
      rw [fills.node_eq marks, if_neg (Nat.ne_of_lt (Nat.lt_of_lt_of_le inside outside)), helpHere]
    exact transported.transport (marks.children_eq id) marks.size fun _ _ helpHere => helpHere
  · rw [fills.node_eq marks, if_pos rfl, kept, same, marks.here, fills.answers_eq marks]

/-- What is completed below stays so. -/
theorem Fills.completed_of_below {other : NodeId} (apart : other ≠ id) (early : other < middle.size)
    (completed : Completed marked middle other) : Completed g later other := by
  obtain ⟨known, read, children, withHelp, kept⟩ := completed
  refine ⟨known, read, children, ?_, ?_⟩
  · refine withHelp.transport (marks.children_eq other) marks.size fun help outside helpHere => ?_
    have prepared : (middle.node help).prepared = true := by
      rw [helpHere]
      rfl
    have different : help ≠ id := by
      rintro rfl
      exact absurd marks.inside (Nat.not_lt.mpr (marks.size ▸ outside))
    rw [fills.elsewhere marks different (lt_size_of_prepared prepared), helpHere]
  · rw [fills.elsewhere marks apart early, kept, marks.others other apart, marks.answers_eq]

/-- Filling a marked command completes it. -/
theorem Fills.completion (finishes : Finishes g later) : Completion g later := by
  have prepared : (later.node id).prepared = true := by
    obtain ⟨children, -, kept⟩ := fills.got.helped
    rw [fills.node_eq marks, if_pos rfl, kept, fills.below.kept id marks.prepared]
    exact marks.prepared
  have within (other : NodeId) (early : other < g.size) : other < middle.size :=
    Nat.lt_of_lt_of_le (marks.size ▸ early) fills.below.grown
  refine { toFinishes := finishes, left := ?_, completed := ?_, new := ?_ }
  · intro other early after
    have apart : other ≠ id := by
      rintro rfl
      exact Bool.false_ne_true (after.symm.trans prepared)
    rw [fills.elsewhere marks apart (within other early)] at after ⊢
    rw [fills.below.left other (marks.size ▸ early) after, marks.others other apart]
  · intro other early before after
    by_cases apart : other = id
    · rw [apart]
      exact fills.completed marks
    · rw [fills.elsewhere marks apart (within other early)] at after
      rw [← marks.others other apart] at before
      exact fills.completed_of_below marks apart (within other early)
        (fills.below.completed other (marks.size ▸ early) before after)
  · intro other outside early
    have apart : other ≠ id := by
      rintro rfl
      exact absurd marks.inside (Nat.not_lt.mpr outside)
    by_cases old : other < middle.size
    · obtain ⟨owner, known, added⟩ := fills.below.new other (marks.size ▸ outside) old
      exact ⟨owner, known, (fills.elsewhere marks apart old).trans added⟩
    · have bound : other < helped.size := by simpa [fills.last] using early
      refine ⟨id, name, ?_⟩
      rw [fills.node_eq marks, if_neg (Ne.symm apart)]
      exact fills.got.new other (Nat.le_of_not_lt old) bound

end Marked

/-! ### Whole runs -/

theorem finishes_of_prepare {name : Label} (sound : g.Sound) (inside : id < g.size)
    (done : (prepare id name).run g = (.ok ⟨⟩, later)) :
    Finishes g later ∧ (later.node id).prepared = true := by
  have led := prepares_prepare sound inside name g rfl
  rwa [done] at led

/-- The children that a command has with its help are commands of the graph. -/
theorem GotHelp.known {middle : Graph} {name : Label} (got : GotHelp middle g id name)
    (sound : middle.Sound) : ∀ entry ∈ (g.node id).children, entry.2 < g.size := by
  obtain ⟨children, withHelp, node⟩ := got.helped
  rw [node]
  intro entry member
  rcases withHelp with ⟨-, same⟩ | ⟨-, help, -, helpHere, inserted⟩
  · rw [same] at member
    exact Nat.lt_of_lt_of_le (sound.known id entry member) got.grown
  · rw [inserted] at member
    rcases Labelled.mem_insert member with new | old
    · rw [new]
      apply lt_size_of_prepared
      rw [helpHere]
      rfl
    · exact Nat.lt_of_lt_of_le (sound.known id entry old) got.grown

/-- A command that could be closed has its help, and its children stand under all that they answer
to. -/
theorem run_closing_eq_ok {name : Label} (sound : g.Sound) (inside : id < g.size)
    (done : (closing id name).run g = (.ok ⟨⟩, later)) :
    later = (g.addHelp id name).withChildren id fun children =>
      children.answering (g.addHelp id name).answers := by
  rw [closing, run_bind_ok _ (run_modify _ g)] at done
  have got := gotHelp_addHelp inside name
  exact run_addChildAliases (Nat.lt_of_lt_of_le inside got.grown) (got.known sound) done

/-- A course that ends without a failure completes what is prepared on it. -/
theorem Ends.completion {task : Task} {result : Except Failure Unit}
    (ends : Ends task g result later) (sound : g.Sound) (known : task.IsKnownIn g)
    (fine : result = .ok ⟨⟩) : Completion g later := by
  induction ends with
  | again met => exact .refl sound
  | unread | stopped | first => cases fine
  | none => exact .refl sound
  | closed fresh opened below finished ih =>
    subst fine
    have course := Ends.closed fresh opened below finished
    obtain ⟨finishes, -⟩ := finishes_of_prepare sound known ((ends_iff sound known).mp course)
    obtain ⟨parameters, -, marks, underway, rfl⟩ := run_opening_eq_ok sound known fresh opened
    have completion := ih underway.sound (underway.sound.known _) rfl
    have bound := lt_size_of_prepared (completion.prepared marks.prepared)
    have last := run_closing_eq_ok completion.sound bound finished
    exact Fills.completion marks ⟨completion, gotHelp_addHelp bound _, last⟩ finishes
  | next head others ihHead ihOthers =>
    have first := ihHead sound (known _ List.mem_cons_self) rfl
    exact first.trans (ihOthers first.sound (known.tail.mono first.grown) fine)

/-- Preparing a command completes it, and all commands below it that were not prepared. -/
theorem completion_of_prepare {name : Label} (sound : g.Sound) (inside : id < g.size)
    (done : (prepare id name).run g = (.ok ⟨⟩, later)) :
    Completion g later ∧ (later.node id).prepared = true :=
  ⟨((ends_iff sound inside).mpr done).completion sound inside rfl,
    (finishes_of_prepare sound inside done).2⟩

/-- A command that could be put under another one was prepared first, and then stands there under
its name and under all that it answers to. -/
theorem run_link {last : Graph} {parent child : NodeId} {name : Label} (sound : g.Sound)
    (inside : parent < g.size) (known : child < g.size)
    (done : (link parent name child).run g = (.ok ⟨⟩, last)) :
    ∃ later, (prepare child name).run g = (.ok ⟨⟩, later) ∧
      last = later.withChildren parent fun children =>
        Children.insertAll (children.insert name child) child (g.answers child) := by
  obtain ⟨⟨⟩, later, prepared, done⟩ := run_bind_eq_ok done
  obtain ⟨completion, -⟩ := completion_of_prepare sound known prepared
  rw [run_bind_ok _ (run_modify _ later)] at done
  have room := Nat.lt_of_lt_of_le inside completion.grown
  have bound : child < (later.setChild parent name child).size := by
    rw [setChild, size_update]
    exact Nat.lt_of_lt_of_le known completion.grown
  refine ⟨later, prepared, ?_⟩
  rw [run_addAliases bound done]
  have put : later.setChild parent name child =
      later.withChildren parent fun children => children.insert name child := rfl
  rw [put, answers_withChildren room, withChildren_withChildren, completion.answers_eq]

end Graph
end Switchboard
