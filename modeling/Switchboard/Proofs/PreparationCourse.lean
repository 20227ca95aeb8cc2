import Switchboard.Proofs.Preparation

/-!
The course that preparing takes. A command that is met for the first time is opened: it is marked
and its arguments are read. Then each of its sub-commands takes its own course, and at last the
command is closed: its help is put in, and the aliases of its sub-commands. The course is told here
without a bound on how deep it goes. It comes to an end on every graph, however commands are shared
and whatever cycles they lie on, since each level of it marks a command that was not marked.
-/
namespace Switchboard

open Work

namespace Graph

/-! ### The parts of preparing -/

/-- The arguments of a command with their rules read, one after the other. -/
def parsedParameters (parameters : Option (List Parameter)) :
    Except Failure (Option (List Parameter)) :=
  match parameters with
  | none => .ok none
  | some parameters => (parameters.mapM parsedParameter).map some

/-- What is done to a command before its sub-commands are prepared: it is marked, and its arguments
are read. The sub-commands are the ones that it has then. -/
def opening (id : NodeId) (name : Label) : GraphM Children := do
  modify fun g => g.update id (mark · name)
  match ((← get).node id).parameters with
  | none => pure ()
  | some parameters =>
    let parsed ← parameters.mapM (parsedParameter ·)
    modify fun g => g.update id fun node => { node with parameters := some parsed }
  return ((← get).node id).children

/-- What is done to a command after its sub-commands were prepared. -/
def closing (id : NodeId) (name : Label) : GraphM Unit := do
  modify fun g => g.addHelp id name
  addChildAliases id

/-- Prepares some sub-commands, one after the other. -/
def prepareEach (fuel : Nat) (entries : Children) : GraphM Unit := do
  for (label, child) in entries do
    prepareWithin fuel child label

variable {g marked middle later : Graph} {id : NodeId} {name : Label} {entries : Children}
  {result : Except Failure Unit} {fuel : Nat}

theorem run_prepareEach_cons (fuel : Nat) (label : Label) (child : NodeId) (rest : Children)
    (g : Graph) :
    (prepareEach fuel ((label, child) :: rest)).run g =
      (prepareWithin fuel child label >>= fun _ => prepareEach fuel rest).run g := by
  unfold prepareEach
  simp only [List.forIn_cons, bind_assoc, pure_bind]

theorem run_prepareWithin (fresh : (g.node id).prepared = false) (fuel : Nat) (name : Label) :
    (prepareWithin (fuel + 1) id name).run g =
      (opening id name >>= fun entries => prepareEach fuel entries >>= fun _ =>
        closing id name).run g := by
  rw [prepareWithin, run_bind_ok _ (run_get g), if_neg (Bool.eq_false_iff.mp fresh)]
  unfold opening prepareEach closing
  simp only [bind_assoc]
  rw [run_bind_ok _ (run_modify _ g), run_bind_ok _ (run_modify _ g), run_bind_ok _ (run_get _),
    run_bind_ok _ (run_get _)]
  cases ((g.update id (mark · name)).node id).parameters with
  | none => simp only [pure_bind, bind_assoc]
  | some parameters => simp only [pure_bind, bind_assoc]

/-! ### Marking -/

/-- A graph in which one command was marked and its arguments were read, and nothing else was done.
-/
structure Marks (g marked : Graph) (id : NodeId) (name : Label)
    (parameters : Option (List Parameter)) : Prop where
  inside : id < g.size
  fresh : (g.node id).prepared = false
  size : marked.size = g.size
  here : marked.node id = { mark (g.node id) name with parameters }
  others : ∀ other, other ≠ id → marked.node other = g.node other

theorem Marks.prepared {parameters : Option (List Parameter)}
    (marks : Marks g marked id name parameters) :
    (marked.node id).prepared = true := by
  rw [marks.here]
  rfl

theorem Marks.children_eq {parameters : Option (List Parameter)}
    (marks : Marks g marked id name parameters) (other : NodeId) :
    (marked.node other).children = (g.node other).children := by
  by_cases same : other = id
  · rw [same, marks.here]
    rfl
  · rw [marks.others other same]

/-- Marking a command and nothing else. -/
theorem marks_mark (inside : id < g.size) (fresh : (g.node id).prepared = false) (name : Label) :
    Marks g (g.update id (mark · name)) id name (g.node id).parameters where
  inside := inside
  fresh := fresh
  size := size_update g id _
  here := by
    rw [node_update g id id (mark · name) inside, if_pos rfl]
    rfl
  others other apart := by
    rw [node_update g id other (mark · name) inside, if_neg (Ne.symm apart)]

/-- Reading the arguments of a marked command. -/
theorem Marks.read {parameters : Option (List Parameter)}
    (marks : Marks g marked id name parameters) (parsed : List Parameter) :
    Marks g (marked.update id fun node => { node with parameters := some parsed }) id name
      (some parsed) := by
  have node (other : NodeId) := node_update marked id other
    (fun node => { node with parameters := some parsed }) (marks.size ▸ marks.inside)
  constructor
  · exact marks.inside
  · exact marks.fresh
  · rw [size_update, marks.size]
  · rw [node, if_pos rfl, marks.here]
  · intro other apart
    rw [node, if_neg (Ne.symm apart), marks.others other apart]

/-- A command that was opened is marked and its arguments are read; no other one changed. -/
theorem run_opening_eq_ok (sound : g.Sound) (inside : id < g.size)
    (fresh : (g.node id).prepared = false)
    (done : (opening id name).run g = (.ok entries, marked)) :
    ∃ parameters, parsedParameters (g.node id).parameters = .ok parameters ∧
      Marks g marked id name parameters ∧ Underway g id marked ∧
      entries = (marked.node id).children := by
  have marks := marks_mark inside fresh name
  have underway := Underway.mark sound inside fresh name
  have declares : ((g.update id (mark · name)).node id).parameters = (g.node id).parameters := by
    rw [marks.here]
  rw [opening, run_bind_ok _ (run_modify _ g), run_bind_ok _ (run_get _), declares] at done
  cases declared : (g.node id).parameters with
  | none =>
    rw [declared] at done marks
    cases done
    exact ⟨none, rfl, marks, underway, rfl⟩
  | some parameters =>
    rw [declared] at done
    obtain ⟨parsed, middle, reading, done⟩ := run_bind_eq_ok done
    rw [run_mapM_liftM] at reading
    obtain ⟨rules, rfl⟩ := Prod.mk.inj reading
    cases done
    refine ⟨some parsed, ?_, marks.read parsed, ?_, rfl⟩
    · rw [parsedParameters, rules]
      rfl
    · exact underway.update underway.marked (underway.sound.known id)

/-! ### The course -/

/-- What is still to be prepared: one command, or some sub-commands. -/
inductive Task
  | command (id : NodeId) (name : Label)
  | children (entries : Children)

namespace Task

/-- A task about commands of the graph. -/
def IsKnownIn (g : Graph) : Task → Prop
  | .command id _ => id < g.size
  | .children entries => ∀ entry ∈ entries, entry.2 < g.size

theorem IsKnownIn.mono {task : Task} (known : task.IsKnownIn g) (grown : g.size ≤ later.size) :
    task.IsKnownIn later := by
  cases task with
  | command id name => exact Nat.lt_of_lt_of_le known grown
  | children entries => exact fun entry member => Nat.lt_of_lt_of_le (known entry member) grown

/-- The others of some sub-commands. -/
theorem IsKnownIn.tail {entry : Label × NodeId} {rest : Children}
    (known : (children (entry :: rest)).IsKnownIn g) : (children rest).IsKnownIn g :=
  fun other member => known other (List.mem_cons_of_mem entry member)

end Task

/-- How a task ends on a graph, and which graph it leaves. A derivation is the whole course from the
task to its end. -/
inductive Ends : Task → Graph → Except Failure Unit → Graph → Prop
  /-- A command that was met before. -/
  | again {g : Graph} {id : NodeId} {name : Label} (met : (g.node id).prepared = true) :
      Ends (.command id name) g (.ok ⟨⟩) g
  /-- A command whose arguments cannot be read. -/
  | unread {g later : Graph} {id : NodeId} {name : Label} {failure : Failure}
      (fresh : (g.node id).prepared = false)
      (failed : (opening id name).run g = (.error failure, later)) :
      Ends (.command id name) g (.error failure) later
  /-- A command one of whose sub-commands cannot be prepared. -/
  | stopped {g middle later : Graph} {id : NodeId} {name : Label} {entries : Children}
      {failure : Failure} (fresh : (g.node id).prepared = false)
      (opened : (opening id name).run g = (.ok entries, middle))
      (below : Ends (.children entries) middle (.error failure) later) :
      Ends (.command id name) g (.error failure) later
  | closed {g middle last later : Graph} {id : NodeId} {name : Label} {entries : Children}
      {result : Except Failure Unit} (fresh : (g.node id).prepared = false)
      (opened : (opening id name).run g = (.ok entries, middle))
      (below : Ends (.children entries) middle (.ok ⟨⟩) last)
      (finished : (closing id name).run last = (result, later)) :
      Ends (.command id name) g result later
  | none {g : Graph} : Ends (.children []) g (.ok ⟨⟩) g
  /-- Sub-commands of which the first cannot be prepared. -/
  | first {g later : Graph} {id : NodeId} {name : Label} {rest : Children} {failure : Failure}
      (failed : Ends (.command id name) g (.error failure) later) :
      Ends (.children ((name, id) :: rest)) g (.error failure) later
  | next {g middle later : Graph} {id : NodeId} {name : Label} {rest : Children}
      {result : Except Failure Unit} (head : Ends (.command id name) g (.ok ⟨⟩) middle)
      (others : Ends (.children rest) middle result later) :
      Ends (.children ((name, id) :: rest)) g result later

/-- A task ends in one way only. -/
theorem Ends.unique {task : Task} {other : Except Failure Unit} {last : Graph}
    (ends : Ends task g result later) (again : Ends task g other last) :
    result = other ∧ later = last := by
  induction ends generalizing other last with
  | again met =>
    cases again with
    | again => exact ⟨rfl, rfl⟩
    | unread fresh | stopped fresh | closed fresh =>
      exact absurd (fresh.symm.trans met) Bool.false_ne_true
  | unread fresh failed =>
    cases again with
    | again met => exact absurd (fresh.symm.trans met) Bool.false_ne_true
    | unread _ failed' =>
      cases failed.symm.trans failed'
      exact ⟨rfl, rfl⟩
    | stopped _ opened | closed _ opened => cases failed.symm.trans opened
  | stopped fresh opened below ih =>
    cases again with
    | again met => exact absurd (fresh.symm.trans met) Bool.false_ne_true
    | unread _ failed => cases opened.symm.trans failed
    | stopped _ opened' below' =>
      cases opened.symm.trans opened'
      exact ih below'
    | closed _ opened' below' =>
      cases opened.symm.trans opened'
      cases (ih below').1
  | closed fresh opened below finished ih =>
    cases again with
    | again met => exact absurd (fresh.symm.trans met) Bool.false_ne_true
    | unread _ failed => cases opened.symm.trans failed
    | stopped _ opened' below' =>
      cases opened.symm.trans opened'
      cases (ih below').1
    | closed _ opened' below' finished' =>
      cases opened.symm.trans opened'
      obtain rfl := (ih below').2
      cases finished.symm.trans finished'
      exact ⟨rfl, rfl⟩
  | none =>
    cases again
    exact ⟨rfl, rfl⟩
  | first failed ih =>
    cases again with
    | first failed' => exact ih failed'
    | next head => cases (ih head).1
  | next head others ihHead ihOthers =>
    cases again with
    | first failed => cases (ihHead failed).1
    | next head' others' =>
      obtain rfl := (ihHead head').2
      exact ihOthers others'

/-- Preparing one command with some fuel comes to what its course ends in. -/
def EndsWithin (fuel : Nat) : Prop :=
  ∀ (g : Graph) (id : NodeId) (name : Label), g.Sound → id < g.size → g.pending < fuel →
    Ends (.command id name) g ((prepareWithin fuel id name).run g).1
      ((prepareWithin fuel id name).run g).2

theorem ends_prepareEach (each : EndsWithin fuel) (sound : g.Sound)
    (known : (Task.children entries).IsKnownIn g) (enough : g.pending < fuel) :
    Ends (.children entries) g ((prepareEach fuel entries).run g).1
      ((prepareEach fuel entries).run g).2 := by
  induction entries generalizing g with
  | nil => exact .none
  | cons entry rest ih =>
    obtain ⟨label, child⟩ := entry
    have inside : child < g.size := known (label, child) List.mem_cons_self
    have head := each g child label sound inside enough
    have prepares := prepares_prepareWithin fuel g child label sound inside enough g rfl
    rw [run_prepareEach_cons, run_bind]
    rcases ran : (prepareWithin fuel child label).run g with ⟨result, middle⟩
    rw [ran] at head prepares
    cases result with
    | error failure => exact .first head
    | ok done =>
      obtain ⟨finishes, -⟩ := prepares
      refine .next head (ih finishes.sound (known.tail.mono finishes.grown) ?_)
      exact Nat.lt_of_le_of_lt finishes.pending_le enough

theorem endsWithin (fuel : Nat) : EndsWithin fuel := by
  induction fuel with
  | zero => exact fun _ _ _ _ _ enough => absurd enough (Nat.not_lt_zero _)
  | succ fuel ih =>
    intro g id name sound inside enough
    cases fresh : (g.node id).prepared with
    | true =>
      rw [prepareWithin, run_bind_ok _ (run_get g), if_pos fresh]
      exact .again fresh
    | false =>
      rw [run_prepareWithin fresh, run_bind]
      rcases opened : (opening id name).run g with ⟨result, marked⟩
      cases result with
      | error failure => exact .unread fresh opened
      | ok entries =>
        obtain ⟨parameters, -, -, underway, rfl⟩ := run_opening_eq_ok sound inside fresh opened
        have lower := Nat.lt_of_lt_of_le underway.pending_lt (Nat.le_of_lt_succ enough)
        have below := ends_prepareEach ih underway.sound (underway.sound.known id) lower
        dsimp only
        rw [run_bind]
        rcases ran : (prepareEach fuel (marked.node id).children).run marked with ⟨result, last⟩
        rw [ran] at below
        cases result with
        | error failure => exact .stopped fresh opened below
        | ok done => exact .closed fresh opened below rfl

/-- The course of preparing a command comes to an end, the same one in every account of it, and that
is what preparing the command comes to. -/
theorem ends_iff (sound : g.Sound) (inside : id < g.size) :
    Ends (.command id name) g result later ↔ (prepare id name).run g = (result, later) := by
  have ends : Ends (.command id name) g ((prepare id name).run g).1
      ((prepare id name).run g).2 := by
    rw [prepare, run_bind_ok _ (run_get g)]
    exact endsWithin _ g id name sound inside (Nat.lt_succ_self _)
  constructor
  · intro other
    obtain ⟨same, left⟩ := ends.unique other
    exact Prod.ext same left
  · intro ran
    rw [ran] at ends
    exact ends

end Graph
end Switchboard
