import Mathlib.Data.List.Forall2
import Switchboard.Command.Build
import Switchboard.Proofs.Completion

/-!
Declarations as trees of commands, and what building makes of them: every declared command becomes a
command of its own, in a place of its own, with its sub-commands in the places right before it.
-/
namespace Switchboard

open Work

namespace Spec

open Switchboard.Graph

/-- The sub-commands that a declaration declares, by their names. -/
def subcommands : Spec → Labelled Spec
  | .table fields =>
    match lastField? fields childKeys with
    | some (.table children) => children.map fun entry => (.text entry.1, entry.2)
    | some (.mapping children) => children
    | _ => []
  | _ => []

/-- What a declared command answers to besides its name. -/
def answers : Spec → List Label
  | .table fields =>
    match declaredAliases ((lastField? fields aliasKeys).getD .null) with
    | .ok aliases => aliases.filterMap Label.ofDocument?
    | .error _ => []
  | _ => []

/-- A declaration that is a table, as is each that it declares below, and whose sub-commands are as
they should be at every level. -/
inductive IsTree (good : Labelled Spec → Prop) : Spec → Prop
  | command {fields : List (String × Spec)} (here : good (subcommands (.table fields)))
    (below : ∀ entry ∈ subcommands (.table fields), IsTree good entry.2) :
    IsTree good (.table fields)

theorem IsTree.here {good : Labelled Spec → Prop} {spec : Spec} (tree : spec.IsTree good) :
    good spec.subcommands := by
  cases tree with
  | command here below => exact here

theorem IsTree.sub {good : Labelled Spec → Prop} {spec : Spec} (tree : spec.IsTree good)
    {command : Label × Spec} (member : command ∈ spec.subcommands) : command.2.IsTree good := by
  cases tree with
  | command here below => exact below command member

theorem IsTree.mono {good better : Labelled Spec → Prop} {spec : Spec} (tree : spec.IsTree better)
    (more : ∀ commands, better commands → good commands) : spec.IsTree good := by
  induction tree with
  | command here below ih => exact .command (more _ here) ih

/-- What is declared at the end of a trail of names. -/
def at? (spec : Spec) : List String → Option Spec
  | [] => some spec
  | name :: trail =>
    match spec.subcommands.get? (.text name) with
    | some sub => at? sub trail
    | none => none

/-- The name of what is declared at the end of a trail; it starts from a command called `name`. -/
def lastName (name : Label) : List String → Label
  | [] => name
  | first :: trail => lastName (.text first) trail

end Spec

/-- A command that says what a declaration declares, and that nothing was done to yet. -/
structure Node.IsMadeFrom (node : Node) (name : Label) (fields : List (String × Spec)) : Prop where
  named : node.name = name
  help : node.help = ((Graph.lastField? fields Graph.helpKeys).getD .null).document
  aliases :
    Graph.declaredAliases ((Graph.lastField? fields Graph.aliasKeys).getD .null) = .ok node.aliases
  permission :
    Graph.declaredPermission name ((Graph.lastField? fields Graph.permissionKeys).getD (.int 0)) =
      .ok node.permission
  parameters :
    Graph.declaredParameters ((Graph.lastField? fields Graph.parameterKeys).getD .null) =
      .ok node.parameters
  handler :
    Graph.declaredHandler name ((Graph.lastField? fields Graph.handlerKeys).getD .null) =
      .ok node.handler
  fresh : node.prepared = false

namespace Graph

mutual

/-- The command at `id` is made from a declaration, and the commands below it are in the places from
`low` on. -/
inductive Made (g : Graph) : Label → Spec → NodeId → NodeId → Prop
  | command {name : Label} {fields : List (String × Spec)} {low id : NodeId} {children : Children}
    (node : (g.node id).IsMadeFrom name fields) (held : (g.node id).children = children)
    (below : MadeBelow g (Spec.subcommands (.table fields)) low id children) :
    Made g name (.table fields) low id

/-- `Made` for several commands, one after the other. -/
inductive MadeBelow (g : Graph) : Labelled Spec → NodeId → NodeId → Children → Prop
  | nil {place : NodeId} : MadeBelow g [] place place []
  | cons {label : Label} {spec : Spec} {rest : Labelled Spec} {low child high : NodeId}
    {children : Children} (first : Made g label spec low child)
    (others : MadeBelow g rest (child + 1) high children) :
    MadeBelow g ((label, spec) :: rest) low high ((label, child) :: children)

end

variable {g later last : Graph} {name : Label} {spec : Spec} {commands : Labelled Spec}
  {low high id : NodeId} {children : Children}

/-! ### Building -/

theorem buildChildren_eq (children : List (String × Spec)) :
    buildChildren children =
      buildLabelled (children.map fun entry => (Label.text entry.1, entry.2)) := by
  induction children with
  | nil =>
    rw [buildChildren, List.map_nil, buildLabelled]
  | cons entry rest ih =>
    rw [buildChildren, List.map_cons, buildLabelled, ih]

theorem run_addMade {work : GraphM Children} {node : Children → Node}
    (done : (work >>= fun children => modifyGet fun g => g.add (node children)).run g =
      (.ok id, later)) :
    ∃ children middle, work.run g = (.ok children, middle) ∧ id = middle.size ∧
      later = (middle.add (node children)).2 := by
  obtain ⟨children, middle, built, added⟩ := run_bind_eq_ok done
  rw [run_modifyGet] at added
  obtain ⟨place, same⟩ := Prod.mk.inj added
  exact ⟨children, middle, built, (Except.ok.inj place).symm, same.symm⟩

theorem eq_of_run_liftM {α : Type} {result : Except Failure α} {value : α}
    (done : (liftM result : GraphM α).run g = (.ok value, later)) :
    result = .ok value ∧ g = later := by
  rw [run_liftM] at done
  exact Prod.mk.inj done

/-- A declaration that could be built: all of its fields could be read, its sub-commands were built,
and after that the command itself was added. -/
theorem run_build {fields : List (String × Spec)}
    (done : (build name (.table fields)).run g = (.ok id, later)) :
    ∃ node middle, node.IsMadeFrom name fields ∧
      (buildLabelled (Spec.subcommands (.table fields))).run g = (.ok node.children, middle) ∧
      id = middle.size ∧ later = (middle.add node).2 := by
  rw [build] at done
  dsimp only at done
  split at done
  · cases done
  obtain ⟨aliases, s1, read, done⟩ := run_bind_eq_ok done
  obtain ⟨aliasesRead, rfl⟩ := eq_of_run_liftM read
  obtain ⟨handler, s2, read, done⟩ := run_bind_eq_ok done
  obtain ⟨handlerRead, rfl⟩ := eq_of_run_liftM read
  obtain ⟨permission, s3, read, done⟩ := run_bind_eq_ok done
  obtain ⟨permissionRead, rfl⟩ := eq_of_run_liftM read
  obtain ⟨parameters, s4, read, done⟩ := run_bind_eq_ok done
  obtain ⟨parametersRead, rfl⟩ := eq_of_run_liftM read
  have made (children : Children) : Node.IsMadeFrom
      { name, help := ((lastField? fields helpKeys).getD .null).document, aliases, permission,
        parameters, handler, children } name fields :=
    ⟨rfl, rfl, aliasesRead, permissionRead, parametersRead, handlerRead, rfl⟩
  -- The sub-commands may be declared in a table, under labels, or not at all.
  split at done
  · rename_i found
    rw [buildChildren_eq] at done
    obtain ⟨children, middle, built, place, same⟩ := run_addMade done
    refine ⟨_, middle, made children, ?_, place, same⟩
    simpa only [Spec.subcommands, found] using built
  · rename_i found
    obtain ⟨children, middle, built, place, same⟩ := run_addMade done
    refine ⟨_, middle, made children, ?_, place, same⟩
    simpa only [Spec.subcommands, found] using built
  · rename_i other noTable noLabels found
    split at done
    · cases done
    · obtain ⟨children, middle, built, place, same⟩ := run_addMade done
      refine ⟨_, middle, made children, ?_, place, same⟩
      have nothing : Spec.subcommands (.table fields) = [] := by
        unfold Spec.subcommands
        split <;> simp_all
      simpa only [nothing, buildLabelled] using built
  · rename_i found
    obtain ⟨children, middle, built, place, same⟩ := run_addMade done
    refine ⟨_, middle, made children, ?_, place, same⟩
    simpa only [Spec.subcommands, found, buildLabelled] using built

/-- A graph that commands were added to, and nothing else was done to. -/
structure Extends (g later : Graph) : Prop where
  grown : g.size ≤ later.size
  same : ∀ id, id < g.size → later.node id = g.node id

theorem Extends.refl (g : Graph) : Extends g g :=
  ⟨Nat.le_refl _, fun _ _ => rfl⟩

theorem Extends.trans (first : Extends g later) (second : Extends later last) : Extends g last where
  grown := Nat.le_trans first.grown second.grown
  same id early :=
    (second.same id (Nat.lt_of_lt_of_le early first.grown)).trans (first.same id early)

theorem extends_add (g : Graph) (node : Node) : Extends g (g.add node).2 where
  grown := by simp [size_add]
  same _ early := node_add_of_lt early node

/-- A graph that has the same commands as another one in the places from `low` up to `high`. -/
def Agree (g later : Graph) (low high : NodeId) : Prop :=
  ∀ place, low ≤ place → place < high → later.node place = g.node place

/-- A declaration of which building makes commands in the places that come next, and they stay what
they are however the graph is extended. -/
def IsBuildable (spec : Spec) : Prop :=
  ∀ {name : Label} {g later : Graph} {id : NodeId}, (build name spec).run g = (.ok id, later) →
    Extends g later ∧ later.size = id + 1 ∧
      ∀ last, Agree later last g.size later.size → Made last name spec g.size id

theorem madeBelow_of_run (each : ∀ entry ∈ commands, IsBuildable entry.2)
    (done : (buildLabelled commands).run g = (.ok children, later)) :
    Extends g later ∧
      ∀ last, Agree later last g.size later.size →
        MadeBelow last commands g.size later.size children := by
  induction commands generalizing g children with
  | nil =>
    rw [buildLabelled] at done
    obtain ⟨none, rfl⟩ := Prod.mk.inj done
    obtain rfl := Except.ok.inj none
    exact ⟨.refl g, fun _ _ => .nil⟩
  | cons entry rest ih =>
    obtain ⟨label, spec⟩ := entry
    rw [buildLabelled] at done
    obtain ⟨child, middle, built, done⟩ := run_bind_eq_ok done
    obtain ⟨others, end_, builtOthers, done⟩ := run_bind_eq_ok done
    obtain ⟨given, rfl⟩ := Prod.mk.inj done
    obtain rfl := Except.ok.inj given
    obtain ⟨first, size, made⟩ := each (label, spec) List.mem_cons_self built
    obtain ⟨more, below⟩ :=
      ih (fun entry member => each entry (List.mem_cons_of_mem _ member)) builtOthers
    refine ⟨first.trans more, fun last agree => ?_⟩
    constructor
    · apply made
      intro place outside inside
      rw [agree place outside (Nat.lt_of_lt_of_le inside more.grown), more.same place inside]
    · rw [← size]
      apply below
      intro place outside inside
      exact agree place (Nat.le_trans first.grown outside) inside

/-- Of a tree of declarations building makes a tree of commands. -/
theorem isBuildable_of_isTree {good : Labelled Spec → Prop} (tree : spec.IsTree good) :
    IsBuildable spec := by
  induction tree with
  | @command fields here below ih =>
    intro name g later id done
    obtain ⟨node, middle, made, built, rfl, rfl⟩ := run_build done
    obtain ⟨extended, commands⟩ := madeBelow_of_run ih built
    have added := extends_add middle node
    refine ⟨extended.trans added, by rw [size_add], fun last agree => ?_⟩
    have here : last.node middle.size = node := by
      rw [agree middle.size extended.grown (by simp [size_add]), node_add, if_pos rfl]
    refine .command (here ▸ made) (congrArg Node.children here) (commands last ?_)
    intro place outside inside
    rw [agree place outside (Nat.lt_of_lt_of_le inside added.grown), added.same place inside]

/-! ### What was made -/

mutual

theorem Made.low_le {g : Graph} {name : Label} {spec : Spec} {low id : NodeId} :
    Made g name spec low id → low ≤ id
  | .command _ _ below => below.low_le

theorem MadeBelow.low_le {g : Graph} {commands : Labelled Spec} {low high : NodeId}
    {children : Children} : MadeBelow g commands low high children → low ≤ high
  | .nil => Nat.le_refl _
  | .cons first others => Nat.le_trans (Nat.le_succ_of_le first.low_le) others.low_le

end

/-- Places with commands that nothing was done to yet, and that have no children elsewhere. -/
def IsClosed (g : Graph) (low high : NodeId) : Prop :=
  ∀ place, low ≤ place → place < high → (g.node place).prepared = false ∧
    ∀ entry ∈ (g.node place).children, low ≤ entry.2 ∧ entry.2 < high

mutual

theorem Made.isClosed {g : Graph} {name : Label} {spec : Spec} {low id : NodeId} :
    Made g name spec low id → g.IsClosed low (id + 1)
  | .command node held below => by
    obtain ⟨closed, kids⟩ := below.isClosed
    intro place outside inside
    rcases Nat.lt_succ_iff_lt_or_eq.mp inside with before | rfl
    · obtain ⟨fresh, inner⟩ := closed place outside before
      exact ⟨fresh, fun entry member =>
        ⟨(inner entry member).1, Nat.lt_succ_of_lt (inner entry member).2⟩⟩
    · refine ⟨node.fresh, fun entry member => ?_⟩
      rw [held] at member
      exact ⟨(kids entry member).1, Nat.lt_succ_of_lt (kids entry member).2⟩

theorem MadeBelow.isClosed {g : Graph} {commands : Labelled Spec} {low high : NodeId}
    {children : Children} : MadeBelow g commands low high children →
      g.IsClosed low high ∧ ∀ entry ∈ children, low ≤ entry.2 ∧ entry.2 < high
  | .nil => ⟨fun _ outside inside => absurd inside (Nat.not_lt.mpr outside), nofun⟩
  | @MadeBelow.cons _ _ _ _ _ child _ _ first others => by
    have start := first.low_le
    have rest := others.low_le
    obtain ⟨closed, kids⟩ := others.isClosed
    constructor
    · intro place outside inside
      by_cases early : place < child + 1
      · obtain ⟨fresh, inner⟩ := first.isClosed place outside early
        exact ⟨fresh, fun entry member =>
          ⟨(inner entry member).1, Nat.lt_of_lt_of_le (inner entry member).2 rest⟩⟩
      · obtain ⟨fresh, inner⟩ := closed place (Nat.le_of_not_lt early) inside
        refine ⟨fresh, fun entry member => ⟨?_, (inner entry member).2⟩⟩
        exact Nat.le_trans (Nat.le_succ_of_le start) (inner entry member).1
    · intro entry member
      rcases List.mem_cons.mp member with rfl | later
      · exact ⟨start, rest⟩
      · exact ⟨Nat.le_trans (Nat.le_succ_of_le start) (kids entry later).1, (kids entry later).2⟩

end

/-- Each child is made from the declaration in its place. -/
theorem MadeBelow.pairs (made : MadeBelow g commands low high children) :
    List.Forall₂ (fun command entry => entry.1 = command.1 ∧ low ≤ entry.2 ∧ entry.2 < high ∧
      ∃ start, Made g command.1 command.2 start entry.2) commands children := by
  induction commands generalizing low children with
  | nil =>
    cases made
    exact .nil
  | cons command rest ih =>
    cases made with
    | cons first others =>
      refine .cons ⟨rfl, first.low_le, others.low_le, _, first⟩ ?_
      refine (ih others).imp fun command entry related => ?_
      obtain ⟨label, outside, inside, made⟩ := related
      exact ⟨label, Nat.le_trans (Nat.le_succ_of_le first.low_le) outside, inside, made⟩

theorem MadeBelow.labels_eq (made : MadeBelow g commands low high children) :
    children.labels = commands.map Prod.fst := by
  have pairs := made.pairs
  clear made
  unfold Children.labels
  induction pairs with
  | nil => rfl
  | cons related _ ih => simp [related.1, ih]

/-- The places of the children ascend, so no two children share one. -/
theorem MadeBelow.nodup (made : MadeBelow g commands low high children) :
    children.nodes.Nodup := by
  induction commands generalizing low children with
  | nil =>
    cases made
    exact List.nodup_nil
  | cons command rest ih =>
    cases made with
    | cons first others =>
      refine List.nodup_cons.mpr ⟨fun member => ?_, ih others⟩
      obtain ⟨entry, later, same⟩ := List.mem_map.mp member
      have outside := (others.isClosed.2 entry later).1
      exact absurd (same ▸ outside) (Nat.not_succ_le_self _)

/-- A child with what stands before it and after it. -/
theorem MadeBelow.split {label : Label} {before after : Labelled Spec}
    (made : MadeBelow g (before ++ (label, spec) :: after) low high children) :
    ∃ start child kidsBefore kidsAfter, children = kidsBefore ++ (label, child) :: kidsAfter ∧
      MadeBelow g before low start kidsBefore ∧ Made g label spec start child ∧
      MadeBelow g after (child + 1) high kidsAfter := by
  induction before generalizing low children with
  | nil =>
    cases made with
    | cons first others => exact ⟨low, _, [], _, rfl, .nil, first, others⟩
  | cons command rest ih =>
    cases made with
    | cons first others =>
      obtain ⟨start, child, kidsBefore, kidsAfter, rfl, earlier, here, later⟩ := ih others
      exact ⟨start, child, _ :: kidsBefore, kidsAfter, rfl, .cons first earlier, here, later⟩

theorem Made.answers_eq (made : Made g name spec low id) (inside : id < g.size) :
    g.answers id = spec.answers := by
  cases made with
  | command node held below =>
    rw [answers_of_lt inside, Spec.answers, node.aliases]

end Graph
end Switchboard
