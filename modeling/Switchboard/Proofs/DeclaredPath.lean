import Switchboard.Proofs.Holder
import Switchboard.Proofs.Registry

/-!
Finding declared commands along their declared names. A sub-command is found under its name unless
the help or, last of all, another sub-command answers to that name; where it is not found, nothing
further along the trail of names is what was declared there either.
-/
namespace Switchboard

namespace Spec

/-- Sub-commands whose names can stand in a dotted name. -/
structure AreSpelled (commands : Labelled Spec) : Prop extends AreNamed commands where
  spelled : ∀ command ∈ commands, ∀ name, command.1 = .text name → name ≠ "" ∧ '.' ∉ name.toList

/-- Sub-commands that can be told apart by texts alone: so they are named, and what they answer to
besides are texts as well. -/
structure AreTextual (commands : Labelled Spec) : Prop extends AreSpelled commands where
  answers : ∀ command ∈ commands, ∀ label ∈ command.2.answers, ∃ s, label = .text s ∧ s ≠ ""

/-- A declaration whose sub-command of this name is not hidden: the help does not answer to the
name, and no other sub-command has it. -/
def Keeps (spec : Spec) (name : String) : Prop :=
  name ∉ helpAliases ∧ spec.holder? name = some (.text name)

/-- `Keeps` all along a trail of names. -/
def KeepsAll (spec : Spec) : List String → Prop
  | [] => True
  | name :: trail =>
    spec.Keeps name ∧ ∀ sub, spec.subcommands.get? (.text name) = some sub → KeepsAll sub trail

theorem areSpelled_of_names {commands : Labelled Spec} (names : List String)
    (same : commands.map Prod.fst = names.map .text) (once : names.Nodup)
    (each : ∀ name ∈ names, name ≠ "" ∧ '.' ∉ name.toList ∧ name ≠ helpName) :
    AreSpelled commands := by
  have listed : ∀ command ∈ commands, ∃ name ∈ names, .text name = command.1 := by
    intro command member
    have known : command.1 ∈ names.map Label.text := by
      rw [← same]
      exact List.mem_map_of_mem member
    exact List.mem_map.mp known
  constructor
  · constructor
    · rw [same]
      exact once.map fun _ _ => Label.text.inj
    · intro command member
      obtain ⟨name, known, label⟩ := listed command member
      exact ⟨name, label.symm, (each name known).2.2⟩
  · intro command member name label
    obtain ⟨known, among, same⟩ := listed command member
    obtain rfl := Label.text.inj (same.trans label)
    exact ⟨(each known among).1, (each known among).2.1⟩

/-- The names along a declared trail can stand in a dotted name. -/
theorem spelled_of_at? {spec sub : Spec} {trail : List String} (tree : spec.IsTree AreSpelled)
    (declared : spec.at? trail = some sub) :
    ∀ name ∈ trail, name ≠ "" ∧ '.' ∉ name.toList := by
  induction trail generalizing spec with
  | nil => exact nofun
  | cons first rest ih =>
    obtain ⟨next, found, later⟩ := exists_of_at? declared
    have member := Labelled.mem_of_get?_text found
    intro name along
    rcases List.mem_cons.mp along with rfl | further
    · exact tree.here.spelled _ member name rfl
    · exact ih (tree.sub member) later name further

end Spec

namespace Graph

variable {g built later : Graph} {name : Label} {spec sub : Spec} {low id command : NodeId}
  {segment : String} {trail : List String}

/-- A walk that starts beside a child does not come to what is below that child. -/
theorem Completion.walk?_beside (completion : Completion built later) (sound : g.Sound)
    (extended : Extends g built) {start child other : NodeId}
    (apart : built.IsSetApart id low start child) (outside : g.size ≤ low)
    (inside : id < built.size)
    (beside : (low ≤ other ∧ other < start ∨ child + 1 ≤ other ∧ other < id) ∨
      built.size ≤ other)
    (walked : later.walk? other trail = some command) :
    command < start ∨ child < command := by
  have stays := completion.walk?_stays
    (fun place => place < g.size ∨ low ≤ place ∧ place < start ∨ child + 1 ≤ place ∧ place < id)
    (.inl (lt_size_of_prepared sound.helped)) (by
      intro place within kid held
      obtain ⟨entry, member, rfl⟩ := List.mem_map.mp held
      rcases within with old | ⟨low, high⟩ | ⟨low, high⟩
      · rw [extended.same place old] at member
        exact .inl (sound.known place entry member)
      · exact .inr (.inl ((apart.before place low high).2 entry member))
      · exact .inr (.inr ((apart.after place low high).2 entry member)))
    (beside.imp_left .inr) walked
  rcases stays with (old | earlier | further) | new
  · exact .inl (Nat.lt_of_lt_of_le old (Nat.le_trans outside apart.outside))
  · exact .inl earlier.2
  · exact .inr further.1
  · exact .inr (Nat.lt_of_lt_of_le (Nat.lt_trans apart.inside inside) new)

/-- Whoever asks for a segment comes to the child of that name, or else to some command beside it.
-/
theorem Completion.child_or_beside (completion : Completion built later)
    (made : Made built name spec low id) (inside : id < built.size)
    (prepared : (later.node id).prepared = true) (named : Spec.AreNamed spec.subcommands)
    (declared : spec.subcommands.get? (.text segment) = some sub) {start child : NodeId}
    (here : (built.node id).children.get? (.text segment) = some child)
    (apart : built.IsSetApart id low start child) :
    ∃ other, (later.node id).children.get? (.text segment) = some other ∧
      (spec.Keeps segment ∧ other = child ∨ ¬ spec.Keeps segment ∧
        ((low ≤ other ∧ other < start ∨ child + 1 ≤ other ∧ other < id) ∨
          built.size ≤ other)) := by
  obtain ⟨help, title, new, -, leads⟩ := completion.get?_children made inside prepared named
  by_cases answered : segment ∈ helpAliases
  · refine ⟨help, by rw [leads, if_pos answered], .inr ⟨fun keeps => keeps.1 answered, .inr new⟩⟩
  have member := List.mem_map_of_mem (f := Prod.fst) (Labelled.mem_of_get?_text declared)
  obtain ⟨holder, held⟩ := Spec.exists_holder member
  obtain ⟨command, known, rfl⟩ := List.mem_map.mp (Spec.mem_of_holder? held)
  obtain ⟨text, label, -⟩ := named.named command known
  have present := (made.madeBelow.isSome_get? named text).mpr (label ▸ List.mem_map_of_mem known)
  obtain ⟨other, found⟩ := Option.isSome_iff_exists.mp present
  refine ⟨other, by simp [leads, answered, held, label, found], ?_⟩
  by_cases same : text = segment
  · subst same
    exact .inl ⟨⟨answered, label ▸ held⟩, Option.some.inj (found.symm.trans here)⟩
  · refine .inr ⟨fun keeps => same ?_, .inl ?_⟩
    · exact Label.text.inj (label.symm.trans (Option.some.inj (held.symm.trans keeps.2)))
    · have otherMember := Labelled.mem_of_get?_text found
      rcases apart.siblings _ otherMember with rfl | beside
      · have twice := List.inj_on_of_nodup_map made.madeBelow.nodup otherMember
          (Labelled.mem_of_get?_text here) rfl
        exact absurd (Label.text.inj (Prod.mk.inj twice).1) same
      · exact beside

/-- A trail of names leads to what is declared there exactly if nothing is hidden on the way. -/
theorem Completion.walk?_iff (completion : Completion built later) (sound : g.Sound)
    (extended : Extends g built) (made : Made built name spec low id)
    (tree : spec.IsTree Spec.AreNamed) (outside : g.size ≤ low) (inside : id < built.size)
    (prepared : (later.node id).prepared = true) (declared : spec.at? trail = some sub)
    (walked : built.walk? id trail = some command) :
    later.walk? id trail = some command ↔ spec.KeepsAll trail := by
  induction trail generalizing name spec low id with
  | nil => exact iff_of_true walked trivial
  | cons first rest ih =>
    obtain ⟨next, found, further⟩ := Spec.exists_of_at? declared
    obtain ⟨start, child, here, madeChild, apart⟩ := made.child tree.here found
    have subtree := tree.sub (Labelled.mem_of_get?_text found)
    have walkedOn : built.walk? child rest = some command := by
      simpa [walk?, here] using walked
    obtain ⟨other, leads, same | beside⟩ :=
      completion.child_or_beside made inside prepared tree.here found here apart
    · obtain ⟨keeps, rfl⟩ := same
      have preparedChild := completion.prepared_child made.fresh prepared leads
      have goOn := ih madeChild subtree (Nat.le_trans outside apart.outside)
        (Nat.lt_trans apart.inside inside) preparedChild further walkedOn
      simp [walk?, leads, Spec.KeepsAll, keeps, found, goOn]
    · obtain ⟨hidden, beside⟩ := beside
      refine iff_of_false (fun reached => ?_) fun keepsAll => hidden keepsAll.1
      have reachedOn : later.walk? other rest = some command := by
        simpa [walk?, leads] using reached
      -- What is declared there was made below the child, and the walk went on beside it.
      obtain ⟨begin_, target, walkedTo, madeTarget, least, most⟩ :=
        madeChild.walk?_declared subtree further
      obtain rfl := Option.some.inj (walkedOn.symm.trans walkedTo)
      rcases completion.walk?_beside sound extended apart outside inside beside reachedOn with
        earlier | later
      · exact absurd (Nat.le_trans least madeTarget.low_le) (Nat.not_le.mpr earlier)
      · exact absurd most (Nat.not_le.mpr later)

/-- Of each declared sub-command a command is made, and after preparing its names lead to that
command exactly if nothing is hidden on the way. -/
theorem find?_declared_iff {title : Label} (sound : g.Sound) (tree : spec.IsTree Spec.AreSpelled)
    (builds : (build name spec).run g = (.ok id, built))
    (prepares : (prepare id title).run built = (.ok ⟨⟩, later)) (nonempty : trail ≠ [])
    (declared : spec.at? trail = some sub) :
    ∃ start command, built.walk? id trail = some command ∧
      Made built (Spec.lastName name trail) sub start command ∧
      (later.find? id (".".intercalate trail) = some command ↔ spec.KeepsAll trail) := by
  have construction := builtFrom_of_run sound tree builds
  obtain ⟨completion, prepared⟩ :=
    completion_of_prepare construction.sound construction.lt_size prepares
  have named := tree.mono fun _ spelled => spelled.toAreNamed
  obtain ⟨start, command, walked, made, -, -⟩ := construction.made.walk?_declared named declared
  have iff := completion.walk?_iff sound construction.extended construction.made named
    (Nat.le_refl _) construction.lt_size prepared declared walked
  have spelled := Spec.spelled_of_at? tree declared
  have segments : Text.segments '.' (".".intercalate trail) = trail :=
    Text.segments_intercalate nonempty fun part along => (spelled part along).2
  have somewhere : ".".intercalate trail ≠ "" := by
    intro nothing
    rw [nothing] at segments
    have blank : "" ∈ trail := by
      rw [← segments]
      exact List.mem_singleton.mpr rfl
    exact (spelled "" blank).1 rfl
  refine ⟨start, command, walked, made, ?_⟩
  rw [find?, if_neg somewhere, segments]
  exact iff

end Graph

namespace Spec

/-- A command with two sub-commands, of which the first answers to the name of the second as well.
-/
def overlapping : Spec :=
  .table [("subs", .table [
    ("b", .table [("alias", .list [.text "c"]), ("subs", .table [("d", .table [])])]),
    ("c", .table [])])]

theorem isTree_overlapping : overlapping.IsTree AreTextual := by
  have leaf : IsTree AreTextual (.table []) :=
    .command ⟨areSpelled_of_names [] rfl (by decide) nofun, nofun⟩ nofun
  have inner : IsTree AreTextual
      (.table [("alias", .list [.text "c"]), ("subs", .table [("d", .table [])])]) := by
    refine .command ⟨areSpelled_of_names ["d"] rfl (by decide) (by decide), ?_⟩ ?_
    · intro command member label answered
      obtain rfl := List.mem_singleton.mp member
      cases answered
    · intro command member
      obtain rfl := List.mem_singleton.mp member
      exact leaf
  refine .command ⟨areSpelled_of_names ["b", "c"] rfl (by decide) (by decide), ?_⟩ ?_
  · intro command member label answered
    rcases List.mem_cons.mp member with rfl | member
    · obtain rfl := List.mem_singleton.mp answered
      exact ⟨"c", rfl, by decide⟩
    · obtain rfl := List.mem_singleton.mp member
      cases answered
  · intro command member
    rcases List.mem_cons.mp member with rfl | member
    · exact inner
    · obtain rfl := List.mem_singleton.mp member
      exact leaf

end Spec

namespace Graph

/-- The graph with `Spec.overlapping` built under the name `a`. -/
def overlappingBuilt : Graph :=
  ((build (.text "a") Spec.overlapping).run start).2

/-- The same graph with `Spec.overlapping` prepared. -/
def overlappingPrepared : Graph :=
  ((prepare 6 (.text "a")).run overlappingBuilt).2

theorem run_build_overlapping :
    (build (.text "a") Spec.overlapping).run start = (.ok 6, overlappingBuilt) :=
  Work.run_eq_of_toOption (by decide +kernel)

theorem run_prepare_overlapping :
    (prepare 6 (.text "a")).run overlappingBuilt = (.ok ⟨⟩, overlappingPrepared) :=
  Work.run_eq_of_toOption (by decide +kernel)

/-- A sub-command of a sub-command is found along its names. -/
theorem find?_overlapping :
    ∃ command, overlappingBuilt.walk? 6 ["b", "d"] = some command ∧
      overlappingPrepared.find? 6 "b.d" = some command := by
  have kept : Spec.overlapping.KeepsAll ["b", "d"] := by
    refine ⟨⟨by decide, by decide +kernel⟩, fun sub found => ?_⟩
    obtain rfl := Option.some.inj found
    refine ⟨⟨by decide, by decide +kernel⟩, fun sub found => ?_⟩
    trivial
  obtain ⟨start, command, walked, -, found⟩ := find?_declared_iff Registry.inOrder_start.sound
    (Spec.isTree_overlapping.mono fun _ textual => textual.toAreSpelled) run_build_overlapping
    run_prepare_overlapping (List.cons_ne_nil "b" ["d"]) rfl
  exact ⟨command, walked, found.mpr kept⟩

/-- A sub-command is not found under its name when another one answers to that name. -/
theorem find?_overlapped :
    ¬ ∀ (g built later : Graph) (name title : Label) (spec sub : Spec) (id : NodeId)
      (trail : List String), g.Sound → spec.IsTree Spec.AreTextual →
      (build name spec).run g = (.ok id, built) →
      (prepare id title).run built = (.ok ⟨⟩, later) → trail ≠ [] → spec.at? trail = some sub →
      ∃ command, built.walk? id trail = some command ∧
        later.find? id (".".intercalate trail) = some command := by
  intro always
  obtain ⟨command, walked, found⟩ := always start overlappingBuilt overlappingPrepared (.text "a")
    (.text "a") Spec.overlapping (.table []) 6 ["c"] Registry.inOrder_start.sound
    Spec.isTree_overlapping run_build_overlapping run_prepare_overlapping (by simp) rfl
  have declared : overlappingBuilt.walk? 6 ["c"] = some 5 := by decide +kernel
  have hidden : overlappingPrepared.find? 6 (".".intercalate ["c"]) = some 4 := by decide +kernel
  rw [declared] at walked
  rw [hidden] at found
  cases walked.trans found.symm

end Graph
end Switchboard
