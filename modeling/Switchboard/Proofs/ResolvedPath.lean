import Mathlib.Data.List.Nodup
import Mathlib.Data.List.Pairwise
import Switchboard.Proofs.Holder
import Switchboard.Proofs.Registry

/-!
Which dotted names lead anywhere under a root with one command, if at every level each text stands
for one sub-command at most and none for the help. Just those do that name declared commands, by
their names or by what they answer to, and after that nothing but helps.
-/
namespace Switchboard

/-- Whether a segment asks for help. -/
abbrev AsksHelp (segment : String) : Prop :=
  segment ∈ helpName :: helpAliases

namespace Spec

/-- All that a command is known under: its name, and what it answers to besides. -/
def known (command : Label × Spec) : List Label :=
  command.1 :: command.2.answers

/-- Sub-commands that are known under texts, each of them under texts of its own and none under one
that asks for help. -/
structure AreApart (commands : Labelled Spec) : Prop where
  once : (commands.flatMap known).Nodup
  texts : ∀ command ∈ commands, ∀ label ∈ known command,
    ∃ text, label = .text text ∧ ¬ AsksHelp text

/-- Segments that lead somewhere: each is what a sub-command is known under, up to where help is
asked for, and then nothing else is. -/
inductive Resolves : Labelled Spec → List String → Prop
  | asked {commands : Labelled Spec} {segments : List String}
    (help : ∀ segment ∈ segments, AsksHelp segment) : Resolves commands segments
  | declared {commands : Labelled Spec} {command : Label × Spec} {segment : String}
    {segments : List String} (member : command ∈ commands) (here : .text segment ∈ known command)
    (below : Resolves command.2.subcommands segments) : Resolves commands (segment :: segments)

/-- Segments that are known for the commands along a trail of names. -/
inductive Follows : Labelled Spec → List String → List String → Prop
  | nil {commands : Labelled Spec} : Follows commands [] []
  | cons {commands : Labelled Spec} {name segment : String} {spec : Spec}
    {segments trail : List String} (member : (.text name, spec) ∈ commands)
    (here : .text segment ∈ known (.text name, spec))
    (below : Follows spec.subcommands segments trail) :
    Follows commands (segment :: segments) (name :: trail)

theorem areApart_of_texts {commands : Labelled Spec} (texts : List String)
    (same : commands.flatMap known = texts.map .text) (once : texts.Nodup)
    (each : ∀ text ∈ texts, ¬ AsksHelp text) : AreApart commands where
  once := by
    rw [same]
    exact once.map fun _ _ => Label.text.inj
  texts command member label here := by
    have among : label ∈ texts.map Label.text := by
      rw [← same]
      exact List.mem_flatMap.mpr ⟨command, member, here⟩
    obtain ⟨text, listed, rfl⟩ := List.mem_map.mp among
    exact ⟨text, rfl, each text listed⟩

namespace AreApart

variable {commands : Labelled Spec} {spec : Spec} {segment : String} {label : Label}

/-- What is known under one label is one command. -/
theorem eq_of_known (apart : AreApart commands) {command other : Label × Spec}
    (member : command ∈ commands) (otherMember : other ∈ commands)
    (here : label ∈ known command) (there : label ∈ known other) : command = other := by
  by_contra different
  have disjoint := (List.nodup_flatMap.mp apart.once).2
  have : Std.Symm (Function.onFun List.Disjoint known) :=
    ⟨fun _ _ disjoint => List.Disjoint.symm disjoint⟩
  exact disjoint.forall member otherMember different here there

theorem areNamed (apart : AreApart commands) : AreNamed commands where
  once := by
    refine List.Nodup.sublist ?_ apart.once
    generalize commands = all
    induction all with
    | nil => exact .slnil
    | cons command rest ih =>
      simp only [List.map_cons, List.flatMap_cons, known, List.cons_append]
      exact .cons_cons _ (ih.trans (List.sublist_append_right _ _))
  named command member := by
    obtain ⟨text, same, other⟩ := apart.texts command member command.1 List.mem_cons_self
    exact ⟨text, same, fun help => other (help ▸ List.mem_cons_self)⟩

/-- The one sub-command that is known under a segment has it. -/
theorem holder?_eq_some_iff (apart : AreApart spec.subcommands) :
    spec.holder? segment = some label ↔
      ∃ sub, (label, sub) ∈ spec.subcommands ∧ .text segment ∈ known (label, sub) := by
  have last {command : Label × Spec} (found : spec.answering segment = some command) :
      command ∈ spec.subcommands ∧ .text segment ∈ known command := by
    obtain ⟨member, answers⟩ := List.mem_filter.mp (List.mem_of_getLast? found)
    exact ⟨member, List.mem_cons_of_mem _ (of_decide_eq_true answers)⟩
  constructor
  · intro held
    rcases Option.or_eq_some_iff.mp held with answers | ⟨-, named⟩
    · obtain ⟨⟨_, sub⟩, found, rfl⟩ := Option.map_eq_some_iff.mp answers
      exact ⟨sub, last found⟩
    · split at named
      · rename_i declared
        obtain rfl := Option.some.inj named
        obtain ⟨⟨_, sub⟩, member, rfl⟩ := List.mem_map.mp declared
        exact ⟨sub, member, by rw [known]; exact List.mem_cons_self⟩
      · cases named
  · rintro ⟨sub, member, here⟩
    unfold holder?
    cases found : spec.answering segment with
    | some command =>
      obtain ⟨otherMember, there⟩ := last found
      rw [apart.eq_of_known otherMember member there here]
      rfl
    | none =>
      rcases List.mem_cons.mp here with rfl | answers
      · have declared := List.mem_map_of_mem (f := Prod.fst) member
        simp [declared]
      · have nobody := List.filter_eq_nil_iff.mp (List.getLast?_eq_none_iff.mp found)
        exact absurd (decide_eq_true answers) (nobody _ member)

end AreApart
end Spec

namespace Graph

variable {built later last : Graph} {name : Label} {spec : Spec} {commands : Labelled Spec}
  {low id place : NodeId} {kids : Children} {segment : String} {segments trail : List String}

/-! ### One command -/

theorem get?_map_text (names : List String) (child : NodeId) (segment : String) :
    Labelled.get? (names.map fun name => (Label.text name, child)) (.text segment) =
      if segment ∈ names then some child else none := by
  induction names with
  | nil => rfl
  | cons known rest ih =>
    rw [List.map_cons, Labelled.get?_cons, Label.same_comm, Label.same_text, ih]
    by_cases same : segment = known
    · simp [same]
    · simp [same, Ne.symm same]

theorem get?_helpChildren (segment : String) :
    Labelled.get? helpChildren (.text segment) =
      if AsksHelp segment then some helpOfHelp else none :=
  get?_map_text _ helpOfHelp segment

/-- From a help only helps can be asked for. -/
theorem isSome_walk?_help (help : (last.node helpOfHelp).children = helpChildren)
    (here : (last.node place).children = helpChildren) :
    (last.walk? place segments).isSome ↔ ∀ segment ∈ segments, AsksHelp segment := by
  induction segments generalizing place with
  | nil => exact iff_of_true rfl nofun
  | cons segment rest ih =>
    unfold walk?
    rw [here, get?_helpChildren, List.forall_mem_cons]
    by_cases asks : AsksHelp segment
    · simpa [asks] using ih help
    · simp [asks]

/-- What a command leads to whose sub-commands are known apart: to its help, and to each sub-command
under all that this is known under. -/
def Offers (last : Graph) (place : NodeId) (commands : Labelled Spec) (kids : Children) : Prop :=
  ∃ help, (last.node help).children = helpChildren ∧ ∀ segment child,
    (last.node place).children.get? (.text segment) = some child ↔
      AsksHelp segment ∧ child = help ∨
        ∃ command ∈ commands, .text segment ∈ Spec.known command ∧
          kids.get? command.1 = some child

/-- One step further: what resolves is found if that holds for what comes after the step. -/
theorem Offers.isSome_walk?_cons (offers : last.Offers place commands kids)
    (help : (last.node helpOfHelp).children = helpChildren)
    (each : ∀ command ∈ commands, ∃ child, kids.get? command.1 = some child ∧
      ((last.walk? child segments).isSome ↔ Spec.Resolves command.2.subcommands segments)) :
    (last.walk? place (segment :: segments)).isSome ↔
      Spec.Resolves commands (segment :: segments) := by
  obtain ⟨helper, helpHere, leads⟩ := offers
  constructor
  · intro found
    unfold walk? at found
    split at found
    · rename_i child step
      rcases (leads segment child).mp step with ⟨asks, rfl⟩ | ⟨command, member, here, kid⟩
      · have rest := (isSome_walk?_help help helpHere).mp found
        exact .asked (List.forall_mem_cons.mpr ⟨asks, rest⟩)
      · obtain ⟨other, same, iff⟩ := each command member
        obtain rfl := Option.some.inj (kid.symm.trans same)
        exact .declared member here (iff.mp found)
    · cases found
  · intro resolves
    cases resolves with
    | asked helps =>
      obtain ⟨asks, rest⟩ := List.forall_mem_cons.mp helps
      have step := (leads segment helper).mpr (.inl ⟨asks, rfl⟩)
      simpa [walk?, step] using (isSome_walk?_help help helpHere).mpr rest
    | @declared _ command _ _ member here below =>
      obtain ⟨child, kid, iff⟩ := each command member
      have step := (leads segment child).mpr (.inr ⟨command, member, here, kid⟩)
      simpa [walk?, step] using iff.mpr below

/-! ### All that is below a command -/

section Below

/- The graph that commands were prepared in, and what became of it when only its root changed. -/
variable (completion : Completion built later)
  (same : ∀ place, place ≠ root → last.node place = later.node place)

include completion same

/-- A prepared command whose sub-commands are declared apart. -/
theorem Completion.offers (made : Made built name spec low id) (outside : root < low)
    (inside : id < built.size) (prepared : (later.node id).prepared = true)
    (apart : Spec.AreApart spec.subcommands) :
    last.Offers id spec.subcommands (built.node id).children := by
  obtain ⟨help, title, new, node, leads⟩ :=
    completion.get?_children made inside prepared apart.areNamed
  have away : root < id := Nat.lt_of_lt_of_le outside made.low_le
  have helpAway : root < help := Nat.lt_trans away (Nat.lt_of_lt_of_le inside new)
  refine ⟨help, by rw [same help (Nat.ne_of_gt helpAway), node]; rfl, fun segment child => ?_⟩
  rw [same id (Nat.ne_of_gt away), leads]
  by_cases asks : AsksHelp segment
  · -- No sub-command is known under what asks for help.
    have missing : ∀ command ∈ spec.subcommands, .text segment ∉ Spec.known command := by
      intro command member here
      obtain ⟨text, same, other⟩ := apart.texts command member _ here
      exact other (Label.text.inj same ▸ asks)
    have nobody : spec.holder? segment = none := by
      apply Option.eq_none_iff_forall_ne_some.mpr
      intro holder held
      obtain ⟨sub, member, here⟩ := apart.holder?_eq_some_iff.mp held
      exact missing _ member here
    have leadsToHelp : (if segment ∈ helpAliases then some help
        else ((spec.holder? segment).bind fun holder => (built.node id).children.get? holder).or
          (if segment = helpName then some help else none)) = some help := by
      rcases List.mem_cons.mp asks with same | answered
      · rw [nobody, if_pos same]
        simp
      · simp [answered]
    rw [leadsToHelp]
    constructor
    · intro same
      exact .inl ⟨asks, (Option.some.inj same).symm⟩
    · rintro (⟨-, rfl⟩ | ⟨command, member, here, -⟩)
      · rfl
      · exact absurd here (missing command member)
  · obtain ⟨noName, noAlias⟩ := not_or.mp (mt List.mem_cons.mpr asks)
    simp only [noName, noAlias, if_false, Option.or_none, asks, false_and, false_or,
      Option.bind_eq_some_iff, apart.holder?_eq_some_iff]
    constructor
    · rintro ⟨holder, ⟨sub, member, here⟩, found⟩
      exact ⟨(holder, sub), member, here, found⟩
    · rintro ⟨⟨holder, sub⟩, member, here, found⟩
      exact ⟨holder, ⟨sub, member, here⟩, found⟩

omit same in
/-- The child that is made from a sub-command that stands apart, prepared like its parent. -/
theorem Completion.child (made : Made built name spec low id) (outside : root < low)
    (inside : id < built.size) (prepared : (later.node id).prepared = true)
    (apart : Spec.AreApart spec.subcommands) {command : Label × Spec}
    (member : command ∈ spec.subcommands) :
    ∃ start child, (built.node id).children.get? command.1 = some child ∧
      Made built command.1 command.2 start child ∧ root < start ∧ child < built.size ∧
      (later.node child).prepared = true := by
  obtain ⟨text, label, -⟩ := apart.areNamed.named command member
  have declared : spec.subcommands.get? (.text text) = some command.2 :=
    Labelled.get?_text_of_mem apart.areNamed.once (label ▸ member)
  obtain ⟨start, child, found, madeChild, around⟩ := made.child apart.areNamed declared
  obtain ⟨help, -, leads⟩ := completion.offers (fun _ _ => rfl) made outside inside prepared apart
  have step := (leads text child).mpr
    (.inr ⟨command, member, label ▸ List.mem_cons_self, by rw [label]; exact found⟩)
  refine ⟨start, child, by rw [label]; exact found, label ▸ madeChild, ?_, ?_, ?_⟩
  · exact Nat.lt_of_lt_of_le outside around.outside
  · exact Nat.lt_trans around.inside inside
  · exact completion.prepared_child made.fresh prepared step

variable (help : (last.node helpOfHelp).children = helpChildren)

include help

/-- Below a command whose sub-commands are declared apart at every level, just those segments lead
anywhere that resolve. -/
theorem Completion.isSome_walk?_iff (made : Made built name spec low id) (outside : root < low)
    (inside : id < built.size) (prepared : (later.node id).prepared = true)
    (tree : spec.IsTree Spec.AreApart) :
    (last.walk? id segments).isSome ↔ Spec.Resolves spec.subcommands segments := by
  induction segments generalizing name spec low id with
  | nil => exact iff_of_true rfl (.asked nofun)
  | cons segment rest ih =>
    have offers := completion.offers same made outside inside prepared tree.here
    apply offers.isSome_walk?_cons help
    intro command member
    obtain ⟨start, child, found, madeChild, further, within, preparedChild⟩ :=
      completion.child made outside inside prepared tree.here member
    exact ⟨child, found, ih madeChild further within preparedChild (tree.sub member)⟩

omit help in
/-- Segments that are known for the commands along a trail lead to what is made at its end. -/
theorem Completion.walk?_eq_of_follows (made : Made built name spec low id) (outside : root < low)
    (inside : id < built.size) (prepared : (later.node id).prepared = true)
    (tree : spec.IsTree Spec.AreApart) (follows : Spec.Follows spec.subcommands segments trail) :
    ∃ start command sub, last.walk? id segments = some command ∧
      built.walk? id trail = some command ∧ spec.at? trail = some sub ∧
      Made built (Spec.lastName name trail) sub start command := by
  induction segments generalizing name spec low id trail with
  | nil =>
    cases follows
    exact ⟨low, id, spec, rfl, rfl, rfl, made⟩
  | cons segment rest ih =>
    cases follows with
    | @cons _ first _ sub _ further member here below =>
      obtain ⟨start, child, found, madeChild, away, within, preparedChild⟩ :=
        completion.child made outside inside prepared tree.here member
      obtain ⟨helper, -, leads⟩ := completion.offers same made outside inside prepared tree.here
      have step := (leads segment child).mpr (.inr ⟨_, member, here, found⟩)
      obtain ⟨begin_, command, declaration, walked, built, declared, madeLast⟩ :=
        ih madeChild away within preparedChild (tree.sub member) below
      refine ⟨begin_, command, declaration, ?_, ?_, ?_, madeLast⟩
      · simpa [walk?, step] using walked
      · simpa [walk?, found] using built
      · have named := Labelled.get?_text_of_mem tree.here.areNamed.once member
        simpa [Spec.at?, named] using declared

end Below

/-! ### The root -/

/-- The children of the root that every bot starts with: its help. -/
theorem children_start :
    (start.node root).children = (helpName :: helpAliases).map fun name => (.text name, 2) := by
  decide +kernel

theorem children_help_start :
    (start.node helpOfHelp).children = helpChildren ∧ (start.node 2).children = helpChildren := by
  decide +kernel

theorem prepared_start {id : NodeId} (inside : id < 3) : (start.node id).prepared = true := by
  revert id
  decide +kernel

theorem size_start : start.size = 3 := by
  decide +kernel

/-- The root leads to its help and to the one command that was put under it. -/
theorem offers_root {g : Graph} {text : String}
    (children : (g.node root).children =
      Children.insertAll ((start.node root).children.insert (.text text) id) id spec.answers)
    (help : (g.node 2).children = helpChildren)
    (apart : Spec.AreApart [(.text text, spec)]) :
    g.Offers root [(.text text, spec)] [(.text text, id)] := by
  refine ⟨2, help, fun segment child => ?_⟩
  have leads : (g.node root).children.get? (.text segment) =
      if Label.text segment ∈ Spec.known (.text text, spec) then some id
      else if AsksHelp segment then some 2 else none := by
    rw [children, Children.get?_insertAll, Label.isAmong_text, Labelled.get?_insert,
      Label.same_comm, Label.same_text, children_start, get?_map_text]
    by_cases answered : .text segment ∈ spec.answers <;>
      by_cases named : text = segment <;>
      simp [Spec.known, answered, named, eq_comm]
  have single : (∃ command ∈ [(Label.text text, spec)], .text segment ∈ Spec.known command ∧
      Labelled.get? [(Label.text text, id)] command.1 = some child) ↔
        .text segment ∈ Spec.known (.text text, spec) ∧ id = child := by
    simp
  rw [leads, single]
  by_cases here : .text segment ∈ Spec.known (.text text, spec)
  · obtain ⟨known, same, other⟩ := apart.texts _ List.mem_cons_self _ here
    obtain rfl := Label.text.inj same
    simp [here, other]
  · simp [here, eq_comm]

/-- What putting a command under the root leads to: the command is prepared, and besides that only
the root changed, which now leads to the command. -/
theorem exists_of_link {text : String} (apart : Spec.AreApart [(.text text, spec)])
    (construction : BuiltFrom start built (.text text) spec id)
    (links : (link root (.text text) id).run built = (.ok ⟨⟩, last)) :
    ∃ later, Completion built later ∧ (later.node id).prepared = true ∧
      (∀ place, place ≠ root → last.node place = later.node place) ∧
      (last.node helpOfHelp).children = helpChildren ∧
      last.Offers root [(.text text, spec)] [(.text text, id)] := by
  have old {place : NodeId} (early : place < 3) : place < start.size := size_start ▸ early
  have inside := Nat.lt_of_lt_of_le (old (by decide : root < 3)) construction.extended.grown
  obtain ⟨later, prepares, rfl⟩ := run_link construction.sound inside construction.lt_size links
  obtain ⟨completion, prepared⟩ :=
    completion_of_prepare construction.sound construction.lt_size prepares
  have kept {place : NodeId} (early : place < 3) : later.node place = start.node place := by
    have same := construction.extended.same place (old early)
    exact (completion.kept place (by rw [same]; exact prepared_start early)).trans same
  have node (place : NodeId) := node_withChildren (Nat.lt_of_lt_of_le inside completion.grown)
    (fun children => Children.insertAll (children.insert (.text text) id) id (built.answers id))
    place
  have same (place : NodeId) (away : place ≠ root) := (node place).trans (if_neg (Ne.symm away))
  refine ⟨later, completion, prepared, same, ?_, offers_root ?_ ?_ apart⟩
  · rw [same helpOfHelp (by decide), kept (by decide)]
    exact children_help_start.1
  · rw [node root, if_pos rfl, construction.made.answers_eq construction.lt_size,
      kept (by decide)]
  · rw [same 2 (by decide), kept (by decide)]
    exact children_help_start.2

/-- Just those dotted names lead anywhere that resolve, and one that names a declared command leads
to what was built from that declaration, whichever names it uses. -/
theorem find?_linked {text path : String} (apart : Spec.AreApart [(.text text, spec)])
    (tree : spec.IsTree Spec.AreApart)
    (builds : (build (.text text) spec).run start = (.ok id, built))
    (links : (link root (.text text) id).run built = (.ok ⟨⟩, last)) (nonempty : path ≠ "") :
    ((last.find? root path).isSome ↔
        Spec.Resolves [(.text text, spec)] (Text.segments '.' path)) ∧
      ∀ trail, Spec.Follows [(.text text, spec)] (Text.segments '.' path) (text :: trail) →
        ∃ start command sub, last.find? root path = some command ∧
          built.walk? id trail = some command ∧ spec.at? trail = some sub ∧
          Made built (Spec.lastName (.text text) trail) sub start command := by
  have construction := builtFrom_of_run Registry.inOrder_start.sound tree builds
  obtain ⟨later, completion, prepared, same, help, offers⟩ :=
    exists_of_link apart construction links
  have away : root < start.size := by
    rw [size_start]
    decide
  obtain ⟨first, rest, split⟩ := Text.exists_segments '.' path
  unfold find?
  rw [if_neg nonempty, split]
  constructor
  · apply offers.isSome_walk?_cons help
    intro command member
    obtain rfl := List.mem_singleton.mp member
    exact ⟨id, by simp, completion.isSome_walk?_iff same help construction.made away
      construction.lt_size prepared tree⟩
  · intro trail follows
    cases follows with
    | @cons _ _ _ declared _ _ member here below =>
      obtain rfl := (Prod.mk.inj (List.mem_singleton.mp member)).2
      obtain ⟨helper, -, leads⟩ := offers
      have step := (leads first id).mpr (.inr ⟨_, member, here, by simp⟩)
      obtain ⟨begin_, command, sub, walked, wasBuilt, declared, made⟩ :=
        completion.walk?_eq_of_follows same construction.made away construction.lt_size prepared
          tree below
      refine ⟨begin_, command, sub, ?_, wasBuilt, declared, made⟩
      simpa [walk?, step] using walked

end Graph

namespace Spec

/-- A command with one sub-command, which has one as well; all but the last have a second name. -/
def nested : Spec :=
  .table [("alias", .text "x"), ("subs", .table [
    ("b", .table [("alias", .text "y"), ("subs", .table [("d", .table [])])])])]

theorem isTree_nested : nested.IsTree AreApart := by
  refine .command (areApart_of_texts ["b", "y"] rfl (by decide) (by decide)) ?_
  intro command member
  obtain rfl := List.mem_singleton.mp member
  refine .command (areApart_of_texts ["d"] rfl (by decide) (by decide)) ?_
  intro command member
  obtain rfl := List.mem_singleton.mp member
  exact .command (areApart_of_texts [] rfl (by decide) nofun) nofun

end Spec

namespace Graph

/-- The graph with `Spec.nested` built under the name `a`. -/
def nestedBuilt : Graph :=
  ((build (.text "a") Spec.nested).run start).2

/-- The same graph with `Spec.nested` put under the root. -/
def nestedLinked : Graph :=
  ((link root (.text "a") 5).run nestedBuilt).2

/-- A command two levels down is found under second names, and helps are found below it. -/
theorem find?_nested :
    nestedLinked.find? root "x.y.d" = nestedBuilt.walk? 5 ["b", "d"] ∧
      (nestedLinked.find? root "x.y.d.help.?").isSome := by
  have apart : Spec.AreApart [(.text "a", Spec.nested)] :=
    Spec.areApart_of_texts ["a", "x"] rfl (by decide) (by decide)
  have builds : (build (.text "a") Spec.nested).run start = (.ok 5, nestedBuilt) :=
    Work.run_eq_of_toOption (by decide +kernel)
  have links : (link root (.text "a") 5).run nestedBuilt = (.ok ⟨⟩, nestedLinked) :=
    Work.run_eq_of_toOption (by decide +kernel)
  constructor
  · have follows : Spec.Follows [(.text "a", Spec.nested)] (Text.segments '.' "x.y.d")
        ("a" :: ["b", "d"]) := by
      refine .cons List.mem_cons_self (by decide) ?_
      refine .cons List.mem_cons_self (by decide) ?_
      exact .cons List.mem_cons_self (by decide) .nil
    obtain ⟨start, command, sub, found, wasBuilt, -⟩ :=
      (find?_linked apart Spec.isTree_nested builds links (by decide)).2 _ follows
    exact found.trans wasBuilt.symm
  · have resolves : Spec.Resolves [(.text "a", Spec.nested)]
        (Text.segments '.' "x.y.d.help.?") := by
      refine .declared List.mem_cons_self (by decide) ?_
      refine .declared List.mem_cons_self (by decide) ?_
      refine .declared List.mem_cons_self (by decide) ?_
      exact .asked (by decide)
    exact (find?_linked apart Spec.isTree_nested builds links (by decide)).1.mpr resolves

end Graph
end Switchboard
