import Switchboard.Command.Build
import Switchboard.Proofs.Preparation

/-!
What building does to the graph. New commands are added that nothing was done to yet, and commands
that were handed in without a name get one; apart from that all commands stay as they are.
-/
namespace Switchboard

namespace Datum

variable {ε : Type}

mutual

/-- The live values in data. -/
def lives : Datum ε → List ε
  | .live value => [value]
  | .list items => livesOfItems items
  | .table fields => livesOfFields fields
  | .mapping entries => livesOfEntries entries
  | _ => []

def livesOfItems : List (Datum ε) → List ε
  | [] => []
  | item :: rest => lives item ++ livesOfItems rest

/-- The live values in the values of a table. -/
def livesOfFields : List (String × Datum ε) → List ε
  | [] => []
  | (_, value) :: rest => lives value ++ livesOfFields rest

/-- The live values in the values under labels. -/
def livesOfEntries : List (Label × Datum ε) → List ε
  | [] => []
  | (_, value) :: rest => lives value ++ livesOfEntries rest

end

end Datum

namespace Graph

open Work

theorem lives_lastField? {fields : List (String × Spec)} {keys : List String} {value : Spec}
    (found : lastField? fields keys = some value) {live : Live} (member : live ∈ value.lives) :
    live ∈ Datum.livesOfFields fields := by
  induction fields with
  | nil => cases found
  | cons field rest ih =>
    obtain ⟨key, here⟩ := field
    rw [Datum.livesOfFields]
    unfold lastField? at found
    split at found
    · rename_i later inRest
      exact List.mem_append_right _ (ih (found ▸ inRest))
    · split at found
      · obtain rfl := Option.some.inj found
        exact List.mem_append_left _ member
      · cases found

/-- A graph that grew out of another one by building: commands that were there got a name at most,
and nothing was done yet to those that were added. -/
structure Adds (g later : Graph) : Prop where
  sound : later.Sound
  grown : g.size ≤ later.size
  old : ∀ id, id < g.size → ∃ name, later.node id = { g.node id with name }
  new : ∀ id, g.size ≤ id → (later.node id).prepared = false

variable {g later last : Graph}

namespace Adds

theorem refl (sound : g.Sound) : Adds g g where
  sound := sound
  grown := Nat.le_refl _
  old id _ := ⟨(g.node id).name, rfl⟩
  new id outside := by
    rw [node_of_size_le outside]

theorem trans (first : Adds g later) (second : Adds later last) : Adds g last where
  sound := second.sound
  grown := Nat.le_trans first.grown second.grown
  old id inside := by
    obtain ⟨name, same⟩ := first.old id inside
    obtain ⟨other, sameOn⟩ := second.old id (Nat.lt_of_lt_of_le inside first.grown)
    refine ⟨other, ?_⟩
    rw [sameOn, same]
  new id outside := by
    by_cases early : id < later.size
    · obtain ⟨name, same⟩ := second.old id early
      rw [same]
      exact first.new id outside
    · exact second.new id (Nat.le_of_not_lt early)

/-- Nothing that is added is prepared. -/
theorem prepared (adds : Adds g later) (id : NodeId) :
    (later.node id).prepared = (g.node id).prepared := by
  by_cases inside : id < g.size
  · obtain ⟨name, same⟩ := adds.old id inside
    rw [same]
  · have outside := Nat.le_of_not_lt inside
    rw [adds.new id outside, node_of_size_le outside]

theorem rename (sound : g.Sound) {id : NodeId} (inside : id < g.size) (name : Label) :
    Adds g (g.update id fun node => { node with name }) where
  sound := by
    refine ⟨?_, fun other entry member => ?_⟩
    · rw [prepared_update inside rfl]
      exact sound.helped
    · rw [node_update g id other _ inside] at member
      rw [size_update]
      split at member
      · exact sound.known other entry member
      · exact sound.known other entry member
  grown := Nat.le_of_eq (size_update g id _).symm
  old other _ := by
    rw [node_update g id other _ inside]
    split
    · exact ⟨name, rfl⟩
    · exact ⟨(g.node other).name, rfl⟩
  new other outside := by
    rw [prepared_update inside rfl, node_of_size_le outside]

theorem add (sound : g.Sound) {node : Node} (fresh : node.prepared = false)
    (known : ∀ entry ∈ node.children, entry.2 < g.size) : Adds g (g.add node).2 where
  sound := sound_add sound known
  grown := by
    rw [size_add]
    exact Nat.le_succ _
  old id early := ⟨(g.node id).name, node_add_of_lt early node⟩
  new id outside := by
    rw [node_add]
    split
    · exact fresh
    · rw [node_of_size_le outside]

end Adds

/-- Building that only adds, from any graph that something was added to already, whether or not it
fails, and that gives what is good in the end. -/
def Builds {α : Type} (g : Graph) (good : Graph → α → Prop) (work : GraphM α) : Prop :=
  ∀ start, Adds g start →
    Leads (· = start) (fun value later => Adds start later ∧ good later value) (Adds start ·) work

/-- Whether the commands exist that children lead to. -/
def Has (g : Graph) (children : Children) : Prop :=
  ∀ entry ∈ children, entry.2 < g.size

theorem Has.mono {children : Children} (has : g.Has children) (grown : g.size ≤ later.size) :
    later.Has children :=
  fun entry member => Nat.lt_of_lt_of_le (has entry member) grown

namespace Builds

theorem adds {α : Type} {good : Graph → α → Prop} {work : GraphM α} (builds : Builds g good work)
    (sound : g.Sound) : Adds g (work.run g).2 :=
  ((builds g (.refl sound)).weaken (fun _ same => same) (fun _ _ led => led.1)
    fun _ adds => adds).snd rfl

theorem nil : Builds g Has (pure []) := by
  intro start adds
  refine .pure ?_
  rintro later rfl
  exact ⟨.refl adds.sound, nofun⟩

/-- What was built first is still there when the others are. -/
theorem cons {work : GraphM NodeId} {next : GraphM Children}
    (first : Builds g (fun later id => id < later.size) work) (rest : Builds g Has next)
    (label : Label) :
    Builds g Has (do return (label, ← work) :: (← next)) := by
  intro start adds
  refine (first start adds).bind fun id => ?_
  rintro later ⟨added, inside⟩
  have others := (rest later (adds.trans added)).weaken (fun _ led => led) (fun _ _ led => led)
    fun last => added.trans
  refine others.bind (fun children => .pure fun last led => ?_) later rfl
  refine ⟨added.trans led.1, fun entry member => ?_⟩
  rcases List.mem_cons.mp member with rfl | old
  · exact Nat.lt_of_lt_of_le inside led.1.grown
  · exact led.2 entry old

/-- Reading a part of a declaration adds nothing. -/
theorem read {α β : Type} {good : Graph → β → Prop} {result : Except Failure α}
    {next : α → GraphM β} (rest : ∀ value, Builds g good (next value)) :
    Builds g good ((liftM result : GraphM α) >>= next) := by
  intro start adds
  refine Leads.via (fun _ => (· = start)) (.liftM (fun _ _ _ same => same) ?_)
    fun value => rest value start adds
  rintro later rfl
  exact .refl adds.sound

theorem fails {α : Type} {good : Graph → α → Prop} (failure : Failure) :
    Builds g good (throw failure : GraphM α) := by
  intro start adds
  refine .throw ?_
  rintro later rfl
  exact .refl adds.sound

theorem fail {α β : Type} {good : Graph → β → Prop} (failure : Failure) (next : α → GraphM β) :
    Builds g good ((throw failure : GraphM α) >>= next) := by
  intro start adds
  refine Leads.via (fun _ _ => False) (.throw ?_) fun value => ?_
  · rintro later rfl
    exact .refl adds.sound
  · exact fun later impossible => impossible.elim

/-- The children of a command are built before the command itself. -/
theorem add {work : GraphM Children} (children : Builds g Has work) {node : Children → Node}
    (fresh : ∀ children, (node children).prepared = false)
    (same : ∀ children, (node children).children = children) :
    Builds g (fun later id => id < later.size)
      (work >>= fun children => modifyGet fun g => g.add (node children)) := by
  intro start adds
  refine (children start adds).bind fun built => .modifyGet fun later led => ?_
  obtain ⟨added, has⟩ := led
  have more : Adds later (later.add (node built)).2 := .add added.sound (fresh built) (by
    rw [same]
    exact has)
  refine ⟨added.trans more, ?_⟩
  simp [Graph.add, size]

end Builds

mutual

theorem builds_build (g : Graph) (name : Label) (spec : Spec)
    (known : ∀ id, .node id ∈ spec.lives → id < g.size) :
    Builds g (fun later id => id < later.size) (build name spec) := by
  match spec, known with
  | .live (.node id), known =>
    rw [build]
    intro start adds
    have here := Nat.lt_of_lt_of_le (known id List.mem_cons_self) adds.grown
    refine .get_bind ?_
    rintro later rfl
    split
    · refine Leads.via (fun _ => (Adds later ·)) (.modify ?_) fun _ => ?_
      · rintro last rfl
        exact .rename adds.sound here name
      · exact .pure fun last added => ⟨added, Nat.lt_of_lt_of_le here added.grown⟩
    · refine .pure ?_
      rintro last rfl
      exact ⟨.refl adds.sound, here⟩
  | .table fields, known =>
    rw [build]
    dsimp only
    split
    · exact .fail _ _
    refine .read fun aliases => .read fun handler => .read fun permission => ?_
    refine .read fun parameters => ?_
    split
    · rename_i children found
      refine (builds_buildChildren g children fun id member => ?_).add (fun _ => rfl) fun _ => rfl
      exact known id (lives_lastField? found member)
    · rename_i children found
      refine (builds_buildLabelled g children fun id member => ?_).add (fun _ => rfl) fun _ => rfl
      exact known id (lives_lastField? found member)
    · split
      · exact .fail _ _
      · exact Builds.nil.add (fun _ => rfl) fun _ => rfl
    · exact Builds.nil.add (fun _ => rfl) fun _ => rfl
  | .mapping entries, _ =>
    rw [build]
    exact .fails _
  | .null, _ | .bool _, _ | .int _, _ | .real _, _ | .text _, _ | .moment _, _ | .list _, _
  | .live (.handler _), _ | .live (.rule _), _ | .live (.kind _), _ =>
    rw [build]
    · exact .fails _
    all_goals nofun
termination_by sizeOf spec
decreasing_by
  all_goals
    have := sizeOf_lastField? ‹_›
    simp_wf
    simp only [Datum.table.sizeOf_spec, Datum.mapping.sizeOf_spec] at this
    omega

theorem builds_buildChildren (g : Graph) (children : List (String × Spec))
    (known : ∀ id, .node id ∈ Datum.livesOfFields children → id < g.size) :
    Builds g Has (buildChildren children) := by
  match children, known with
  | [], known =>
    rw [buildChildren]
    exact .nil
  | (key, spec) :: rest, known =>
    rw [buildChildren]
    exact (builds_build g (.text key) spec fun id member =>
      known id (List.mem_append_left _ member)).cons
        (builds_buildChildren g rest fun id member => known id (List.mem_append_right _ member)) _
termination_by sizeOf children

theorem builds_buildLabelled (g : Graph) (children : List (Label × Spec))
    (known : ∀ id, .node id ∈ Datum.livesOfEntries children → id < g.size) :
    Builds g Has (buildLabelled children) := by
  match children, known with
  | [], known =>
    rw [buildLabelled]
    exact .nil
  | (label, spec) :: rest, known =>
    rw [buildLabelled]
    exact (builds_build g label spec fun id member =>
      known id (List.mem_append_left _ member)).cons
        (builds_buildLabelled g rest fun id member => known id (List.mem_append_right _ member)) _
termination_by sizeOf children

end

end Graph
end Switchboard
