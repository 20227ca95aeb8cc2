import Switchboard.Proofs.StateText
import Switchboard.Proofs.TwinEntries

/-!
Stores whose memory mirrors their file. When such a store is asked, it has in memory what the file
describes, but for the order of fields. So two of them over one file give answers that are alike,
and leave the same file.
-/
namespace Switchboard

open Work

/-! ### Files and memories -/

/-- A file with bytes in it. -/
def Content.IsFile : Content → Prop
  | .text _ | .undecodable => True
  | .directory | .barred _ => False

/-- A path with a file or nothing at it, and room for a draft beside it. The time of the file came
from the clock. -/
structure StateFile.IsPlain (file : StateFile) : Prop where
  isFile : ∀ content ∈ file.content, content.IsFile
  given : file.stamp ≤ file.clock
  roomy : file.isDraftOverlong = false

namespace StateFile.IsPlain

variable {file : StateFile}

theorem obstacle? (plain : file.IsPlain) : file.obstacle? = none := by
  unfold StateFile.obstacle?
  split
  · rename_i obstacle found
    exact (plain.isFile _ found).elim
  · rfl

theorem content_ne (plain : file.IsPlain) : file.content ≠ some .directory := fun found =>
  (plain.isFile _ found).elim

theorem replace (plain : file.IsPlain) {content : Content} (isFile : content.IsFile) :
    (file.replace content).IsPlain where
  isFile _ found := Option.some.inj found ▸ isFile
  given := Nat.le_refl _
  roomy := plain.roomy

theorem remove (plain : file.IsPlain) : file.remove.IsPlain where
  isFile := nofun
  given := plain.given
  roomy := plain.roomy

end StateFile.IsPlain

/-- A memory that was never filled, or that knows the time at which it was. While the file has this
time, the memory holds what the file describes. -/
structure Memory.Mirrors (memory : Memory) (file : StateFile) : Prop where
  blank : memory.seen = none → memory.state = {}
  given : ∀ time ∈ memory.seen, time ≤ file.clock
  current : ∀ time ∈ file.time?, memory.seen = some time → memory.state.Alike file.described

namespace Memory.Mirrors

variable {memory : Memory} {file : StateFile}

theorem new (file : StateFile) : Memory.Mirrors {} file where
  blank _ := rfl
  given := nofun
  current := nofun

/-- A new file has a time that no memory knows. -/
theorem replace (mirrors : memory.Mirrors file) (content : Content) :
    memory.Mirrors (file.replace content) where
  blank := mirrors.blank
  given time seen := Nat.le_succ_of_le (mirrors.given time seen)
  current time now seen := by
    obtain rfl : file.clock + 1 = time := Option.some.inj now
    exact absurd (mirrors.given _ seen) (Nat.not_succ_le_self _)

theorem remove (mirrors : memory.Mirrors file) : memory.Mirrors file.remove where
  blank := mirrors.blank
  given := mirrors.given
  current := nofun

end Memory.Mirrors

/-- Results that are alike: answers that are, or one failure. -/
inductive AlikeResults : Except Failure Answer → Except Failure Answer → Prop
  | ok {a b : Answer} (alike : a.Alike b) : AlikeResults (.ok a) (.ok b)
  | error (failure : Failure) : AlikeResults (.error failure) (.error failure)

namespace Store

/-! ### One operation -/

/-- A store that can work, with a memory that mirrors its file. -/
structure IsSynced (store : Store) : Prop where
  steady : store.outage = none
  plain : store.file.IsPlain
  mirrors : store.memory.Mirrors store.file

variable {store one other : Store}

/-- A new store has its file still to read. -/
theorem isBehind_new (file : StateFile) : IsBehind { file } := by
  unfold IsBehind
  split
  · exact fun _ => rfl
  · exact nofun

namespace IsSynced

theorem new {file : StateFile} (plain : file.IsPlain) : IsSynced { file } where
  steady := rfl
  plain := plain
  mirrors := .new file

/-- A store that has looked at its file has in memory what the file describes. -/
theorem alike_reloaded (synced : store.IsSynced) :
    store.reloaded.memory.state.Alike store.file.described := by
  have loaded (behind : store.IsBehind) :
      store.reloaded.memory.state.Alike store.file.described := by
    rw [state_reloaded behind]
    exact store.file.isSound_described.alike
  unfold IsBehind at loaded
  cases content : store.file.content with
  | none =>
    rw [content] at loaded
    exact loaded synced.mirrors.blank
  | some found =>
    rw [content] at loaded
    by_cases seen : store.memory.seen = some store.file.stamp
    · have time : store.file.time? = some store.file.stamp := by
        rw [StateFile.time?, content, Option.map_some]
      have current : store.IsCurrent := seen.trans time.symm
      rw [reloaded_of_isCurrent current]
      exact synced.mirrors.current _ time seen
    · exact loaded seen

theorem sound_reloaded (synced : store.IsSynced) : store.reloaded.memory.state.IsSound :=
  store.file.isSound_described.of_alike synced.alike_reloaded

/-- Only where there is no file nothing is seen of one. -/
theorem blank_reloaded (synced : store.IsSynced) (unseen : store.reloaded.memory.seen = none) :
    store.reloaded.memory.state = {} := by
  have current := isCurrent_reloaded store
  rw [IsCurrent, unseen, file_reloaded, StateFile.time?, eq_comm, Option.map_eq_none_iff] at current
  unfold Store.reloaded
  rw [current]
  dsimp only
  split
  · rfl
  · rename_i blank
    exact synced.mirrors.blank (Option.not_isSome_iff_eq_none.mp blank)

theorem reloaded (synced : store.IsSynced) : store.reloaded.IsSynced where
  steady := (outage_reloaded store).trans synced.steady
  plain := by
    rw [file_reloaded]
    exact synced.plain
  mirrors := by
    have current := isCurrent_reloaded store
    rw [IsCurrent, file_reloaded, StateFile.time?] at current
    rw [file_reloaded]
    refine ⟨synced.blank_reloaded, fun time seen => ?_, fun _ _ _ => synced.alike_reloaded⟩
    rw [current] at seen
    obtain ⟨_, -, rfl⟩ := Option.map_eq_some_iff.mp seen
    exact synced.plain.given

theorem looked (synced : store.IsSynced) : store.looked.IsSynced := by
  unfold Store.looked
  split
  · exact synced
  · exact synced.reloaded

/-- A store that has saved its state mirrors the file that is there from then on. -/
theorem saved (steady : store.outage = none) (plain : store.file.IsPlain)
    (sound : store.memory.state.IsSound) : store.saved.IsSynced where
  steady := steady
  plain := plain.replace trivial
  mirrors := {
    blank := nofun
    given time known := by
      obtain rfl : store.file.clock + 1 = time := Option.some.inj known
      exact Nat.le_refl _
    current _ _ _ := StateFile.alike_described_replace sound store.file }

end IsSynced

/-- The entries in what a state has in the place of its users. -/
def entriesIn : Document → Except Failure Users.Entries
  | .table users => .ok users
  | other => .error (.noAttribute ("'" ++ other.typeName ++ "' object has no attribute 'get'"))

/-- What a store finds where there is no obstacle. -/
theorem found_eq (reachable : store.file.obstacle? = none) :
    store.found = entriesIn store.reloaded.memory.state.users := by
  unfold found entries
  rw [reachable]
  simp only [run_bind, run_get]
  cases store.reloaded.memory.state.users with
  | table users => rfl
  | _ => rfl

/-- Twins hold twins, or cannot be used for one reason. -/
theorem entriesIn_twins {a b : Document} (twin : Json.Twin a b) :
    (∃ users others, entriesIn a = .ok users ∧ entriesIn b = .ok others ∧
        Table.Related Json.Twin users others) ∨
      ∃ failure, entriesIn a = .error failure ∧ entriesIn b = .error failure := by
  rcases twin.cases with rfl | ⟨items, others, rfl, rfl⟩ | ⟨fields, others, rfl, rfl⟩
  · cases a with
    | table fields => exact .inl ⟨fields, fields, rfl, rfl, Json.Twin.table_iff.mp twin⟩
    | _ => exact .inr ⟨_, rfl, rfl⟩
  · exact .inr ⟨_, rfl, rfl⟩
  · exact .inl ⟨fields, others, rfl, rfl, Json.Twin.table_iff.mp twin⟩

/-- The change of a store that has looked at its file can be saved. -/
theorem IsSynced.hindrance?_withUsers (synced : store.IsSynced) (changed : Users.Entries) :
    (store.reloaded.withUsers changed).hindrance? = none :=
  hindrance?_eq_none.mpr ⟨synced.reloaded.steady, synced.reloaded.plain.roomy,
    synced.reloaded.plain.content_ne⟩

theorem IsSynced.saved_withUsers (synced : store.IsSynced) {changed : Users.Entries}
    (spellable : Json.Spellable (.table changed)) :
    (store.reloaded.withUsers changed).saved.IsSynced :=
  .saved synced.reloaded.steady synced.reloaded.plain
    { synced.sound_reloaded with users := spellable }

/-- What a store has in its file and in memory after a change. -/
theorem saved_withUsers_eq (store : Store) (users : Users.Entries) :
    let state : State := { store.reloaded.memory.state with users := .table users }
    (store.reloaded.withUsers users).saved.file = store.file.replace (.text state.render) ∧
      (store.reloaded.withUsers users).saved.memory =
        { state, seen := some (store.file.clock + 1) } := by
  dsimp only [Store.saved, withUsers]
  rw [file_reloaded]
  exact ⟨rfl, rfl⟩

/-- Two stores over one file that have found twins give answers that are alike, and leave one
file. -/
theorem performed_alike (synced : one.IsSynced) (syncedOther : other.IsSynced)
    (file : one.file = other.file)
    (alike : one.reloaded.memory.state.Alike other.reloaded.memory.state) {action : Action}
    (writable : action.IsWritable) (key : String) {users others : Users.Entries}
    (twins : Table.Related Json.Twin users others) :
    AlikeResults (one.performed action key users).1 (other.performed action key others).1 ∧
      (one.performed action key users).2.file = (other.performed action key others).2.file ∧
      (one.performed action key users).2.IsSynced := by
  rw [performed, performed]
  have answers := action.answer_alike twins key
  have edits := Action.edit?_twins writable twins key
  generalize action.edit? key users = edited at edits ⊢
  generalize action.edit? key others = otherEdited at edits ⊢
  cases edits with
  | none =>
    dsimp only
    rw [file_reloaded, file_reloaded]
    exact ⟨.ok answers, file, synced.reloaded⟩
  | @some changed otherChanged twinChanges =>
    have twin := Json.Twin.table twinChanges
    have changedAlike : State.Alike { one.reloaded.memory.state with users := .table changed }
        { other.reloaded.memory.state with users := .table otherChanged } :=
      ⟨alike.version, twin⟩
    have sound : State.IsSound
        { other.reloaded.memory.state with users := .table otherChanged } :=
      { syncedOther.sound_reloaded with users := twin.right }
    dsimp only
    rw [synced.hindrance?_withUsers, syncedOther.hindrance?_withUsers]
    refine ⟨.ok answers, ?_, synced.saved_withUsers twin.left⟩
    rw [(saved_withUsers_eq one changed).1, (saved_withUsers_eq other otherChanged).1, file,
      changedAlike.render_eq sound]

/-- Two stores over one file give answers that are alike, and leave one file. -/
theorem run_alike (synced : one.IsSynced) (syncedOther : other.IsSynced)
    (file : one.file = other.file) {request : Request} (writable : request.action.IsWritable) :
    AlikeResults (request.run.run one).1 (request.run.run other).1 ∧
      (request.run.run one).2.file = (request.run.run other).2.file ∧
      (request.run.run one).2.IsSynced := by
  rw [Request.run, Action.run_eq, Action.run_eq]
  by_cases idle : request.action.isIdle = true
  · rw [if_pos idle, if_pos idle]
    exact ⟨.ok (.same _), file, synced⟩
  rw [if_neg idle, if_neg idle, attempted, attempted]
  have alike : one.reloaded.memory.state.Alike other.reloaded.memory.state := by
    have described := syncedOther.alike_reloaded.symm
    rw [← file] at described
    exact synced.alike_reloaded.trans described
  rw [found_eq synced.plain.obstacle?, found_eq syncedOther.plain.obstacle?]
  obtain ⟨users, others, found, foundOther, twins⟩ | ⟨failure, found, foundOther⟩ :=
    entriesIn_twins alike.users
  · rw [found, foundOther]
    exact performed_alike synced syncedOther file alike writable _ twins
  · rw [found, foundOther]
    dsimp only
    rw [file_looked, file_looked]
    exact ⟨.error failure, file, synced.looked⟩

/-- An operation leaves the file as it is, or puts a text in its place. -/
theorem file_run (request : Request) (store : Store) :
    (request.run.run store).2.file = store.file ∨
      ∃ text, (request.run.run store).2.file = store.file.replace (.text text) := by
  rw [Request.run, Action.run_eq]
  split
  · exact .inl rfl
  rw [attempted]
  cases store.found with
  | error failure => exact .inl (file_looked store)
  | ok users =>
    dsimp only [performed]
    split
    · exact .inl (file_reloaded store)
    rename_i changed _
    split
    · exact .inl (file_reloaded store)
    · exact .inr ⟨_, (saved_withUsers_eq store changed).1⟩

end Store

end Switchboard
