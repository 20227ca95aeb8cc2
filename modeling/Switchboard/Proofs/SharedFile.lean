import Switchboard.Proofs.FailedSave
import Switchboard.Proofs.SyncedStore

/-!
Stores that share one file, which others replace and remove as well. The memories of all stores
mirror the file at all times, so all stores together act as one, save that a variable which holds a
table may be shown with its fields in another order.
-/
namespace Switchboard

open Work

/-! ### Turns -/

/-- Stores that share one file, each with a memory of its own. -/
structure SharedFile where
  file : StateFile
  memory : Nat → Memory := fun _ => {}

/-- What can happen to a shared file. -/
inductive Turn where
  /-- One of the stores is asked. -/
  | call (who : Nat) (request : Request)
  /-- Someone else puts another file in its place. -/
  | replace (content : Content)
  | remove

namespace Turn

/-- A turn that fails for no reason outside the stores: what is put in the place of the file is a
file, and what is saved can be written. -/
def IsOrderly : Turn → Prop
  | .call _ request => request.action.IsWritable
  | .replace content => content.IsFile
  | .remove => True

/-- The turn where there is one store only. -/
def alone : Turn → Turn
  | .call _ request => .call 0 request
  | .replace content => .replace content
  | .remove => .remove

end Turn

namespace SharedFile

/-- One of the stores, as it is between two operations. -/
def store (shared : SharedFile) (who : Nat) : Store :=
  { file := shared.file, memory := shared.memory who }

/-- One turn, with the result if a store was asked. -/
def step (shared : SharedFile) : Turn → Option (Except Failure Answer) × SharedFile
  | .call who request =>
    let ran := request.run.run (shared.store who)
    (some ran.1,
      { file := ran.2.file, memory := Function.update shared.memory who ran.2.memory })
  | .replace content => (none, { shared with file := shared.file.replace content })
  | .remove => (none, { shared with file := shared.file.remove })

/-- Turns one after the other, with the results of the stores that were asked. -/
def run (shared : SharedFile) : List Turn → List (Except Failure Answer) × SharedFile
  | [] => ([], shared)
  | turn :: rest =>
    let first := shared.step turn
    let later := run first.2 rest
    (first.1.toList ++ later.1, later.2)

/-- The stores after one of them was asked. -/
theorem store_call (shared : SharedFile) (who other : Nat) (request : Request) :
    (shared.step (.call who request)).2.store other =
      { file := (request.run.run (shared.store who)).2.file
        memory := Function.update shared.memory who
          (request.run.run (shared.store who)).2.memory other } := rfl

/-- A file that all memories mirror. -/
structure IsSynced (shared : SharedFile) : Prop where
  plain : shared.file.IsPlain
  mirrors : ∀ who, (shared.memory who).Mirrors shared.file

namespace IsSynced

variable {shared : SharedFile}

theorem new {file : StateFile} (plain : file.IsPlain) : IsSynced { file } where
  plain := plain
  mirrors _ := .new file

theorem store (synced : shared.IsSynced) (who : Nat) : (shared.store who).IsSynced where
  steady := rfl
  plain := synced.plain
  mirrors := synced.mirrors who

/-- What one store puts into the file is new to all others. -/
theorem call (synced : shared.IsSynced) (who : Nat) {request : Request}
    (writable : request.action.IsWritable) :
    (shared.step (.call who request)).2.IsSynced := by
  obtain ⟨-, -, caller⟩ := Store.run_alike (synced.store who) (synced.store who) rfl writable
  refine ⟨caller.plain, fun other => ?_⟩
  dsimp only [step]
  by_cases same : other = who
  · rw [same, Function.update_self]
    exact caller.mirrors
  · rw [Function.update_of_ne same]
    rcases Store.file_run request (shared.store who) with unchanged | ⟨text, written⟩
    · rw [unchanged]
      exact synced.mirrors other
    · rw [written]
      exact (synced.mirrors other).replace _

theorem step (synced : shared.IsSynced) {turn : Turn} (orderly : turn.IsOrderly) :
    (shared.step turn).2.IsSynced := by
  cases turn with
  | call who request => exact synced.call who orderly
  | replace content =>
    exact ⟨synced.plain.replace orderly, fun who => (synced.mirrors who).replace content⟩
  | remove => exact ⟨synced.plain.remove, fun who => (synced.mirrors who).remove⟩

theorem run (synced : shared.IsSynced) {turns : List Turn}
    (orderly : ∀ turn ∈ turns, turn.IsOrderly) : (shared.run turns).2.IsSynced := by
  induction turns generalizing shared with
  | nil => exact synced
  | cons turn rest ih =>
    obtain ⟨first, later⟩ := List.forall_mem_cons.mp orderly
    exact ih (synced.step first) later

end IsSynced

/-- One turn has results that are alike, and leaves one file, whichever stores share the file. -/
theorem step_alone {several single : SharedFile} (synced : several.IsSynced)
    (syncedSingle : single.IsSynced) (file : several.file = single.file) {turn : Turn}
    (orderly : turn.IsOrderly) :
    Option.Rel AlikeResults (several.step turn).1 (single.step turn.alone).1 ∧
      (several.step turn).2.file = (single.step turn.alone).2.file := by
  cases turn with
  | call who request =>
    obtain ⟨results, files, -⟩ :=
      Store.run_alike (synced.store who) (syncedSingle.store 0) file orderly
    exact ⟨.some results, files⟩
  | replace content => exact ⟨.none, congrArg (StateFile.replace · content) file⟩
  | remove => exact ⟨.none, congrArg StateFile.remove file⟩

theorem isOrderly_alone {turn : Turn} (orderly : turn.IsOrderly) : turn.alone.IsOrderly := by
  cases turn with
  | call | replace | remove => exact orderly

theorem forall₂_toList {α β : Type} {r : α → β → Prop} {a? : Option α} {b? : Option β}
    (related : Option.Rel r a? b?) : List.Forall₂ r a?.toList b?.toList := by
  cases related with
  | none => exact .nil
  | some holds => exact .cons holds .nil

theorem run_alone {several single : SharedFile} (synced : several.IsSynced)
    (syncedSingle : single.IsSynced) (file : several.file = single.file) {turns : List Turn}
    (orderly : ∀ turn ∈ turns, turn.IsOrderly) :
    List.Forall₂ AlikeResults (several.run turns).1 (single.run (turns.map Turn.alone)).1 ∧
      (several.run turns).2.file = (single.run (turns.map Turn.alone)).2.file := by
  induction turns generalizing several single with
  | nil => exact ⟨.nil, file⟩
  | cons turn rest ih =>
    obtain ⟨first, later⟩ := List.forall_mem_cons.mp orderly
    obtain ⟨result, next⟩ := step_alone synced syncedSingle file first
    obtain ⟨results, last⟩ :=
      ih (synced.step first) (syncedSingle.step (isOrderly_alone first)) next later
    exact ⟨List.rel_append (forall₂_toList result) results, last⟩

/-- Entries in which a variable holds a table with these fields. -/
def tableUsers (fields : Table Document) : Users.Entries :=
  [("1", .table [("env", .table [("A", .table fields)])])]

def tableState (fields : Table Document) : State :=
  { users := .table (tableUsers fields) }

/-- A file of this state, the fields in the order in which they stand. -/
def tableFile (fields : Table Document) : StateFile :=
  { content := some (.text (String.ofList (Json.write 0 (tableState fields).document)))
    stamp := 1
    clock := 1 }

/-- A change that saves the entries as they are. -/
def saveRequest : Request :=
  ⟨.number 1, .setVariable "B" none⟩

def variablesRequest : Request :=
  ⟨.number 1, .environment⟩

theorem isPlain_tableFile (fields : Table Document) : (tableFile fields).IsPlain where
  isFile content found := Option.some.inj found ▸ trivial
  given := Nat.le_refl 1
  roomy := by
    have roomy : StateFile.isDraftOverlong {} = false := by decide +kernel
    exact roomy

theorem described_tableFile {fields : Table Document} (sound : (tableState fields).IsSound) :
    (tableFile fields).described = tableState fields := by
  rw [StateFile.described]
  dsimp only [tableFile]
  rw [State.ofContent_write sound]

theorem state_reloaded_tableFile {fields : Table Document} (sound : (tableState fields).IsSound)
    (who : Nat) :
    (store { file := tableFile fields } who).reloaded.memory.state = tableState fields := by
  rw [store, Store.state_reloaded (Store.isBehind_new _)]
  exact described_tableFile sound

/-- What a store that saves the entries has in its file and in memory then. -/
theorem run_saveRequest {store : Store} (synced : store.IsSynced) {fields : Table Document}
    (held : store.reloaded.memory.state = tableState fields) :
    (saveRequest.run.run store).1 = .ok .done ∧
      (saveRequest.run.run store).2.file =
        store.file.replace (.text (tableState fields).render) ∧
      (saveRequest.run.run store).2.memory =
        { state := tableState fields, seen := some (store.file.clock + 1) } := by
  have found : store.found = .ok (tableUsers fields) := by
    rw [Store.found_eq synced.plain.obstacle?, held]
    rfl
  have edited : saveRequest.action.edit? (Users.key saveRequest.caller) (tableUsers fields) =
      some (tableUsers fields) := rfl
  have active : saveRequest.action.isIdle = false := by decide +kernel
  have saves : saveRequest.run.run store =
      (.ok .done, (store.reloaded.withUsers (tableUsers fields)).saved) := by
    rw [Request.run, Action.run_eq, active, if_neg Bool.false_ne_true, Store.attempted, found]
    dsimp only
    rw [Store.performed, edited]
    dsimp only
    rw [synced.hindrance?_withUsers]
    rfl
  obtain ⟨file, memory⟩ := Store.saved_withUsers_eq store (tableUsers fields)
  rw [held] at file memory
  rw [saves]
  exact ⟨rfl, file, memory⟩

/-- What the store that saved the table shows, and what another one does. -/
theorem run_tableFile {fields sorted : Table Document} (sound : (tableState fields).IsSound)
    (order : Json.sortFields (.table (tableUsers fields)) = .table (tableUsers sorted)) :
    let turns (who : Nat) : List Turn := [.call 0 saveRequest, .call who variablesRequest]
    (run { file := tableFile fields } (turns 0)).1 =
        [.ok .done, .ok (.environment (some [("A", Datum.display (.table fields))]))] ∧
      (run { file := tableFile fields } (turns 1)).1 =
        [.ok .done, .ok (.environment (some [("A", Datum.display (.table sorted))]))] := by
  intro turns
  have synced : IsSynced { file := tableFile fields } := .new (isPlain_tableFile fields)
  obtain ⟨first, file, memory⟩ :=
    run_saveRequest (synced.store 0) (state_reloaded_tableFile sound 0)
  have shown (who : Nat) {users : Users.Entries}
      (found : ((step { file := tableFile fields } (.call 0 saveRequest)).2.store who).found =
        .ok users) :
      (run { file := tableFile fields } (turns who)).1 =
        [.ok .done, .ok (.environment (Users.variables? users "1"))] := by
    have query : variablesRequest.action.isQuery = true := rfl
    have answer := (Store.run_of_isQuery query
      ((step { file := tableFile fields } (.call 0 saveRequest)).2.store who)).1
    rw [found] at answer
    exact congrArg₂ (fun a b => [a, b]) first answer
  have after (who : Nat) := store_call { file := tableFile fields } 0 who saveRequest
  rw [file, memory] at after
  have own : ((step { file := tableFile fields } (.call 0 saveRequest)).2.store 0).found =
      .ok (tableUsers fields) := by
    have current :
        ((step { file := tableFile fields } (.call 0 saveRequest)).2.store 0).IsCurrent := by
      rw [after, Function.update_self]
      rfl
    rw [Store.found_eq, Store.reloaded_of_isCurrent current, after, Function.update_self]
    · rfl
    · rw [after]
      rfl
  have others : ((step { file := tableFile fields } (.call 0 saveRequest)).2.store 1).found =
      .ok (tableUsers sorted) := by
    rw [after, Function.update_of_ne Nat.one_ne_zero, Store.found_eq rfl,
      Store.state_reloaded (Store.isBehind_new _), StateFile.described_replace sound]
    dsimp only [tableState]
    rw [order]
    rfl
  exact ⟨shown 0 own, shown 1 others⟩

/-- Fields that do not stand in ascending order. -/
def looseFields : Table Document :=
  [("b", .int 1), ("a", .int 2)]

theorem isSound_looseFields : (tableState looseFields).IsSound := by
  have fields : Json.Spellable (.table looseFields) := by
    refine .table (by decide) ?_
    simp only [looseFields, List.forall_mem_cons]
    exact ⟨.int (by decide +kernel), .int (by decide +kernel), nofun⟩
  have single {key : String} {d : Document} (spellable : Json.Spellable d) :
      Json.Spellable (.table [(key, d)]) :=
    .table (List.nodup_singleton key) fun field member => List.mem_singleton.mp member ▸ spellable
  exact { State.isSound_blank with users := single (single (single fields)) }

theorem sortFields_looseFields :
    Json.sortFields (.table (tableUsers looseFields)) =
      .table (tableUsers [("a", .int 2), ("b", .int 1)]) := by
  have order : "a" < "b" := by decide
  simp only [tableUsers, looseFields, Json.sortFields, Json.sortFieldsOfValues,
    Table.sorted_singleton, Table.sorted_pair order]

end SharedFile
end Switchboard
