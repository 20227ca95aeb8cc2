import Switchboard.Proofs.StoreRun
import Switchboard.Proofs.Twin

/-!
States in the file. A state that is saved is read again, with the fields of its users in ascending
order; states that differ in the order of fields only are saved as one text.
-/
namespace Switchboard

open Json

/-- Twins are written as one text. -/
theorem Json.Twin.render_eq {a b : Document} (twin : Twin a b) : render a = render b := by
  rw [render, render, twin.same]

namespace Table

variable {α : Type}

theorem sorted_singleton (entry : String × α) : sorted [entry] = [entry] :=
  List.mergeSort_singleton entry

theorem sorted_pair {k l : String} (less : l < k) (a b : α) :
    sorted [(k, a), (l, b)] = [(l, b), (k, a)] := by
  simp [sorted, List.mergeSort, List.MergeSort.Internal.splitInTwo, less]

end Table

namespace State

/-- A state that can be saved and is understood when it is read. -/
structure IsSound (state : State) : Prop where
  current : isCurrentVersion state.version = true
  version : Spellable state.version
  users : Spellable state.users

/-- States of one version whose users differ in the order of fields only. -/
structure Alike (s t : State) : Prop where
  version : s.version = t.version
  users : Twin s.users t.users

variable {s t u : State}

theorem IsSound.alike (sound : s.IsSound) : s.Alike s :=
  ⟨rfl, .refl sound.users⟩

theorem Alike.symm (alike : s.Alike t) : t.Alike s :=
  ⟨alike.version.symm, alike.users.symm⟩

theorem Alike.trans (alike : s.Alike t) (next : t.Alike u) : s.Alike u :=
  ⟨alike.version.trans next.version, alike.users.trans next.users⟩

theorem IsSound.of_alike (sound : t.IsSound) (alike : s.Alike t) : s.IsSound where
  current := alike.version ▸ sound.current
  version := alike.version ▸ sound.version
  users := alike.users.left

theorem isSound_blank : IsSound {} where
  current := rfl
  version := .int (by decide +kernel)
  users := .noFields

theorem IsSound.document (sound : s.IsSound) : Spellable s.document := by
  have once : ["version", "users"].Nodup := by decide
  refine .table once ?_
  simp only [List.forall_mem_cons]
  exact ⟨sound.version, sound.users, nofun⟩

/-- States that are alike are saved as one text. -/
theorem Alike.render_eq (alike : s.Alike t) (sound : t.IsSound) : s.render = t.render := by
  refine Twin.render_eq ⟨(sound.of_alike alike).document, sound.document, ?_⟩
  rw [document, document, sortFields_table, sortFields_table, alike.version]
  simp only [List.map_cons, List.map_nil, alike.users.same]

/-- A state stays alike when the fields of its users are put in ascending order. -/
theorem IsSound.alike_sorted (sound : s.IsSound) :
    s.Alike { s with users := sortFields s.users } :=
  ⟨rfl, (Twin.sorted sound.users).symm⟩

theorem spellable_getD {fields : Table Document} (all : ∀ field ∈ fields, Spellable field.2)
    (key : String) {otherwise : Document} (spellable : Spellable otherwise) :
    Spellable ((fields.get? key).getD otherwise) := by
  cases found : fields.get? key with
  | none => exact spellable
  | some value => exact all (key, value) (Table.mem_of_get? found)

theorem isSound_of_ofDocument {d : Document} (spellable : Spellable d)
    (read : ofDocument d = .ok s) : s.IsSound := by
  cases spellable with
  | null | bool | int | real | text | list => cases read
  | @table fields once all =>
    unfold ofDocument at read
    dsimp only at read
    split at read
    · cases read
    rename_i current
    split at read
    · cases read
    obtain rfl := Except.ok.inj read
    exact {
      current := not_not.mp current, version := spellable_getD all "version" .null
      users := spellable_getD all "users" .noFields }

/-- Whatever is read is sound. -/
theorem isSound_of_ofContent {content : Content} (read : ofContent content = .ok s) :
    s.IsSound := by
  cases content with
  | undecodable | directory | barred => cases read
  | text text =>
    unfold ofContent at read
    dsimp only at read
    cases parsed : parse? text with
    | none =>
      rw [parsed] at read
      cases read
    | some d =>
      rw [parsed] at read
      exact isSound_of_ofDocument (spellable_of_parse? parsed) read

/-- What counts as the version has no fields. -/
theorem sortFields_of_isCurrentVersion {d : Document} (current : isCurrentVersion d = true) :
    sortFields d = d := by
  cases d with
  | int | bool | real => rfl
  | null | text | moment | list | table | mapping | live => cases current

/-- A state is read from its document. -/
theorem ofContent_write (sound : s.IsSound) :
    ofContent (.text (String.ofList (write 0 s.document))) = .ok s := by
  unfold ofContent
  dsimp only
  rw [parse?_write sound.document]
  simp [ofDocument, document, sound.current, Table.keys]

/-- A state that was saved is read, with the fields of its users in ascending order. -/
theorem ofContent_render (sound : s.IsSound) :
    ofContent (.text s.render) = .ok { s with users := sortFields s.users } := by
  have order : "users" < "version" := by decide
  have sorted : sortFields s.document =
      .table [("users", sortFields s.users), ("version", s.version)] := by
    rw [document, sortFields_table, List.map_cons, List.map_cons, List.map_nil,
      sortFields_of_isCurrentVersion sound.current, Table.sorted_pair order]
  unfold ofContent render
  dsimp only
  rw [parse?_render (spellable_sortFields sound.document), sorted]
  simp [ofDocument, sound.current, Table.keys]

end State

theorem StateFile.isSound_described (file : StateFile) : file.described.IsSound := by
  unfold described
  cases file.content with
  | none => exact State.isSound_blank
  | some content =>
    dsimp only
    cases read : State.ofContent content with
    | ok state => exact State.isSound_of_ofContent read
    | error event => exact State.isSound_blank

/-- A file that a state was saved to describes that state, with the fields of its users in ascending
order. -/
theorem StateFile.described_replace {s : State} (sound : s.IsSound) (file : StateFile) :
    (file.replace (.text s.render)).described = { s with users := sortFields s.users } := by
  simp only [StateFile.described, replace, State.ofContent_render sound]

theorem StateFile.alike_described_replace {s : State} (sound : s.IsSound) (file : StateFile) :
    s.Alike (file.replace (.text s.render)).described := by
  rw [described_replace sound]
  exact sound.alike_sorted

end Switchboard
