import Switchboard.Proofs.JsonReading
import Switchboard.Proofs.TableOrder

/-!
Documents that differ in the order of their fields only. Such documents are saved as one text, and
what is saved is read as such a document.
-/
namespace Switchboard

namespace Json

/-! ### Fields in ascending order -/

theorem sortFieldsOfItems_eq (items : List Document) :
    sortFieldsOfItems items = items.map sortFields := by
  induction items with
  | nil => rfl
  | cons item rest ih => rw [sortFieldsOfItems, ih, List.map_cons]

theorem sortFieldsOfValues_eq (fields : Table Document) :
    sortFieldsOfValues fields = fields.map fun field => (field.1, sortFields field.2) := by
  induction fields with
  | nil => rfl
  | cons field rest ih =>
    obtain ⟨key, value⟩ := field
    rw [sortFieldsOfValues, ih, List.map_cons]

theorem sortFields_list (items : List Document) :
    sortFields (.list items) = .list (items.map sortFields) := by
  rw [sortFields, sortFieldsOfItems_eq]

theorem sortFields_table (fields : Table Document) :
    sortFields (.table fields) =
      .table (Table.sorted (fields.map fun field => (field.1, sortFields field.2))) := by
  rw [sortFields, sortFieldsOfValues_eq]

theorem spellable_sortFields {d : Document} (spellable : Spellable d) :
    Spellable (sortFields d) := by
  induction spellable with
  | null => exact .null
  | bool b => exact .bool b
  | int writable => exact .int writable
  | real canonical => exact .real canonical
  | text s => exact .text s
  | list all ih =>
    rw [sortFields_list]
    refine .list fun item member => ?_
    obtain ⟨old, known, rfl⟩ := List.mem_map.mp member
    exact ih old known
  | @table fields once all ih =>
    rw [sortFields_table]
    refine .table (Table.nodup_keys_sorted (by rwa [Table.keys_map])) fun field member => ?_
    obtain ⟨old, known, rfl⟩ := List.mem_map.mp ((Table.sorted_perm _).subset member)
    exact ih old known

/-- Two tables are the same in ascending order if they give each key the same value. -/
theorem sortFields_table_eq_iff {t u : Table Document} (once : (Table.keys t).Nodup)
    (onceOther : (Table.keys u).Nodup) :
    sortFields (.table t) = sortFields (.table u) ↔
      ∀ key, (t.get? key).map sortFields = (u.get? key).map sortFields := by
  rw [sortFields_table, sortFields_table, Datum.table.injEq,
    Table.sorted_eq_iff (by rwa [Table.keys_map]) (by rwa [Table.keys_map])]
  simp only [Table.get?_map]

theorem sortFields_sortFields {d : Document} (spellable : Spellable d) :
    sortFields (sortFields d) = sortFields d := by
  induction spellable with
  | null | bool | int | real | text => rfl
  | list all ih =>
    rw [sortFields_list, sortFields_list, List.map_map]
    exact congrArg Datum.list (List.map_congr_left ih)
  | @table fields once all ih =>
    have onceSorted :
        (Table.keys (fields.map fun field => (field.1, sortFields field.2))).Nodup := by
      rwa [Table.keys_map]
    conv_lhs => rw [sortFields_table]
    rw [sortFields_table_eq_iff (Table.nodup_keys_sorted onceSorted) once]
    intro key
    rw [Table.get?_sorted onceSorted, Table.get?_map, Option.map_map]
    cases found : fields.get? key with
    | none => rfl
    | some value => exact congrArg some (ih (key, value) (Table.mem_of_get? found))

/-! ### Twins -/

/-- Documents that can be spelled and differ in the order of their fields only. -/
structure Twin (a b : Document) : Prop where
  left : Spellable a
  right : Spellable b
  same : sortFields a = sortFields b

namespace Twin

variable {a b c : Document}

theorem refl (spellable : Spellable a) : Twin a a :=
  ⟨spellable, spellable, rfl⟩

theorem symm (twin : Twin a b) : Twin b a :=
  ⟨twin.right, twin.left, twin.same.symm⟩

theorem trans (twin : Twin a b) (next : Twin b c) : Twin a c :=
  ⟨twin.left, next.right, twin.same.trans next.same⟩

theorem sorted (spellable : Spellable a) : Twin (sortFields a) a :=
  ⟨spellable_sortFields spellable, spellable, sortFields_sortFields spellable⟩

theorem forall₂_of_map_eq {items others : List Document} (all : ∀ item ∈ items, Spellable item)
    (allOthers : ∀ item ∈ others, Spellable item)
    (same : items.map sortFields = others.map sortFields) : List.Forall₂ Twin items others := by
  induction items generalizing others with
  | nil =>
    rw [List.map_eq_nil_iff.mp same.symm]
    exact .nil
  | cons item items ih =>
    obtain ⟨other, later, rfl, first, rest⟩ := List.map_eq_cons_iff.mp same.symm
    obtain ⟨spellable, allLater⟩ := List.forall_mem_cons.mp all
    obtain ⟨spellableOther, allOthersLater⟩ := List.forall_mem_cons.mp allOthers
    exact .cons ⟨spellable, spellableOther, first.symm⟩ (ih allLater allOthersLater rest.symm)

theorem list {items others : List Document} (twins : List.Forall₂ Twin items others) :
    Twin (.list items) (.list others) := by
  have both : (∀ item ∈ items, Spellable item) ∧ (∀ item ∈ others, Spellable item) ∧
      items.map sortFields = others.map sortFields := by
    induction twins with
    | nil => exact ⟨nofun, nofun, rfl⟩
    | cons twin _ ih =>
      obtain ⟨all, allOthers, same⟩ := ih
      exact ⟨List.forall_mem_cons.mpr ⟨twin.left, all⟩,
        List.forall_mem_cons.mpr ⟨twin.right, allOthers⟩, congrArg₂ List.cons twin.same same⟩
  obtain ⟨all, allOthers, same⟩ := both
  refine ⟨.list all, .list allOthers, ?_⟩
  rw [sortFields_list, sortFields_list, same]

/-- Lists are twins if their items are. -/
theorem list_iff {items others : List Document} :
    Twin (.list items) (.list others) ↔ List.Forall₂ Twin items others := by
  refine ⟨fun twin => ?_, list⟩
  obtain ⟨left, right, same⟩ := twin
  cases left with
  | list all =>
    cases right with
    | list allOthers =>
      rw [sortFields_list, sortFields_list] at same
      exact forall₂_of_map_eq all allOthers (Datum.list.inj same)

theorem table {fields others : Table Document} (twins : Table.Related Twin fields others) :
    Twin (.table fields) (.table others) := by
  refine ⟨.table twins.once fun field member => ?_, .table twins.onceOther fun field member => ?_,
    (sortFields_table_eq_iff twins.once twins.onceOther).mpr fun key => ?_⟩
  · obtain ⟨_, -, twin⟩ := twins.get?_left (Table.get?_of_mem twins.once member)
    exact twin.left
  · obtain ⟨_, -, twin⟩ := twins.get?_right (Table.get?_of_mem twins.onceOther member)
    exact twin.right
  · cases found : fields.get? key with
    | none => rw [twins.get?_none found]
    | some first =>
      obtain ⟨second, foundOther, twin⟩ := twins.get?_left found
      rw [foundOther]
      exact congrArg some twin.same

/-- Tables are twins if they give every key twins. -/
theorem table_iff {fields others : Table Document} :
    Twin (.table fields) (.table others) ↔ Table.Related Twin fields others := by
  refine ⟨fun twin => ?_, table⟩
  obtain ⟨left, right, same⟩ := twin
  cases left with
  | table once all =>
    cases right with
    | table onceOther allOthers =>
      rw [sortFields_table_eq_iff once onceOther] at same
      refine ⟨once, onceOther, fun key => ?_⟩
      have value := same key
      cases found : fields.get? key with
      | none =>
        rw [found, Option.map_none, eq_comm, Option.map_eq_none_iff] at value
        rw [value]
        exact .none
      | some first =>
        rw [found, Option.map_some, eq_comm, Option.map_eq_some_iff] at value
        obtain ⟨second, foundOther, same⟩ := value
        rw [foundOther]
        exact .some ⟨all _ (Table.mem_of_get? found), allOthers _ (Table.mem_of_get? foundOther),
          same.symm⟩

/-- Twins are equal, or both are lists, or both are tables. -/
theorem cases (twin : Twin a b) :
    a = b ∨ (∃ items others, a = .list items ∧ b = .list others) ∨
      ∃ fields others, a = .table fields ∧ b = .table others := by
  obtain ⟨left, right, same⟩ := twin
  cases left with
  | list =>
    cases right with
    | list => exact .inr (.inl ⟨_, _, rfl, rfl⟩)
    | null | bool | int | real | text | table => cases same
  | table =>
    cases right with
    | table => exact .inr (.inr ⟨_, _, rfl, rfl⟩)
    | null | bool | int | real | text | list => cases same
  | null | bool | int | real | text =>
    cases right with
    | null | bool | int | real | text => exact .inl same
    | list | table => cases same

end Twin

end Json
end Switchboard
