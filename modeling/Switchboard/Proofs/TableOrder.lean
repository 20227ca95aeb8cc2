import Mathlib.Data.List.Forall2
import Mathlib.Data.List.Nodup
import Mathlib.Data.List.Perm.Basic
import Switchboard.Data.Table

/-!
Tables up to the order of their entries, and tables whose values are related key by key.
-/
namespace Switchboard.Table

variable {α β γ δ : Type}

theorem get?_map (t : Table α) (f : α → β) (key : String) :
    get? (t.map fun entry => (entry.1, f entry.2)) key = (get? t key).map f := by
  induction t with
  | nil => rfl
  | cons entry rest ih =>
    obtain ⟨k, value⟩ := entry
    by_cases same : k = key
    · simp [same]
    · simpa [same] using ih

theorem keys_map (t : Table α) (f : α → β) :
    keys (t.map fun entry => (entry.1, f entry.2)) = keys t := by
  rw [keys, List.map_map]
  rfl

theorem get?_first (entry : String × α) (rest : Table α) :
    get? (entry :: rest) entry.1 = some entry.2 :=
  if_pos rfl

theorem get?_eq_some_iff {t : Table α} (once : (keys t).Nodup) {key : String} {value : α} :
    get? t key = some value ↔ (key, value) ∈ t :=
  ⟨mem_of_get?, get?_of_mem once⟩

theorem get?_of_notMem {t : Table α} {key : String} (fresh : key ∉ keys t) : get? t key = none := by
  cases found : get? t key with
  | none => rfl
  | some value => exact absurd (List.mem_map.mpr ⟨_, mem_of_get? found, rfl⟩) fresh

theorem nodup_of_nodup_keys {t : Table α} (once : (keys t).Nodup) : t.Nodup :=
  List.Nodup.of_map Prod.fst once

/-! ### The entries that are kept -/

/-- The table of the values that something is made of. -/
def pick (f : α → Option β) (t : Table α) : Table β :=
  t.filterMap fun (key, value) => (f value).map fun made => (key, made)

theorem nodup_keys_pick {t : Table α} (once : (keys t).Nodup) (f : α → Option β) :
    (keys (pick f t)).Nodup := by
  rw [keys, List.Nodup, List.pairwise_map] at once ⊢
  refine once.filterMap _ fun entry other apart made kept last keptLast => ?_
  obtain ⟨_, -, rfl⟩ := Option.map_eq_some_iff.mp kept
  obtain ⟨_, -, rfl⟩ := Option.map_eq_some_iff.mp keptLast
  exact apart

theorem get?_pick {t : Table α} (once : (keys t).Nodup) (f : α → Option β) (key : String) :
    get? (pick f t) key = (get? t key).bind f := by
  induction t with
  | nil => rfl
  | cons entry rest ih =>
    obtain ⟨k, value⟩ := entry
    obtain ⟨fresh, onceLater⟩ := List.nodup_cons.mp once
    have later := ih onceLater
    unfold pick at later ⊢
    rw [List.filterMap_cons, get?_cons]
    dsimp only
    cases made : f value with
    | none =>
      rw [Option.map_none, later]
      by_cases same : k = key
      · rw [if_pos same, ← same, get?_of_notMem fresh, Option.bind_some, made]
        rfl
      · rw [if_neg same]
    | some first =>
      rw [Option.map_some, get?_cons, later]
      by_cases same : k = key
      · rw [if_pos same, if_pos same, Option.bind_some, made]
      · rw [if_neg same, if_neg same]

/-! ### Ascending order -/

/-- Tables that give every key the same value differ in the order of their entries only. -/
theorem perm_iff {t u : Table α} (once : (keys t).Nodup) (onceOther : (keys u).Nodup) :
    t.Perm u ↔ ∀ key, get? t key = get? u key := by
  rw [List.perm_ext_iff_of_nodup (nodup_of_nodup_keys once) (nodup_of_nodup_keys onceOther)]
  constructor
  · intro same key
    refine Option.ext fun value => ?_
    rw [get?_eq_some_iff once, get?_eq_some_iff onceOther, same]
  · rintro same ⟨key, value⟩
    rw [← get?_eq_some_iff once, ← get?_eq_some_iff onceOther, same]

theorem sorted_perm (t : Table α) : (sorted t).Perm t :=
  List.mergeSort_perm t _

theorem nodup_keys_sorted {t : Table α} (once : (keys t).Nodup) : (keys (sorted t)).Nodup :=
  ((sorted_perm t).map Prod.fst).nodup_iff.mpr once

theorem get?_sorted {t : Table α} (once : (keys t).Nodup) (key : String) :
    get? (sorted t) key = get? t key :=
  (perm_iff (nodup_keys_sorted once) once).mp (sorted_perm t) key

theorem pairwise_sorted (t : Table α) : (sorted t).Pairwise fun a b => a.1 ≤ b.1 := by
  have ordered : (sorted t).Pairwise fun a b => decide (a.1 ≤ b.1) = true := by
    refine List.pairwise_mergeSort (fun a b c first second => ?_) (fun a b => ?_) t
    · rw [decide_eq_true_eq] at *
      exact String.le_trans first second
    · rw [Bool.or_eq_true, decide_eq_true_eq, decide_eq_true_eq]
      exact String.le_total a.1 b.1
  exact ordered.imp of_decide_eq_true

/-- A table has one ascending order. -/
theorem sorted_eq_iff {t u : Table α} (once : (keys t).Nodup) (onceOther : (keys u).Nodup) :
    sorted t = sorted u ↔ ∀ key, get? t key = get? u key := by
  constructor
  · intro same key
    rw [← get?_sorted once, ← get?_sorted onceOther, same]
  · intro same
    have perm := (perm_iff once onceOther).mpr same
    have sortedPerm : (sorted t).Perm (sorted u) :=
      ((sorted_perm t).trans perm).trans (sorted_perm u).symm
    refine sortedPerm.eq_of_pairwise ?_ (pairwise_sorted t) (pairwise_sorted u)
    rintro ⟨key, value⟩ ⟨other, otherValue⟩ member memberOther first second
    obtain rfl := String.le_antisymm first second
    have found := get?_of_mem (nodup_keys_sorted onceOther) (sortedPerm.subset member)
    have foundOther := get?_of_mem (nodup_keys_sorted onceOther) memberOther
    rw [found] at foundOther
    rw [Option.some.inj foundOther]

/-! ### Values that are related -/

section Options

variable {r : α → β → Prop} {a? : Option α} {b? : Option β}

theorem rel_getD (related : Option.Rel r a? b?) {a : α} {b : β} (otherwise : r a b) :
    r (a?.getD a) (b?.getD b) := by
  cases related with
  | none => exact otherwise
  | some holds => exact holds

theorem rel_bind {s : γ → δ → Prop} {f : α → Option γ} {g : β → Option δ}
    (related : Option.Rel r a? b?) (keeps : ∀ a b, r a b → Option.Rel s (f a) (g b)) :
    Option.Rel s (a?.bind f) (b?.bind g) := by
  cases related with
  | none => exact .none
  | some holds => exact keeps _ _ holds

theorem rel_map {s : γ → δ → Prop} {f : α → γ} {g : β → δ} (related : Option.Rel r a? b?)
    (keeps : ∀ a b, r a b → s (f a) (g b)) : Option.Rel s (a?.map f) (b?.map g) := by
  cases related with
  | none => exact .none
  | some holds => exact .some (keeps _ _ holds)

theorem eq_of_rel {a? b? : Option α} (related : Option.Rel Eq a? b?) : a? = b? := by
  cases related with
  | none => rfl
  | some same => rw [same]

end Options

/-- Tables that have the same keys, each once, and related values. The entries may stand in
different orders. -/
structure Related (r : α → β → Prop) (t : Table α) (u : Table β) : Prop where
  once : (keys t).Nodup
  onceOther : (keys u).Nodup
  values : ∀ key, Option.Rel r (t.get? key) (u.get? key)

namespace Related

variable {r : α → β → Prop} {t : Table α} {u : Table β}

theorem get?_left (related : Related r t u) {key : String} {a : α} (found : t.get? key = some a) :
    ∃ b, u.get? key = some b ∧ r a b := by
  have pair := related.values key
  rw [found] at pair
  generalize u.get? key = other at pair
  cases pair with
  | some holds => exact ⟨_, rfl, holds⟩

theorem get?_right (related : Related r t u) {key : String} {b : β} (found : u.get? key = some b) :
    ∃ a, t.get? key = some a ∧ r a b := by
  have pair := related.values key
  rw [found] at pair
  generalize t.get? key = other at pair
  cases pair with
  | some holds => exact ⟨_, rfl, holds⟩

theorem get?_none (related : Related r t u) {key : String} (missing : t.get? key = none) :
    u.get? key = none := by
  have pair := related.values key
  rw [missing] at pair
  generalize u.get? key = other at pair
  cases pair with
  | none => rfl

theorem refl {r : α → α → Prop} {t : Table α} (once : (keys t).Nodup)
    (all : ∀ entry ∈ t, r entry.2 entry.2) : Related r t t where
  once := once
  onceOther := once
  values key := by
    cases found : t.get? key with
    | none => exact .none
    | some value => exact .some (all (key, value) (mem_of_get? found))

theorem insert (related : Related r t u) (key : String) {a : α} {b : β} (holds : r a b) :
    Related r (t.insert key a) (u.insert key b) where
  once := nodup_keys_insert related.once key a
  onceOther := nodup_keys_insert related.onceOther key b
  values other := by
    rw [get?_insert, get?_insert]
    split
    · exact .some holds
    · exact related.values other

theorem erase (related : Related r t u) (key : String) : Related r (t.erase key) (u.erase key) where
  once := nodup_keys_erase related.once key
  onceOther := nodup_keys_erase related.onceOther key
  values other := by
    rw [get?_erase, get?_erase]
    split
    · exact .none
    · exact related.values other

theorem map {s : γ → δ → Prop} {f : α → γ} {g : β → δ} (related : Related r t u)
    (keeps : ∀ a b, r a b → s (f a) (g b)) :
    Related s (t.map fun entry => (entry.1, f entry.2))
      (u.map fun entry => (entry.1, g entry.2)) where
  once := by
    rw [keys_map]
    exact related.once
  onceOther := by
    rw [keys_map]
    exact related.onceOther
  values key := by
    rw [get?_map, get?_map]
    exact rel_map (related.values key) keeps

/-- Tables of which the same is made have the same entries after that. -/
theorem pick {f : α → Option γ} {g : β → Option γ} (related : Related r t u)
    (same : ∀ a b, r a b → f a = g b) : Related Eq (Table.pick f t) (Table.pick g u) where
  once := nodup_keys_pick related.once f
  onceOther := nodup_keys_pick related.onceOther g
  values key := by
    rw [get?_pick related.once, get?_pick related.onceOther]
    refine rel_bind (related.values key) fun a b holds => ?_
    rw [same a b holds]
    cases g b with
    | none => exact .none
    | some made => exact .some rfl

/-- Tables that have the same entries differ in their order only. -/
theorem perm {t u : Table α} (related : Related Eq t u) : t.Perm u := by
  rw [perm_iff related.once related.onceOther]
  exact fun key => eq_of_rel (related.values key)

theorem isEmpty_eq (related : Related r t u) : t.isEmpty = u.isEmpty := by
  cases t with
  | nil =>
    cases u with
    | nil => rfl
    | cons entry rest =>
      obtain ⟨a, found, -⟩ := related.get?_right (get?_first entry rest)
      cases found
  | cons entry rest =>
    cases u with
    | nil =>
      obtain ⟨b, found, -⟩ := related.get?_left (get?_first entry rest)
      cases found
    | cons _ _ => rfl

end Related

end Switchboard.Table
