/-!
Tables from texts to values that remember the order in which their keys were first set.
-/
namespace Switchboard

universe u v

/-- Entries in the order of their keys' first appearance. Of two entries with one key the first
counts. -/
abbrev Table (α : Type u) := List (String × α)

namespace Table

variable {α : Type u} {β : Type v}

/-- The value of a key. -/
def get? : Table α → String → Option α
  | [], _ => none
  | (k, value) :: rest, key => if k = key then some value else get? rest key

def contains (t : Table α) (key : String) : Bool :=
  (get? t key).isSome

/-- The keys in order. -/
def keys (t : Table α) : List String :=
  t.map Prod.fst

/-- The values in the order of their keys. -/
def values (t : Table α) : List α :=
  t.map Prod.snd

/-- Sets a key: a key that is set keeps its place, a new one comes last. -/
def insert : Table α → String → α → Table α
  | [], key, value => [(key, value)]
  | (k, old) :: rest, key, value =>
    if k = key then (k, value) :: rest else (k, old) :: insert rest key value

def erase (t : Table α) (key : String) : Table α :=
  t.filter fun entry => entry.1 ≠ key

/-- The table that arises by setting the keys one after the other. -/
def ofList (entries : List (String × α)) : Table α :=
  entries.foldl (fun t entry => insert t entry.1 entry.2) []

/-- The entries in ascending order of their keys, code point by code point. -/
def sorted (t : Table α) : Table α :=
  List.mergeSort t fun a b => a.1 ≤ b.1

@[simp] theorem get?_nil (key : String) : get? ([] : Table α) key = none := rfl

@[simp] theorem get?_cons (k key : String) (value : α) (rest : Table α) :
    get? ((k, value) :: rest) key = if k = key then some value else get? rest key := rfl

theorem mem_of_get? {t : Table α} {key : String} {value : α} (found : t.get? key = some value) :
    (key, value) ∈ t := by
  induction t with
  | nil => cases found
  | cons entry rest ih =>
    obtain ⟨k, first⟩ := entry
    by_cases same : k = key
    · rw [get?_cons, if_pos same] at found
      obtain rfl := Option.some.inj found
      rw [same]
      exact List.mem_cons_self
    · rw [get?_cons, if_neg same] at found
      exact List.mem_cons_of_mem _ (ih found)

theorem get?_of_mem {t : Table α} (once : (keys t).Nodup) {key : String} {value : α}
    (member : (key, value) ∈ t) : get? t key = some value := by
  induction t with
  | nil => cases member
  | cons entry rest ih =>
    obtain ⟨k, first⟩ := entry
    obtain ⟨apart, onceLater⟩ := List.nodup_cons.mp once
    rcases List.mem_cons.mp member with here | later
    · obtain ⟨rfl, rfl⟩ := Prod.mk.inj here
      exact if_pos rfl
    · have other : k ≠ key := by
        rintro rfl
        exact apart (List.mem_map.mpr ⟨_, later, rfl⟩)
      rw [get?_cons, if_neg other]
      exact ih onceLater later

theorem insert_ne_nil (t : Table α) (key : String) (value : α) : t.insert key value ≠ [] := by
  cases t with
  | nil => exact List.cons_ne_nil _ _
  | cons entry rest =>
    rw [insert]
    split <;> exact List.cons_ne_nil _ _

theorem get?_insert (t : Table α) (key other : String) (value : α) :
    get? (insert t key value) other = if key = other then some value else get? t other := by
  induction t with
  | nil => rfl
  | cons entry rest ih =>
    obtain ⟨k, old⟩ := entry
    by_cases same : k = key
    · subst same
      by_cases here : k = other <;> simp [insert, here]
    · by_cases here : k = other
      · subst here
        simp [insert, same, Ne.symm same]
      · simp [insert, same, here, ih]

theorem mem_insert {t : Table α} {key : String} {value : α} {entry : String × α}
    (member : entry ∈ insert t key value) : entry = (key, value) ∨ entry ∈ t := by
  induction t with
  | nil => exact .inl (List.mem_singleton.mp member)
  | cons first rest ih =>
    obtain ⟨k, old⟩ := first
    by_cases same : k = key
    · subst same
      rw [insert, if_pos rfl] at member
      rcases List.mem_cons.mp member with new | later
      · exact .inl new
      · exact .inr (List.mem_cons_of_mem _ later)
    · rw [insert, if_neg same] at member
      rcases List.mem_cons.mp member with rfl | later
      · exact .inr List.mem_cons_self
      · rcases ih later with new | found
        · exact .inl new
        · exact .inr (List.mem_cons_of_mem _ found)

theorem get?_erase (t : Table α) (key other : String) :
    get? (erase t key) other = if key = other then none else get? t other := by
  induction t with
  | nil => simp [erase]
  | cons entry rest ih =>
    obtain ⟨k, old⟩ := entry
    unfold erase at ih ⊢
    by_cases same : k = key
    · subst same
      by_cases here : k = other <;> simp_all
    · by_cases here : k = other
      · subst here
        simp [same, Ne.symm same]
      · simpa [same, here] using ih

theorem keys_insert (t : Table α) (key : String) (value : α) :
    keys (insert t key value) = if key ∈ keys t then keys t else keys t ++ [key] := by
  induction t with
  | nil => rfl
  | cons entry rest ih =>
    obtain ⟨k, old⟩ := entry
    by_cases same : k = key
    · subst same
      simp [insert, keys]
    · unfold keys at ih
      by_cases later : key ∈ rest.map Prod.fst
      · simp [insert, keys, same, ih, later]
      · have other : key ≠ k := Ne.symm same
        simp [insert, keys, same, ih, later, other]

theorem nodup_keys_insert {t : Table α} (once : (keys t).Nodup) (key : String) (value : α) :
    (keys (t.insert key value)).Nodup := by
  rw [keys_insert]
  split
  · exact once
  · rename_i fresh
    refine List.nodup_append.mpr ⟨once, by simp, ?_⟩
    intro other old added new same
    rw [List.mem_singleton.mp new] at same
    exact fresh (same ▸ old)

theorem nodup_keys_erase {t : Table α} (once : (keys t).Nodup) (key : String) :
    (keys (t.erase key)).Nodup :=
  once.sublist (List.filter_sublist.map Prod.fst)

theorem ofList_concat (entries : List (String × α)) (key : String) (value : α) :
    ofList (entries ++ [(key, value)]) = insert (ofList entries) key value := by
  simp [ofList]

theorem insert_of_notMem {t : Table α} {key : String} (fresh : key ∉ keys t) (value : α) :
    insert t key value = t ++ [(key, value)] := by
  induction t with
  | nil => rfl
  | cons entry rest ih =>
    obtain ⟨k, old⟩ := entry
    obtain ⟨other, later⟩ := List.ne_and_not_mem_of_not_mem_cons fresh
    rw [insert, if_neg (Ne.symm other), ih later]
    rfl

/-- Setting keys that are all different gives just these entries. -/
theorem ofList_of_nodup {entries : List (String × α)} (once : (keys entries).Nodup) :
    ofList entries = entries := by
  rw [← List.reverse_reverse entries] at once ⊢
  generalize entries.reverse = latest at once ⊢
  induction latest with
  | nil => rfl
  | cons entry earlier ih =>
    obtain ⟨key, value⟩ := entry
    rw [List.reverse_cons, keys, List.map_append, List.nodup_append] at once
    obtain ⟨onceEarlier, -, apart⟩ := once
    have fresh : key ∉ keys earlier.reverse := fun known =>
      apart key known key (List.mem_singleton.mpr rfl) rfl
    rw [List.reverse_cons, ofList_concat, ih onceEarlier, insert_of_notMem fresh]

theorem nodup_keys_ofList (entries : List (String × α)) : (keys (ofList entries)).Nodup := by
  rw [← List.reverse_reverse entries]
  induction entries.reverse with
  | nil => exact List.nodup_nil
  | cons entry earlier ih =>
    rw [List.reverse_cons, ofList_concat]
    exact nodup_keys_insert ih entry.1 entry.2

theorem mem_of_mem_ofList {entries : List (String × α)} {entry : String × α}
    (member : entry ∈ ofList entries) : entry ∈ entries := by
  rw [← List.reverse_reverse entries] at member ⊢
  generalize entries.reverse = latest at member ⊢
  induction latest with
  | nil => exact member
  | cons last earlier ih =>
    rw [List.reverse_cons, ofList_concat] at member
    rw [List.reverse_cons, List.mem_append]
    rcases mem_insert member with rfl | old
    · exact .inr (List.mem_singleton.mpr rfl)
    · exact .inl (ih old)

/-- A key stands where it was set first. -/
theorem keys_ofList (entries : List (String × α)) :
    keys (ofList entries) = (entries.map Prod.fst).eraseDups := by
  rw [← List.reverse_reverse entries]
  induction entries.reverse with
  | nil => rfl
  | cons entry earlier ih =>
    obtain ⟨key, value⟩ := entry
    rw [List.reverse_cons, ofList_concat, keys_insert, ih, List.map_append, List.eraseDups_append]
    by_cases known : key ∈ earlier.reverse.map Prod.fst
    · have nothing : [key].removeAll (earlier.reverse.map Prod.fst) = [] :=
        List.filter_cons_of_neg (by simpa using known)
      rw [if_pos (List.mem_eraseDups.mpr known)]
      simp only [List.map_cons, List.map_nil, nothing, List.eraseDups_nil, List.append_nil]
    · have itself : [key].removeAll (earlier.reverse.map Prod.fst) = [key] :=
        List.filter_cons_of_pos (by simpa using known)
      rw [if_neg (known ∘ List.mem_eraseDups.mp)]
      simp only [List.map_cons, List.map_nil, itself]
      rfl

/-- A key has the value that it was set to last. -/
theorem get?_ofList (entries : List (String × α)) (key : String) :
    get? (ofList entries) key = get? entries.reverse key := by
  rw [← List.reverse_reverse entries]
  induction entries.reverse with
  | nil => rfl
  | cons entry earlier ih =>
    obtain ⟨k, value⟩ := entry
    rw [List.reverse_cons, ofList_concat, get?_insert, ih, List.reverse_append]
    rfl

end Table
end Switchboard
