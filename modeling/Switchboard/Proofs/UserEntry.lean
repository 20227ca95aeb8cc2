import Mathlib.Data.List.Basic
import Switchboard.Proofs.Sheet
import Switchboard.Proofs.StoredLevel

/-!
The entries of users that a store has after operations of its own: under each key the document of a
sheet, and none where the sheet is blank.
-/
namespace Switchboard

namespace Table

/-- A table of texts as data. -/
def texts (t : Table String) : Table Document :=
  t.map fun (key, value) => (key, .text value)

theorem texts_insert (t : Table String) (key value : String) :
    texts (t.insert key value) = (texts t).insert key (.text value) := by
  induction t with
  | nil => rfl
  | cons entry rest ih =>
    obtain ⟨k, old⟩ := entry
    by_cases same : k = key
    · simp [insert, texts, same]
    · simpa [insert, texts, same] using ih

theorem texts_erase (t : Table String) (key : String) :
    texts (t.erase key) = (texts t).erase key := by
  simp only [texts, erase, List.filter_map]
  rfl

theorem get?_texts (t : Table String) (key : String) :
    get? (texts t) key = (get? t key).map .text := by
  induction t with
  | nil => rfl
  | cons entry rest ih =>
    obtain ⟨k, value⟩ := entry
    by_cases same : k = key
    · simp [texts, same]
    · simpa [texts, same] using ih

theorem display_texts (t : Table String) :
    ((texts t).map fun (key, value) => (key, value.display)) = t := by
  induction t with
  | nil => rfl
  | cons entry rest ih => exact congrArg (entry :: ·) ih

end Table

/-- The entry that a sheet is kept as. -/
def Sheet.document (sheet : Sheet) : Users.Entry :=
  [("env", .table (Table.texts sheet.environment)),
    ("perm", sheet.level.elim .null .int),
    ("aliases", .table (Table.texts sheet.aliases)),
    ("with", .list (sheet.scopes.map .text))]

/-- Nothing is kept of a blank sheet. -/
def Sheet.kept? (sheet : Sheet) : Option Document :=
  if sheet.IsBlank then none else some (.table sheet.document)

namespace Users

theorem isText_comp_text (scope : String) : isText scope ∘ Datum.text = (scope == ·) :=
  funext fun _ => BEq.comm

theorem any_isText (scopes : List String) (scope : String) :
    (scopes.map Datum.text).any (isText scope) = decide (scope ∈ scopes) := by
  rw [List.any_map, isText_comp_text, ← List.contains_eq_any_beq, List.contains_eq_mem]

theorem eraseP_isText (scopes : List String) (scope : String) :
    (scopes.map Datum.text).eraseP (isText scope) = (scopes.erase scope).map .text := by
  rw [List.eraseP_map, isText_comp_text, List.erase_eq_eraseP]

theorem isEmptyEntry_document (sheet : Sheet) :
    isEmptyEntry sheet.document = decide sheet.IsBlank := by
  obtain ⟨environment, level, aliases, scopes, -, -, -⟩ := sheet
  cases environment <;> cases level <;> cases aliases <;> cases scopes <;>
    simp [isEmptyEntry, Sheet.document, Sheet.IsBlank, Table.texts, Datum.truthy]

theorem document_of_isBlank {sheet : Sheet} (blank : sheet.IsBlank) :
    sheet.document = blankEntry := by
  obtain ⟨environment, level, aliases, scopes⟩ := blank
  simp [Sheet.document, environment, level, aliases, scopes, Table.texts, blankEntry]

/-- Entries that keep the sheets under all keys, each key once. -/
structure Represents (users : Entries) (sheets : Sheets) : Prop where
  once : (Table.keys users).Nodup
  entries : ∀ key, users.get? key = (sheets key).kept?

variable {users : Entries} {sheets : Sheets}

namespace Represents

theorem entryOf? (represents : Represents users sheets) (key : String) :
    entryOf? users key = if (sheets key).IsBlank then none else some (sheets key).document := by
  rw [Users.entryOf?, represents.entries, Sheet.kept?]
  by_cases blank : (sheets key).IsBlank <;> simp [blank]

theorem entryOrBlank (represents : Represents users sheets) (key : String) :
    entryOrBlank users key = (sheets key).document := by
  rw [Users.entryOrBlank, represents.entryOf?]
  by_cases blank : (sheets key).IsBlank
  · rw [if_pos blank, document_of_isBlank blank]
    rfl
  · rw [if_neg blank]
    rfl

theorem isEmptyEntry_of_mem (represents : Represents users sheets) {entry : String × Document}
    (member : entry ∈ users) :
    ∃ fields, entry.2 = .table fields ∧ isEmptyEntry fields = false := by
  have found := Table.get?_of_mem represents.once member
  rw [represents.entries, Sheet.kept?] at found
  split at found
  · cases found
  · rename_i filled
    refine ⟨(sheets entry.1).document, (Option.some.inj found).symm, ?_⟩
    rw [isEmptyEntry_document]
    exact decide_eq_false filled

/-! #### What is read -/

theorem variables? (represents : Represents users sheets) (key : String) :
    Users.variables? users key =
      if (sheets key).IsBlank then none else some (sheets key).environment := by
  rw [Users.variables?, represents.entryOf?]
  by_cases blank : (sheets key).IsBlank
  · rw [if_pos blank, if_pos blank]
    rfl
  · rw [if_neg blank, if_neg blank]
    exact congrArg some (Table.display_texts _)

theorem level? (represents : Represents users sheets) (key : String) :
    Users.level? users key = (sheets key).level := by
  rw [← levelIn_entryOrBlank, represents.entryOrBlank]
  cases level : (sheets key).level <;> simp [levelIn, Sheet.document, level]

theorem alias? (represents : Represents users sheets) (key name : String) :
    Users.alias? users key name = (sheets key).aliases.get? name := by
  rw [Users.alias?, represents.entryOf?]
  by_cases blank : (sheets key).IsBlank
  · rw [if_pos blank, blank.2.2.1]
    rfl
  · rw [if_neg blank]
    change ((Table.texts (sheets key).aliases).get? name).bind aliasTarget? = _
    rw [Table.get?_texts, Option.bind_map]
    cases found : (sheets key).aliases.get? name with
    | none => rfl
    | some command =>
      have filled := (sheets key).commandsFilled _ (Table.mem_of_get? found)
      exact if_neg filled

theorem aliases (represents : Represents users sheets) (key : String) :
    Users.aliases users key = (sheets key).aliases := by
  rw [Users.aliases, represents.entryOf?]
  by_cases blank : (sheets key).IsBlank
  · rw [if_pos blank, blank.2.2.1]
    rfl
  · rw [if_neg blank]
    change (Table.texts (sheets key).aliases).filterMap _ = _
    rw [Table.texts, List.filterMap_map]
    refine (List.filterMap_congr fun entry member => ?_).trans List.filterMap_some
    have filled := (sheets key).commandsFilled entry member
    simp [aliasTarget?, filled]

theorem scopes (represents : Represents users sheets) (key : String) :
    Users.scopes users key = (sheets key).scopes := by
  rw [Users.scopes, represents.entryOf?]
  by_cases blank : (sheets key).IsBlank
  · rw [if_pos blank, blank.2.2.2]
    rfl
  · rw [if_neg blank]
    change ((sheets key).scopes.map _).filterMap aliasTarget? = _
    rw [List.filterMap_map]
    refine (List.filterMap_congr fun scope member => ?_).trans List.filterMap_some
    have filled := (sheets key).scopesFilled scope member
    simp [aliasTarget?, filled]

/-! #### Changes under one key -/

/-- Entries that differ from others under one key keep the same sheets under all other keys. -/
theorem update (represents : Represents users sheets) {changed : Entries} {key : String}
    {sheet : Sheet} (once : (Table.keys changed).Nodup) (here : changed.get? key = sheet.kept?)
    (apart : ∀ other, key ≠ other → changed.get? other = users.get? other) :
    Represents changed (Function.update sheets key sheet) := by
  refine ⟨once, fun other => ?_⟩
  by_cases same : key = other
  · rw [← same, Function.update_self, here]
  · rw [Function.update_of_ne (Ne.symm same), apart other same, represents.entries]

theorem unchanged (represents : Represents users sheets) {key : String} {sheet : Sheet}
    (same : (sheets key).kept? = sheet.kept?) :
    Represents users (Function.update sheets key sheet) :=
  represents.update represents.once ((represents.entries key).trans same) fun _ _ => rfl

theorem insert (represents : Represents users sheets) (key : String) {sheet : Sheet}
    (filled : ¬ sheet.IsBlank) :
    Represents (users.insert key (.table sheet.document)) (Function.update sheets key sheet) := by
  refine represents.update (Table.nodup_keys_insert represents.once key _) ?_ fun other apart => ?_
  · rw [Table.get?_insert, if_pos rfl, Sheet.kept?, if_neg filled]
  · rw [Table.get?_insert, if_neg apart]

theorem setOrPrune (represents : Represents users sheets) (key : String) (sheet : Sheet) :
    Represents (setOrPrune users key sheet.document) (Function.update sheets key sheet) := by
  rw [Users.setOrPrune, isEmptyEntry_document]
  by_cases blank : sheet.IsBlank
  · rw [if_pos (decide_eq_true blank)]
    refine represents.update (Table.nodup_keys_erase represents.once key) ?_ fun other apart => ?_
    · rw [Table.get?_erase, if_pos rfl, Sheet.kept?, if_pos blank]
    · rw [Table.get?_erase, if_neg apart]
  · rw [if_neg (by simpa using blank)]
    exact represents.insert key blank

/-- Something is removed from an entry only if there is one. -/
theorem removed (represents : Represents users sheets) {key : String} {sheet : Sheet}
    (stays : (sheets key).IsBlank → sheet.IsBlank) {remove : Entry → Option Entries}
    (removes : remove (sheets key).document = some (Users.setOrPrune users key sheet.document)) :
    Represents (((Users.entryOf? users key).bind remove).getD users)
      (Function.update sheets key sheet) := by
  rw [represents.entryOf?]
  by_cases blank : (sheets key).IsBlank
  · rw [if_pos blank]
    refine represents.unchanged ?_
    rw [Sheet.kept?, if_pos blank, Sheet.kept?, if_pos (stays blank)]
  · rw [if_neg blank, Option.bind_some, removes]
    exact represents.setOrPrune key sheet

theorem setIn (represents : Represents users sheets) (field : String) {key name value : String}
    {inner : Table String} {sheet : Sheet}
    (held : tableAt? (sheets key).document field = some (Table.texts inner))
    (sets : (sheets key).document.insert field (.table (Table.texts (inner.insert name value))) =
      sheet.document)
    (filled : ¬ sheet.IsBlank) :
    Represents (Users.setIn users key field name value) (Function.update sheets key sheet) := by
  have set := represents.insert key filled
  rw [← sets, Table.texts_insert] at set
  rw [Users.setIn, represents.entryOrBlank, held]
  exact set

theorem removeIn (represents : Represents users sheets) (field : String) {key name : String}
    {inner : Table String} {sheet : Sheet}
    (held : tableAt? (sheets key).document field = some (Table.texts inner))
    (removes : (sheets key).document.insert field (.table (Table.texts (inner.erase name))) =
      sheet.document)
    (stays : (sheets key).IsBlank → sheet.IsBlank) :
    Represents ((removeIn? users key field name).getD users)
      (Function.update sheets key sheet) := by
  refine represents.removed stays ?_
  rw [held, Option.bind_eq_bind, Option.bind_some, ← Table.texts_erase, removes]
  rfl

theorem setVariable (represents : Represents users sheets) (key name : String)
    (value : Option String) :
    Represents ((Users.setVariable users key name value).getD users)
      (Function.update sheets key ((sheets key).setVariable name value)) := by
  cases value with
  | some value =>
    refine represents.setIn "env" rfl rfl fun blank => ?_
    exact Table.insert_ne_nil _ _ _ blank.1
  | none =>
    refine represents.removeIn "env" rfl rfl fun blank => ?_
    exact ⟨congrArg (Table.erase · name) blank.1, blank.2⟩

/-- A blank command makes no alias, it removes one. -/
theorem setAlias (represents : Represents users sheets) (key name : String)
    (command : Option String) :
    Represents ((Users.setAlias users key name (command.filter (· ≠ ""))).getD users)
      (Function.update sheets key
        (if filled : command.getD "" ≠ "" then (sheets key).setAlias name (command.getD "") filled
          else (sheets key).removeAlias name)) := by
  by_cases filled : command.getD "" ≠ ""
  · have kept : command.filter (· ≠ "") = some (command.getD "") := by
      cases command with
      | none => exact absurd rfl filled
      | some command => exact Option.filter_some_pos (decide_eq_true filled)
    rw [dif_pos filled, kept]
    refine represents.setIn "aliases" rfl rfl fun blank => ?_
    exact Table.insert_ne_nil _ _ _ blank.2.2.1
  · have dropped : command.filter (· ≠ "") = none := by
      cases command with
      | none => rfl
      | some command => exact Option.filter_some_neg (by simpa using filled)
    rw [dif_neg filled, dropped]
    refine represents.removeIn "aliases" rfl rfl fun blank => ?_
    exact ⟨blank.1, blank.2.1, congrArg (Table.erase · name) blank.2.2.1, blank.2.2.2⟩

theorem setLevel (represents : Represents users sheets) (key : String) (level : Option Int) :
    Represents ((Users.setLevel users key level).getD users)
      (Function.update sheets key { sheets key with level }) := by
  cases level with
  | some n =>
    have filled : ¬ ({ sheets key with level := some n } : Sheet).IsBlank :=
      fun blank => Option.some_ne_none n blank.2.1
    rw [Users.setLevel, represents.entryOrBlank]
    exact represents.insert key filled
  | none =>
    rw [Users.setLevel, Option.map_eq_bind]
    refine represents.removed (fun blank => ?_) ?_
    · exact ⟨blank.1, rfl, blank.2.2⟩
    · rfl

/-! #### Scopes -/

theorem addScope (represents : Represents users sheets) (key : String) {scope : String}
    (filled : scope ≠ "") (fresh : scope ∉ (sheets key).scopes) :
    ∃ changed, Users.addScope users key scope = some changed ∧
      Represents changed
        (Function.update sheets key ((sheets key).addScope scope filled fresh)) := by
  have kept : ¬ ((sheets key).addScope scope filled fresh).IsBlank :=
    fun blank => List.append_ne_nil_of_right_ne_nil _ (List.cons_ne_nil _ _) blank.2.2.2
  have added := represents.insert key kept
  rw [Sheet.document, Sheet.addScope, List.map_append] at added
  refine ⟨_, ?_, added⟩
  rw [Users.addScope, represents.entryOrBlank]
  exact if_neg (ne_true_of_eq_false ((any_isText _ scope).trans (decide_eq_false fresh)))

theorem addScope_of_mem (represents : Represents users sheets) {key scope : String}
    (known : scope ∈ (sheets key).scopes) : Users.addScope users key scope = none := by
  rw [Users.addScope, represents.entryOrBlank]
  exact if_pos ((any_isText _ scope).trans (decide_eq_true known))

theorem removeScope (represents : Represents users sheets) {key scope : String}
    (known : scope ∈ (sheets key).scopes) :
    ∃ changed, Users.removeScope users key scope = some changed ∧
      Represents changed (Function.update sheets key ((sheets key).removeScope scope)) := by
  have filled : ¬ (sheets key).IsBlank := fun blank => List.not_mem_nil (blank.2.2.2 ▸ known)
  have erased : ((sheets key).removeScope scope).document =
      (sheets key).document.insert "with"
        (.list (((sheets key).scopes.map .text).eraseP (isText scope))) := by
    rw [eraseP_isText]
    rfl
  have removed := represents.setOrPrune key ((sheets key).removeScope scope)
  rw [erased] at removed
  refine ⟨_, ?_, removed⟩
  rw [Users.removeScope, represents.entryOf?, if_neg filled]
  exact if_pos ((any_isText _ scope).trans (decide_eq_true known))

theorem removeScope_of_notMem (represents : Represents users sheets) {key scope : String}
    (unknown : scope ∉ (sheets key).scopes) : Users.removeScope users key scope = none := by
  rw [Users.removeScope, represents.entryOf?]
  by_cases blank : (sheets key).IsBlank
  · rw [if_pos blank]
    rfl
  · rw [if_neg blank]
    exact if_neg (ne_true_of_eq_false ((any_isText _ scope).trans (decide_eq_false unknown)))

end Represents

end Users

end Switchboard
