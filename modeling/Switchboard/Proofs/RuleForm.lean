import Switchboard.Proofs.BindingOutcome
import Switchboard.Proofs.WholeNumber

/-!
The two notations of argument rules. A rule that makes sense can be declared as a short text, with
its flags in any order, or as a table, and all its declarations are read as the rule itself. What a
short text is read as always makes sense.
-/
namespace Switchboard.Rule

open Work

/-- A rule that makes sense. -/
structure IsSound (rule : Rule) : Prop where
  exclusive : ¬ (rule.namedOnly = true ∧ rule.positionalOnly = true)
  named : rule.kind.isContext = false → rule.name.truthy = true
  whole : rule.integer = true → rule.kind = .number

theorem checked_eq_ok_iff {rule made : Rule} :
    rule.checked = .ok made ↔ made = rule ∧ rule.IsSound := by
  unfold checked
  constructor
  · intro accepted
    split at accepted
    · cases accepted
    · rename_i exclusive
      split at accepted
      · cases accepted
      · rename_i named
        split at accepted
        · cases accepted
        · rename_i whole
          exact ⟨(Except.ok.inj accepted).symm, exclusive, by simpa using named,
            by simpa using whole⟩
  · rintro ⟨rfl, exclusive, named, whole⟩
    rw [if_neg exclusive, if_neg (by simpa using named), if_neg (by simpa using whole)]

/-! ### Flags -/

/-- What the short form of a rule tells by a flag. -/
inductive Flag where
  | optional
  | namedOnly
  | positionalOnly
  | integer
  | permission (n : Int)
deriving DecidableEq, Repr

namespace Flag

/-- The ways to write a flag. -/
def spellings : Flag → List String
  | .optional => ["opt", "optional"]
  | .namedOnly => ["named"]
  | .positionalOnly => ["positional"]
  | .integer => ["int", "integer"]
  | .permission n => ["perm=" ++ toString n]

/-- Words that write flags, one word for each. -/
abbrev Spell (words : List String) (flags : List Flag) : Prop :=
  List.Forall₂ (fun word flag => word ∈ flag.spellings) words flags

/-- Whether a rule has a flag. No permission needs no flag. -/
def IsOf (rule : Rule) : Flag → Prop
  | .optional => rule.optional = true
  | .namedOnly => rule.namedOnly = true
  | .positionalOnly => rule.positionalOnly = true
  | .integer => rule.integer = true
  | .permission n => n ≠ 0 ∧ rule.permission = n

/-- A rule with a flag set. -/
def set (rule : Rule) : Flag → Rule
  | .optional => { rule with optional := true }
  | .namedOnly => { rule with namedOnly := true }
  | .positionalOnly => { rule with positionalOnly := true }
  | .integer => { rule with integer := true }
  | .permission n => { rule with permission := n }

/-- The flags of a rule, each once. -/
def allOf (rule : Rule) : List Flag :=
  [Flag.optional].filter (fun _ => rule.optional) ++
    [Flag.namedOnly].filter (fun _ => rule.namedOnly) ++
    [Flag.positionalOnly].filter (fun _ => rule.positionalOnly) ++
    [Flag.integer].filter (fun _ => rule.integer) ++
    [Flag.permission rule.permission].filter (fun _ => rule.permission ≠ 0)

variable {rule target : Rule} {flag : Flag} {flags : List Flag} {word : String}
  {words : List String}

theorem mem_allOf : flag ∈ allOf rule ↔ flag.IsOf rule := by
  cases flag with
  | permission n =>
    simp only [allOf, IsOf, List.mem_append, List.mem_filter, List.mem_singleton, reduceCtorEq,
      false_and, false_or, permission.injEq, decide_eq_true_eq]
    constructor
    · rintro ⟨rfl, some⟩
      exact ⟨some, rfl⟩
    · rintro ⟨some, rfl⟩
      exact ⟨rfl, some⟩
  | _ => simp [allOf, IsOf]

theorem exists_spelling (flag : Flag) : ∃ word, word ∈ flag.spellings := by
  cases flag <;> exact ⟨_, List.mem_cons_self⟩

theorem cutText_permission (n : Int) :
    Text.cutText '=' ("perm=" ++ toString n) = ("perm", some (toString n)) :=
  Text.cutText_append (by decide : '=' ∉ "perm".toList) (toString n)

/-- Whatever way a flag is written in, it sets what it stands for. -/
theorem withFlag_of_mem (spelled : word ∈ flag.spellings)
    (writable : ∀ n, flag = .permission n → hasWritableDigits n = true) (text : String)
    (rule : Rule) : withFlag text rule word = .ok (flag.set rule) := by
  cases flag with
  | permission n =>
    obtain rfl := List.mem_singleton.mp spelled
    have read := wholeNumber?_toString (writable n rfl)
    simp only [withFlag, cutText_permission, read]
    rfl
  | optional =>
    rcases List.mem_cons.mp spelled with rfl | other
    · rfl
    · obtain rfl := List.mem_singleton.mp other
      rfl
  | namedOnly =>
    obtain rfl := List.mem_singleton.mp spelled
    rfl
  | positionalOnly =>
    obtain rfl := List.mem_singleton.mp spelled
    rfl
  | integer =>
    rcases List.mem_cons.mp spelled with rfl | other
    · rfl
    · obtain rfl := List.mem_singleton.mp other
      rfl

theorem colon_notMem_of_mem (spelled : word ∈ flag.spellings) : ':' ∉ word.toList := by
  cases flag with
  | permission n =>
    obtain rfl := List.mem_singleton.mp spelled
    rw [String.toList_append]
    intro colon
    rcases List.mem_append.mp colon with start | number
    · revert start
      decide
    · rcases mem_toString number with minus | digit
      · cases minus
      · cases digit
  | _ =>
    revert word
    decide

theorem Spell.colon_notMem (spelled : Spell words flags) : ∀ word ∈ words, ':' ∉ word.toList := by
  induction spelled with
  | nil => nofun
  | cons first _ ih =>
    intro word member
    rcases List.mem_cons.mp member with rfl | later
    · exact colon_notMem_of_mem first
    · exact ih word later

theorem name_set (flag : Flag) (rule : Rule) : (flag.set rule).name = rule.name := by
  cases flag <;> rfl

theorem isOf_kind (flag : Flag) (rule : Rule) (kind : Kind) :
    flag.IsOf { rule with kind } ↔ flag.IsOf rule := by
  cases flag <;> exact Iff.rfl

/-- A rule of which only its kind and its name are told has no flags. -/
theorem not_isOf_blank (flag : Flag) (kind : Kind) (name : Document) :
    ¬ flag.IsOf { kind, name } := by
  cases flag with
  | permission n =>
    rintro ⟨some, zero⟩
    exact some zero.symm
  | _ => nofun

/-- A flag of a rule that is set on a part of the rule adds itself to the flags that are there. -/
theorem isOf_set (ofTarget : flag.IsOf target) (within : ∀ other : Flag, other.IsOf rule →
    other.IsOf target) (other : Flag) :
    other.IsOf (flag.set rule) ↔ other = flag ∨ other.IsOf rule := by
  cases flag with
  | permission n =>
    cases other with
    | permission m =>
      -- A permission that is there already is the one of the whole rule, which is set.
      have already : m ≠ 0 ∧ rule.permission = m → n = m := fun held =>
        ofTarget.2.symm.trans (within (.permission m) held).2
      simp only [IsOf, set, permission.injEq]
      constructor
      · rintro ⟨-, same⟩
        exact .inl same.symm
      · rintro (rfl | held)
        · exact ⟨ofTarget.1, rfl⟩
        · exact ⟨held.1, already held⟩
    | _ => simp [IsOf, set]
  | _ => cases other <;> simp [IsOf, set]

end Flag

/-- A rule is determined by its kind, its name and its flags. -/
theorem eq_of_flags {rule other : Rule} (kind : rule.kind = other.kind)
    (name : rule.name = other.name) (flags : ∀ flag : Flag, flag.IsOf rule ↔ flag.IsOf other) :
    rule = other := by
  have optional : rule.optional = other.optional := Bool.eq_iff_iff.mpr (flags .optional)
  have namedOnly : rule.namedOnly = other.namedOnly := Bool.eq_iff_iff.mpr (flags .namedOnly)
  have positionalOnly : rule.positionalOnly = other.positionalOnly :=
    Bool.eq_iff_iff.mpr (flags .positionalOnly)
  have integer : rule.integer = other.integer := Bool.eq_iff_iff.mpr (flags .integer)
  have permission : rule.permission = other.permission := by
    by_cases none : rule.permission = 0
    · by_contra differ
      have some : other.permission ≠ 0 := fun zero => differ (none.trans zero.symm)
      exact differ ((flags (.permission other.permission)).mpr ⟨some, rfl⟩).2
    · exact ((flags (.permission rule.permission)).mp ⟨none, rfl⟩).2.symm
  cases rule
  cases other
  rw [Rule.mk.injEq]
  exact ⟨kind, name, optional, namedOnly, positionalOnly, integer, permission⟩

namespace Flag

variable {target : Rule} {flags : List Flag} {words : List String}

/-- Flags that are set one after the other, in whatever order and however often, add up. -/
theorem Spell.foldlM_withFlag (spelled : Spell words flags)
    (ofTarget : ∀ flag ∈ flags, flag.IsOf target)
    (writable : hasWritableDigits target.permission = true) (text : String) {rule : Rule}
    (within : ∀ flag : Flag, flag.IsOf rule → flag.IsOf target) :
    ∃ made, words.foldlM (withFlag text) rule = .ok made ∧ made.name = rule.name ∧
      ∀ flag : Flag, flag.IsOf made ↔ flag ∈ flags ∨ flag.IsOf rule := by
  induction spelled generalizing rule with
  | nil => exact ⟨rule, rfl, rfl, by simp⟩
  | @cons word flag words flags first _ ih =>
    have here : flag.IsOf target := ofTarget flag List.mem_cons_self
    have set := isOf_set here within
    have read : withFlag text rule word = .ok (flag.set rule) := by
      refine withFlag_of_mem first (fun n same => ?_) text rule
      subst same
      rw [← here.2]
      exact writable
    have still : ∀ other : Flag, other.IsOf (flag.set rule) → other.IsOf target := fun other held =>
      ((set other).mp held).elim (fun same => same ▸ here) (within other)
    obtain ⟨made, folded, name, has⟩ :=
      ih (fun other member => ofTarget other (List.mem_cons_of_mem flag member)) still
    refine ⟨made, ?_, name.trans (name_set flag rule), fun other => ?_⟩
    · rw [List.foldlM_cons, read]
      exact folded
    · rw [has, set, List.mem_cons, or_assoc]
      exact or_left_comm

end Flag

/-! ### Short forms -/

/-- A rule whose name can stand in a short form, or that has none. -/
def HasPlainName (rule : Rule) : Prop :=
  rule.name = .null ∨ ∃ name, rule.name = .text name ∧ name ≠ "" ∧ ':' ∉ name.toList

/-- What stands for the name of a rule in a short form. -/
def nameText (rule : Rule) : String :=
  match rule.name with
  | .text name => name
  | _ => ""

/-- The short forms of a rule: its kind alone, if there is nothing else to tell, or its name, its
kind and all of its flags, in any order, in any spelling and possibly more than once. -/
inductive IsShortForm (rule : Rule) : String → Prop
  | kind (unnamed : rule.name = .null) (plain : ∀ flag : Flag, ¬ flag.IsOf rule) :
      IsShortForm rule rule.kind.tag
  | parts {flags : List Flag} {words : List String} (all : ∀ flag, flag ∈ flags ↔ flag.IsOf rule)
      (spelled : Flag.Spell words flags) :
      IsShortForm rule (":".intercalate (rule.nameText :: rule.kind.tag :: words))

variable {rule made : Rule} {text : String}

theorem exists_isShortForm (rule : Rule) : ∃ text, rule.IsShortForm text := by
  choose word spelled using Flag.exists_spelling
  have each : Flag.Spell ((Flag.allOf rule).map word) (Flag.allOf rule) :=
    List.forall₂_map_left_iff.mpr (List.forall₂_same.mpr fun flag _ => spelled flag)
  exact ⟨_, .parts (fun _ => Flag.mem_allOf) each⟩

theorem colon_notMem_tag (kind : Kind) : ':' ∉ kind.tag.toList := by
  cases kind <;> decide

theorem HasPlainName.colon_notMem (plain : rule.HasPlainName) : ':' ∉ rule.nameText.toList := by
  obtain unnamed | ⟨name, named, -, absent⟩ := plain
  · rw [nameText, unnamed]
    decide
  · rw [nameText, named]
    exact absent

/-- The name of a rule can be told from what stands for it. -/
theorem HasPlainName.name_eq (plain : rule.HasPlainName) :
    (if rule.nameText = "" then .null else .text rule.nameText) = rule.name := by
  obtain unnamed | ⟨name, named, some, -⟩ := plain
  · rw [nameText, unnamed]
    rfl
  · rw [nameText, named]
    exact if_neg some

theorem declaredKind_tag (kind : Kind) : declaredKind (.text kind.tag) = .ok kind := by
  rw [declaredKind, Kind.ofTag?_tag]

theorem IsSound.checked (sound : rule.IsSound) : rule.checked = .ok rule :=
  checked_eq_ok_iff.mpr ⟨rfl, sound⟩

/-- A rule without a name is taken from the invocation, and its kind is told by a dollar sign. -/
theorem IsSound.head?_tag (sound : rule.IsSound) (unnamed : rule.name = .null) :
    rule.kind.tag.toList.head? = some '$' := by
  have context : rule.kind.isContext = true := by
    by_contra value
    have named := sound.named (Bool.eq_false_iff.mpr value)
    rw [unnamed] at named
    cases named
  revert context
  cases rule.kind <;> decide

theorem parseShort_tag (sound : rule.IsSound) (unnamed : rule.name = .null)
    (bare : ∀ flag : Flag, ¬ flag.IsOf rule) : parseShort rule.kind.tag = .ok rule := by
  have blank : rule = { kind := rule.kind } :=
    eq_of_flags rfl unnamed fun flag => iff_of_false (bare flag) (flag.not_isOf_blank _ _)
  have uncut : Text.segments ':' rule.kind.tag = [rule.kind.tag] := by
    rw [Text.segments, Text.stretches_of_notMem (colon_notMem_tag rule.kind), List.map_singleton,
      String.ofList_toList]
  unfold parseShort
  rw [uncut]
  dsimp only
  rw [if_pos (sound.head?_tag unnamed), declaredKind_tag, ok_bind, ← blank]
  exact sound.checked

theorem parseShort_parts (sound : rule.IsSound) (plain : rule.HasPlainName)
    (writable : hasWritableDigits rule.permission = true) {flags : List Flag} {words : List String}
    (all : ∀ flag, flag ∈ flags ↔ flag.IsOf rule)
    (spelled : Flag.Spell words flags) :
    parseShort (":".intercalate (rule.nameText :: rule.kind.tag :: words)) = .ok rule := by
  have absent : ∀ part ∈ rule.nameText :: rule.kind.tag :: words, ':' ∉ part.toList := by
    intro part member
    rcases List.mem_cons.mp member with rfl | member
    · exact plain.colon_notMem
    · rcases List.mem_cons.mp member with rfl | member
      · exact colon_notMem_tag rule.kind
      · exact spelled.colon_notMem part member
  have cut : Text.segments ':' (":".intercalate (rule.nameText :: rule.kind.tag :: words)) =
      rule.nameText :: rule.kind.tag :: words :=
    Text.segments_intercalate (List.cons_ne_nil _ _) absent
  have bare : ∀ flag : Flag, flag.IsOf { kind := .message, name := rule.name } → flag.IsOf rule :=
    fun flag held => absurd held (flag.not_isOf_blank _ _)
  obtain ⟨made, folded, name, has⟩ := spelled.foldlM_withFlag (fun flag => (all flag).mp) writable
    (":".intercalate (rule.nameText :: rule.kind.tag :: words)) bare
  have whole : { made with kind := rule.kind } = rule := by
    refine eq_of_flags rfl name fun flag => ?_
    rw [flag.isOf_kind, has, all]
    exact or_iff_left_of_imp (bare flag)
  unfold parseShort
  rw [cut]
  dsimp only
  rw [plain.name_eq, folded, ok_bind, declaredKind_tag, ok_bind, whole]
  exact sound.checked

/-- All short forms of a rule that makes sense are read as the rule. -/
theorem parseShort_of_isShortForm (sound : rule.IsSound) (plain : rule.HasPlainName)
    (writable : hasWritableDigits rule.permission = true) (short : rule.IsShortForm text) :
    parseShort text = .ok rule := by
  cases short with
  | kind unnamed bare => exact parseShort_tag sound unnamed bare
  | parts all spelled => exact parseShort_parts sound plain writable all spelled

/-- What a short text is read as makes sense, and its name is a text if it has one. -/
theorem isSound_of_parseShort (read : parseShort text = .ok made) :
    made.IsSound ∧ (made.name = .null ∨ ∃ name, name ≠ "" ∧ made.name = .text name) := by
  unfold parseShort at read
  split at read
  · rename_i name tag flags cut
    obtain ⟨flagged, given, read⟩ := eq_ok_of_bind read
    obtain ⟨kind, -, read⟩ := eq_ok_of_bind read
    obtain ⟨rfl, sound⟩ := checked_eq_ok_iff.mp read
    refine ⟨sound, ?_⟩
    have named : flagged.name = if name = "" then .null else .text name := name_withFlags given
    change flagged.name = .null ∨ ∃ name, name ≠ "" ∧ flagged.name = .text name
    rw [named]
    split
    · exact .inl rfl
    · rename_i some
      exact .inr ⟨name, some, rfl⟩
  · split at read
    · obtain ⟨kind, -, read⟩ := eq_ok_of_bind read
      obtain ⟨rfl, sound⟩ := checked_eq_ok_iff.mp read
      exact ⟨sound, .inl rfl⟩
    · cases read

/-! ### Long forms -/

/-- What the long form of a rule may tell under a key. Whether a value may be passed by name is told
under `named`; null tells nothing there. -/
def Tells (rule : Rule) (key : String) (value : Spec) : Prop :=
  match key with
  | "type" | "ty" => value = .text rule.kind.tag ∨ value = .live (.kind rule.kind)
  | "name" =>
    value = .null ∧ rule.name = .null ∨ ∃ name, value = .text name ∧ rule.name = .text name
  | "optional" | "opt" => value = .bool rule.optional
  | "integer" | "int" => value = .bool rule.integer
  | "positional" => value = .bool rule.positionalOnly
  | "named" =>
    value = .null ∨ value = .bool true ∧ rule.namedOnly = true ∨
      value = .bool false ∧ rule.positionalOnly = true
  | "perm" => value = .int rule.permission
  | _ => False

/-- The long forms of a rule: tables that tell nothing but what the rule is, and that leave out
nothing but what is so by default. -/
structure IsLongForm (rule : Rule) (fields : Table Spec) : Prop where
  once : fields.keys.Nodup
  tells : ∀ entry ∈ fields, rule.Tells entry.1 entry.2
  kind : "type" ∈ fields.keys ∨ "ty" ∈ fields.keys
  name : rule.name ≠ .null → "name" ∈ fields.keys
  optional : rule.optional = true → "optional" ∈ fields.keys ∨ "opt" ∈ fields.keys
  namedOnly : rule.namedOnly = true → ("named", .bool true) ∈ fields
  positionalOnly : rule.positionalOnly = true →
    "positional" ∈ fields.keys ∨ ("named", .bool false) ∈ fields
  integer : rule.integer = true → "integer" ∈ fields.keys ∨ "int" ∈ fields.keys
  permission : rule.permission ≠ 0 → "perm" ∈ fields.keys

theorem firstOf_cases (fields : Table Spec) (keys : List String) :
    (∃ key ∈ keys, fields.get? key = some (firstOf fields keys)) ∨
      firstOf fields keys = .null ∧ ∀ key ∈ keys, fields.get? key = none := by
  unfold firstOf
  cases found : (keys.filterMap fun key => fields.get? key).head? with
  | some value =>
    obtain ⟨key, member, given⟩ := List.mem_filterMap.mp (List.mem_of_mem_head? found)
    exact .inl ⟨key, member, given⟩
  | none =>
    rw [List.head?_eq_none_iff, List.filterMap_eq_nil_iff] at found
    exact .inr ⟨rfl, found⟩

namespace IsLongForm

variable {fields : Table Spec}

theorem tells_of_get? (long : rule.IsLongForm fields) {key : String} {value : Spec}
    (given : fields.get? key = some value) : rule.Tells key value :=
  long.tells (key, value) (Table.mem_of_get? given)

theorem get?_of_mem_keys (long : rule.IsLongForm fields) {key : String}
    (member : key ∈ fields.keys) : ∃ value, fields.get? key = some value := by
  obtain ⟨⟨_, value⟩, there, rfl⟩ := List.mem_map.mp member
  exact ⟨value, Table.get?_of_mem long.once there⟩

theorem notMem_keys (long : rule.IsLongForm fields) {key : String}
    (missing : fields.get? key = none) : key ∉ fields.keys := by
  intro member
  obtain ⟨value, given⟩ := long.get?_of_mem_keys member
  rw [missing] at given
  cases given

theorem keys_known (long : rule.IsLongForm fields) :
    fields.keys.filter (· ∉ tableKeys) = [] := by
  refine List.filter_eq_nil_iff.mpr fun key member => ?_
  obtain ⟨value, given⟩ := long.get?_of_mem_keys member
  have told := long.tells_of_get? given
  unfold Tells at told
  split at told <;> first | decide | cases told

/-- What is told about a property is true if the rule has the property and it is told at all. -/
theorem truthy_firstOf (long : rule.IsLongForm fields) {keys : List String} {property : Bool}
    (about : ∀ key ∈ keys, ∀ value, rule.Tells key value → value = .bool property) :
    (firstOf fields keys).truthy = true ↔
      property = true ∧ ∃ key ∈ keys, key ∈ fields.keys := by
  obtain ⟨key, member, given⟩ | ⟨null, missing⟩ := firstOf_cases fields keys
  · have told := about key member _ (long.tells_of_get? given)
    have there : key ∈ fields.keys := List.mem_map.mpr ⟨_, Table.mem_of_get? given, rfl⟩
    rw [told]
    exact (and_iff_left ⟨key, member, there⟩).symm
  · rw [null]
    refine iff_of_false Bool.false_ne_true ?_
    rintro ⟨-, key, member, there⟩
    exact long.notMem_keys (missing key member) there

theorem optional_eq (long : rule.IsLongForm fields) :
    (firstOf fields ["optional", "opt"]).truthy = rule.optional := by
  have about : ∀ key ∈ ["optional", "opt"], ∀ value, rule.Tells key value →
      value = .bool rule.optional :=
    List.forall_mem_cons.mpr ⟨fun _ told => told, List.forall_mem_singleton.mpr fun _ told => told⟩
  refine Bool.eq_iff_iff.mpr ((long.truthy_firstOf about).trans (and_iff_left_of_imp ?_))
  simpa using long.optional

theorem integer_eq (long : rule.IsLongForm fields) :
    (firstOf fields ["integer", "int"]).truthy = rule.integer := by
  have about : ∀ key ∈ ["integer", "int"], ∀ value, rule.Tells key value →
      value = .bool rule.integer :=
    List.forall_mem_cons.mpr ⟨fun _ told => told, List.forall_mem_singleton.mpr fun _ told => told⟩
  refine Bool.eq_iff_iff.mpr ((long.truthy_firstOf about).trans (and_iff_left_of_imp ?_))
  simpa using long.integer

theorem positional_iff (long : rule.IsLongForm fields) :
    (firstOf fields ["positional"]).truthy = true ↔
      rule.positionalOnly = true ∧ "positional" ∈ fields.keys := by
  have about : ∀ key ∈ ["positional"], ∀ value, rule.Tells key value →
      value = .bool rule.positionalOnly :=
    List.forall_mem_singleton.mpr fun _ told => told
  simpa using long.truthy_firstOf about

theorem kind_cases (long : rule.IsLongForm fields) :
    firstOf fields ["type", "ty"] = .text rule.kind.tag ∨
      firstOf fields ["type", "ty"] = .live (.kind rule.kind) := by
  have about : ∀ key ∈ ["type", "ty"], ∀ value, rule.Tells key value →
      value = .text rule.kind.tag ∨ value = .live (.kind rule.kind) :=
    List.forall_mem_cons.mpr ⟨fun _ told => told, List.forall_mem_singleton.mpr fun _ told => told⟩
  obtain ⟨key, member, given⟩ | ⟨-, missing⟩ := firstOf_cases fields ["type", "ty"]
  · exact about key member _ (long.tells_of_get? given)
  · have untyped := long.notMem_keys (missing "type" (by decide))
    have untagged := long.notMem_keys (missing "ty" (by decide))
    exact absurd long.kind (not_or.mpr ⟨untyped, untagged⟩)

theorem name_eq (long : rule.IsLongForm fields) :
    (firstOf fields ["name"]).document = rule.name := by
  obtain ⟨key, member, given⟩ | ⟨null, missing⟩ := firstOf_cases fields ["name"]
  · obtain rfl := List.mem_singleton.mp member
    obtain ⟨same, unnamed⟩ | ⟨name, same, named⟩ := long.tells_of_get? given
    · rw [same, unnamed]
      rfl
    · rw [same, named]
      rfl
  · rw [null]
    by_contra named
    exact long.notMem_keys (missing "name" (by decide)) (long.name (Ne.symm named))

theorem permission_eq (long : rule.IsLongForm fields) :
    (fields.get? "perm").getD (.int 0) = .int rule.permission := by
  cases given : fields.get? "perm" with
  | some value =>
    have told : value = .int rule.permission := long.tells_of_get? given
    exact told
  | none =>
    by_contra other
    have some : rule.permission ≠ 0 := by
      intro zero
      rw [zero] at other
      exact other rfl
    exact long.notMem_keys given (long.permission some)

theorem named_true_iff (long : rule.IsLongForm fields) :
    fields.get? "named" = some (.bool true) ↔ rule.namedOnly = true := by
  constructor
  · intro given
    obtain null | ⟨-, only⟩ | ⟨off, -⟩ := long.tells_of_get? given
    · cases null
    · exact only
    · cases off
  · intro only
    exact Table.get?_of_mem long.once (long.namedOnly only)

theorem positionalOnly_iff (long : rule.IsLongForm fields) :
    rule.positionalOnly = true ↔
      fields.get? "named" = some (.bool false) ∨ (firstOf fields ["positional"]).truthy = true := by
  constructor
  · intro only
    rw [long.positional_iff]
    obtain there | denied := long.positionalOnly only
    · exact .inr ⟨only, there⟩
    · exact .inl (Table.get?_of_mem long.once denied)
  · rintro (given | told)
    · obtain null | ⟨on, -⟩ | ⟨-, only⟩ := long.tells_of_get? given
      · cases null
      · cases on
      · exact only
    · exact (long.positional_iff.mp told).1

/-- What is told under `named` and beside it is who may supply the rule. -/
theorem named_eq (long : rule.IsLongForm fields) :
    let told := match fields.get? "named" with
      | some (.bool true) => (true, false)
      | some (.bool false) => (false, true)
      | _ => (false, false)
    told.1 = rule.namedOnly ∧
      (told.2 || (firstOf fields ["positional"]).truthy) = rule.positionalOnly := by
  refine ⟨Bool.eq_iff_iff.mpr (Iff.trans ?_ long.named_true_iff),
    Bool.eq_iff_iff.mpr (Iff.trans ?_ long.positionalOnly_iff.symm)⟩
  · split
    · rename_i given
      exact iff_of_true rfl given
    · rename_i given
      simp [given]
    · rename_i notOn _
      exact iff_of_false Bool.false_ne_true notOn
  · split
    · rename_i given
      simp [given]
    · rename_i given
      exact iff_of_true (Bool.true_or _) (.inl given)
    · rename_i _ notOff
      rw [Bool.false_or]
      exact (or_iff_right notOff).symm

/-- All long forms of a rule that makes sense are read as the rule. -/
theorem parseTable_eq (long : rule.IsLongForm fields) (sound : rule.IsSound) :
    parseTable fields = .ok rule := by
  have kind : ∃ tag, firstOf fields ["type", "ty"] = tag ∧ tag ≠ .null ∧
      declaredKind tag = .ok rule.kind := by
    obtain text | live := long.kind_cases
    · exact ⟨_, text, nofun, declaredKind_tag rule.kind⟩
    · exact ⟨_, live, nofun, rfl⟩
  obtain ⟨tag, told, some, known⟩ := kind
  obtain ⟨named, positional⟩ := long.named_eq
  unfold parseTable
  rw [long.keys_known, told]
  dsimp only
  split
  · exact absurd rfl some
  · rw [long.permission_eq]
    dsimp only
    rw [known, ok_bind]
    refine (congrArg checked ?_).trans sound.checked
    refine eq_of_flags rfl long.name_eq fun flag => ?_
    cases flag with
    | optional => exact Bool.eq_iff_iff.mp long.optional_eq
    | namedOnly => exact Bool.eq_iff_iff.mp named
    | positionalOnly => exact Bool.eq_iff_iff.mp positional
    | integer => exact Bool.eq_iff_iff.mp long.integer_eq
    | permission n => exact Iff.rfl

end IsLongForm

/-- The long form that tells everything about a rule. -/
def longForm (rule : Rule) : Table Spec :=
  [("type", .text rule.kind.tag),
   ("name", if rule.nameText = "" then .null else .text rule.nameText),
   ("optional", .bool rule.optional),
   ("named", if rule.namedOnly then .bool true else .null),
   ("positional", .bool rule.positionalOnly),
   ("integer", .bool rule.integer),
   ("perm", .int rule.permission)]

theorem keys_longForm (rule : Rule) : rule.longForm.keys =
    ["type", "name", "optional", "named", "positional", "integer", "perm"] :=
  rfl

theorem isLongForm_longForm (plain : rule.HasPlainName) : rule.IsLongForm rule.longForm where
  once := by
    rw [keys_longForm]
    decide
  tells := by
    have name : rule.Tells "name" (if rule.nameText = "" then .null else .text rule.nameText) := by
      obtain unnamed | ⟨name, named, some, -⟩ := plain
      · have blank : rule.nameText = "" := by rw [nameText, unnamed]
        exact .inl ⟨if_pos blank, unnamed⟩
      · have written : rule.nameText = name := by rw [nameText, named]
        rw [written, if_neg some]
        exact .inr ⟨name, rfl, named⟩
    have named : rule.Tells "named" (if rule.namedOnly then .bool true else .null) := by
      by_cases only : rule.namedOnly = true
      · rw [if_pos only]
        exact .inr (.inl ⟨rfl, only⟩)
      · rw [if_neg only]
        exact .inl rfl
    simp only [longForm, List.forall_mem_cons]
    exact ⟨.inl rfl, name, rfl, named, rfl, rfl, rfl, nofun⟩
  kind := by simp [keys_longForm]
  name := by simp [keys_longForm]
  optional := by simp [keys_longForm]
  namedOnly := by simp +contextual [longForm]
  positionalOnly := by simp [keys_longForm]
  integer := by simp [keys_longForm]
  permission := by simp [keys_longForm]

/-! ### Both notations -/

/-- The notations agree. A rule that passes its own check and has a plain name, or none, has short
forms and long forms, and each of them is read as the rule; a short form has to have a permission
that can be written. Whatever short text is read as a rule, the rule makes sense. -/
theorem forms_agree :
    (∀ rule : Rule, rule.checked = .ok rule → rule.HasPlainName →
      ((∃ text, rule.IsShortForm text) ∧
        (hasWritableDigits rule.permission = true → ∀ text, rule.IsShortForm text →
          parse (.text text) = .ok rule)) ∧
      (∃ fields, rule.IsLongForm fields) ∧
        ∀ fields, rule.IsLongForm fields → parse (.table fields) = .ok rule) ∧
    ∀ text made, parse (.text text) = .ok made →
      ¬ (made.namedOnly = true ∧ made.positionalOnly = true) ∧
      (made.kind.isContext = false → ∃ name, name ≠ "" ∧ made.name = .text name) ∧
      (made.integer = true → made.kind = .number) := by
  constructor
  · intro rule accepted plain
    have sound : rule.IsSound := (checked_eq_ok_iff.mp accepted).2
    refine ⟨⟨exists_isShortForm rule, fun writable text short => ?_⟩,
      ⟨rule.longForm, isLongForm_longForm plain⟩, fun fields long => long.parseTable_eq sound⟩
    exact parseShort_of_isShortForm sound plain writable short
  · intro text made read
    obtain ⟨sound, name⟩ := isSound_of_parseShort read
    refine ⟨sound.exclusive, fun value => ?_, sound.whole⟩
    obtain unnamed | named := name
    · have told := sound.named value
      rw [unnamed] at told
      cases told
    · exact named

/-- A whole number that has to be passed by name and asks for a level. -/
def amount : Rule :=
  { kind := .number, name := .text "n", namedOnly := true, integer := true, permission := 5 }

/-- The flags come in any order and may be repeated, and a table may use the short keys. -/
theorem forms_agree_amount :
    parse (.text "n:num:named:perm=5:integer:int:named") = .ok amount ∧
      parse (.table [("perm", .int 5), ("ty", .text "num"), ("named", .bool true),
        ("int", .bool true), ("name", .text "n")]) = .ok amount := by
  have plain : amount.HasPlainName := .inr ⟨"n", rfl, by decide, by decide⟩
  obtain ⟨⟨-, short⟩, -, long⟩ := forms_agree.1 amount rfl plain
  constructor
  · refine short (by decide +kernel) _ ?_
    have all : ∀ flag, flag ∈ [.namedOnly, .permission 5, .integer, .integer, .namedOnly] ↔
        Flag.IsOf amount flag := by
      intro flag
      cases flag with
      | permission n => simp [Flag.IsOf, amount]; omega
      | _ => simp [Flag.IsOf, amount]
    have spelled : Flag.Spell ["named", "perm=5", "integer", "int", "named"]
        [.namedOnly, .permission 5, .integer, .integer, .namedOnly] := by
      simp only [List.forall₂_cons]
      decide
    exact .parts all spelled
  · refine long _ ⟨by decide, ?_, ?_, ?_, ?_, ?_, ?_, ?_, ?_⟩
    · simp only [List.forall_mem_cons]
      exact ⟨rfl, .inl rfl, .inr (.inl ⟨rfl, rfl⟩), rfl, .inr ⟨"n", rfl, rfl⟩, nofun⟩
    all_goals simp [amount, Table.keys]

end Switchboard.Rule
