import Switchboard.Proofs.BindingOutcome

/-!
Who gets what of the tokens and of the named values of a line. A named value goes to the first rule
that asks for a value under its name; every other rule that asks gets the next token, unless it has
to be named; a rule that takes the rest gets all tokens that are left. Binding gives arguments
exactly if every rule gets its share and nothing is left over.
-/
namespace Switchboard

open Work

namespace Table

variable {α : Type}

/-- The entries of a table whose keys are not among some. -/
def without (t : Table α) (keys : List String) : Table α :=
  t.filter (·.1 ∉ keys)

@[simp] theorem without_nil (t : Table α) : t.without [] = t := by
  simp [without]

theorem without_singleton (t : Table α) (key : String) : t.without [key] = t.erase key := by
  simp [without, erase]

theorem without_append (t : Table α) (keys others : List String) :
    t.without (keys ++ others) = (t.without keys).without others := by
  unfold without
  rw [List.filter_filter]
  refine List.filter_congr fun entry _ => ?_
  simp [Bool.and_comm]

theorem get?_without {t : Table α} {keys : List String} {key : String} {value : α} :
    (t.without keys).get? key = some value ↔ key ∉ keys ∧ t.get? key = some value := by
  induction t with
  | nil => simp [without]
  | cons entry rest ih =>
    obtain ⟨k, first⟩ := entry
    unfold without at ih ⊢
    by_cases known : k ∈ keys
    · rw [List.filter_cons_of_neg (by simpa using known), ih, get?_cons]
      refine and_congr_right fun unknown => ?_
      have other : k ≠ key := fun same => unknown (same ▸ known)
      rw [if_neg other]
    · rw [List.filter_cons_of_pos (by simpa using known), get?_cons, get?_cons]
      by_cases same : k = key
      · rw [if_pos same, if_pos same]
        exact (and_iff_right (same ▸ known)).symm
      · rw [if_neg same, if_neg same]
        exact ih

theorem keys_without (t : Table α) (keys : List String) :
    (t.without keys).keys = t.keys.filter (· ∉ keys) := by
  unfold without Table.keys
  rw [List.filter_map]
  rfl

end Table

/-- The failures for tokens and named values that no rule took. -/
def Failure.isLeftover : Failure → Bool
  | .unknownNamed _ | .tooManyArguments => true
  | _ => false

/-- Whether a rule asks for a value that can be passed under a name. -/
def Rule.bears (rule : Rule) (key : String) : Bool :=
  match rule.name with
  | .text name => rule.asks && name = key
  | _ => false

namespace Binding

/-- What one rule gets of what the caller supplied. -/
inductive Share where
  | nothing
  /-- The value that is passed by a name. -/
  | named (key : String) (value : OptionValue)
  | token (token : String)
  /-- All tokens that are left. -/
  | rest (tokens : List String)

namespace Share

/-- The names whose values are in a share. -/
def keys : Share → List String
  | .named key _ => [key]
  | _ => []

/-- The tokens in a share. -/
def tokens : Share → List String
  | .token text => [text]
  | .rest left => left
  | _ => []

end Share

/-- A value that is passed by name is for the first rule that asks for a value under this name. -/
def IsFor (named : Table OptionValue) (rules : List Rule) (i : Nat) (key : String)
    (value : OptionValue) : Prop :=
  rules.findIdx? (·.bears key) = some i ∧ named.get? key = some value

/-- What a rule gets when some values are passed to it by name and some tokens are left, and the
argument that is made of it. -/
inductive Gets (invocation : Invocation) (passed : String → OptionValue → Prop)
    (left : List String) (rule : Rule) : Share → Argument → Prop
  /-- The invocation itself supplies the argument. -/
  | own {argument : Argument} (supplied : invocation.argument? rule.kind = some argument) :
      Gets invocation passed left rule .nothing argument
  | named {key : String} {value : OptionValue} {bound : Document} (asked : rule.asks = true)
      (given : passed key value) (admitted : rule.positionalOnly = false)
      (coerced : rule.coerce (optionDatum value) = .ok bound) :
      Gets invocation passed left rule (.named key value) (.value bound)
  /-- A rule that has to be named takes no token. -/
  | unnamed (asked : rule.asks = true) (missing : ∀ key value, ¬ passed key value)
      (only : rule.namedOnly = true) : Gets invocation passed left rule .nothing (.value .null)
  | next {token : String} {later : List String} {bound : Document} (asked : rule.asks = true)
      (missing : ∀ key value, ¬ passed key value) (free : rule.namedOnly = false)
      (there : left = token :: later) (coerced : rule.coerce (.text token) = .ok bound) :
      Gets invocation passed left rule (.token token) (.value bound)
  /-- No token is left, which the rule admits. -/
  | absent (asked : rule.asks = true) (missing : ∀ key value, ¬ passed key value)
      (free : rule.namedOnly = false) (none : left = []) (optional : rule.optional = true) :
      Gets invocation passed left rule .nothing (.value .null)
  | rest (kind : rule.kind = .rest) :
      Gets invocation passed left rule (.rest left) (.value (.text (" ".intercalate left)))

/-- The tokens that are left when it is the turn of a rule. -/
def leftAt (positional : List String) (shares : List Share) (i : Nat) : List String :=
  positional.drop ((shares.take i).flatMap Share.tokens).length

/-- Every rule is open to the caller and gets its share, and these are the arguments. -/
structure SharesOut (invocation : Invocation) (rules : List Rule) (positional : List String)
    (named : Table OptionValue) (shares : List Share) (arguments : List Argument) : Prop where
  length : shares.length = rules.length
  arity : arguments.length = rules.length
  isOpen : ∀ rule ∈ rules, rule.isOpenTo invocation.level = true
  simple : ∀ rule ∈ rules, rule.asks = true → rule.name.isCompound = false
  each : ∀ {i : Nat} {rule : Rule} {share : Share} {argument : Argument},
    rules[i]? = some rule → shares[i]? = some share → arguments[i]? = some argument →
      Gets invocation (IsFor named rules i) (leftAt positional shares i) rule share argument

variable {invocation : Invocation} {passed : String → OptionValue → Prop} {left : List String}
variable {rule : Rule} {rules : List Rule} {share : Share} {shares : List Share}
variable {argument : Argument} {arguments : List Argument}
variable {positional : List String} {named : Table OptionValue}

/-! ### The share of one rule -/

theorem bears_iff {key : String} :
    rule.bears key = true ↔ rule.asks = true ∧ rule.name = .text key := by
  unfold Rule.bears
  split
  · rename_i name same
    simp [same]
  · rename_i other
    constructor
    · intro never
      cases never
    · rintro ⟨-, same⟩
      exact absurd same (other key)

/-- A rule bears one name only. -/
theorem bears_unique {key other : String} (first : rule.bears key = true)
    (second : rule.bears other = true) : key = other :=
  Datum.text.inj ((bears_iff.mp first).2.symm.trans (bears_iff.mp second).2)

/-- What is passed to a rule that no other rule stands before. -/
def IsPassed (named : Table OptionValue) (rule : Rule) (key : String) (value : OptionValue) :
    Prop :=
  rule.bears key = true ∧ named.get? key = some value

theorem namedValue?_some {value : OptionValue} (asked : rule.asks = true) :
    namedValue? rule named = .ok (some value) ↔ ∃ key, IsPassed named rule key value := by
  unfold namedValue? IsPassed
  split <;> simp_all [bears_iff]

theorem namedValue?_none (asked : rule.asks = true) :
    namedValue? rule named = .ok none ↔
      rule.name.isCompound = false ∧ ∀ key value, ¬ IsPassed named rule key value := by
  unfold namedValue? IsPassed
  split
  · rename_i name same
    simp only [same, bears_iff, asked, Datum.isCompound, Except.ok.injEq, Datum.text.injEq,
      Option.eq_none_iff_forall_ne_some, true_and]
    constructor
    · rintro unset key value ⟨rfl, got⟩
      exact unset value got
    · intro missing value got
      exact missing name value ⟨rfl, got⟩
  all_goals simp_all [bears_iff, Datum.isCompound]

theorem supply_eq : supply rule positional named =
    match namedValue? rule named with
    | .error failure => .error failure
    | .ok (some value) =>
      if rule.positionalOnly then rule.reject "forbidden named arg" else .ok (.named value)
    | .ok none =>
      if rule.namedOnly then .ok .absent
      else
        match positional with
        | token :: _ => .ok (.next token)
        | [] => if rule.optional then .ok .absent else .error .tooFewArguments := by
  unfold supply
  cases namedValue? rule named with
  | error failure => rfl
  | ok found => cases found <;> rfl

/-- When a rule is supplied in one of the three ways. -/
theorem supply_eq_ok_iff {found : Supply} :
    supply rule positional named = .ok found ↔
      match found with
      | .named value =>
        rule.positionalOnly = false ∧ namedValue? rule named = .ok (some value)
      | .next token => namedValue? rule named = .ok none ∧
        rule.namedOnly = false ∧ ∃ later, positional = token :: later
      | .absent => namedValue? rule named = .ok none ∧
        (rule.namedOnly = true ∨
          rule.namedOnly = false ∧ positional = [] ∧ rule.optional = true) := by
  rw [supply_eq]
  cases namedValue? rule named with
  | error failure => cases found <;> simp
  | ok value? =>
    cases value? with
    | some value => cases found <;> cases rule.positionalOnly <;> simp [Rule.reject]
    | none =>
      cases found <;> cases rule.namedOnly <;> cases positional <;> cases rule.optional <;> simp

theorem withoutName_of_bears {key : String} (bears : rule.bears key = true) :
    withoutName rule named = named.without [key] := by
  rw [withoutName, (bears_iff.mp bears).2, Table.without_singleton]

theorem isOpen_iff : rule.isOpenTo invocation.level = true ↔
    ¬ (rule.permission ≠ 0 ∧ invocation.level.isBelow rule.permission = true) := by
  simp [Rule.isOpenTo, or_iff_not_imp_left]

theorem isOpen_of_take {result : Argument × List String × Table OptionValue}
    (taken : take invocation rule positional named = .ok result) :
    rule.isOpenTo invocation.level = true := by
  unfold take at taken
  split at taken
  · cases taken
  · rename_i opened
    exact isOpen_iff.mpr opened

/-- A rule asks its caller for a value, takes the rest, or is supplied by the invocation. -/
theorem kind_cases (invocation : Invocation) (rule : Rule) :
    rule.asks = true ∧ invocation.argument? rule.kind = none ∧ rule.kind ≠ .rest ∨
      rule.asks = false ∧ invocation.argument? rule.kind = none ∧ rule.kind = .rest ∨
      rule.asks = false ∧ ∃ argument, invocation.argument? rule.kind = some argument := by
  cases kind : rule.kind <;> simp [Rule.asks, Invocation.argument?, kind]

/-- A rule that is closed to the caller fails whatever there is to take. -/
theorem take_closed (closed : rule.isOpenTo invocation.level = false) :
    take invocation rule positional named =
      .error (.permissionDenied (.int rule.permission) (some rule.label)) := by
  have below := not_not.mp (isOpen_iff.not.mp (Bool.eq_false_iff.mp closed))
  exact if_pos below

theorem take_own (isOpen : rule.isOpenTo invocation.level = true)
    (supplied : invocation.argument? rule.kind = some argument) :
    take invocation rule positional named = .ok (argument, positional, named) := by
  rw [take, if_neg (isOpen_iff.mp isOpen), supplied]

theorem take_rest (isOpen : rule.isOpenTo invocation.level = true) (kind : rule.kind = .rest) :
    take invocation rule positional named =
      .ok (.value (.text (" ".intercalate positional)), [], named) := by
  rw [take, if_neg (isOpen_iff.mp isOpen), kind]
  rfl

/-- What a rule takes of what it is supplied with. -/
def takeSupplied (rule : Rule) (positional : List String) (named : Table OptionValue) :
    Supply → Except Failure (Argument × List String × Table OptionValue)
  | .absent => .ok (.value .null, positional, named)
  | .named value => do
    return (.value (← rule.coerce (optionDatum value)), positional, withoutName rule named)
  | .next token => do
    return (.value (← rule.coerce (.text token)), positional.tail, named)

theorem take_asks (isOpen : rule.isOpenTo invocation.level = true) (asked : rule.asks = true) :
    take invocation rule positional named =
      supply rule positional named >>= takeSupplied rule positional named := by
  obtain ⟨-, own, kind⟩ | ⟨never, -⟩ | ⟨never, -⟩ := kind_cases invocation rule
  · rw [take, if_neg (isOpen_iff.mp isOpen), own]
    refine (if_neg kind).trans (bind_congr fun found => ?_)
    cases found <;> rfl
  · simp [never] at asked
  · simp [never] at asked

theorem take_supplied (isOpen : rule.isOpenTo invocation.level = true) (asked : rule.asks = true)
    {found : Supply} (supplied : supply rule positional named = .ok found) :
    take invocation rule positional named = takeSupplied rule positional named found := by
  rw [take_asks isOpen asked, supplied]
  rfl

/-- What a rule takes is its share, and the others find what it leaves. -/
theorem exists_gets_of_take {leftNamed : Table OptionValue}
    (taken : take invocation rule positional named = .ok (argument, left, leftNamed)) :
    ∃ share, Gets invocation (IsPassed named rule) positional rule share argument ∧
      left = positional.drop share.tokens.length ∧ leftNamed = named.without share.keys := by
  have isOpen := isOpen_of_take taken
  obtain ⟨asked, -⟩ | ⟨-, -, kind⟩ | ⟨-, supplied, own⟩ := kind_cases invocation rule
  · rw [take_asks isOpen asked] at taken
    obtain ⟨found, supplied, taken⟩ := eq_ok_of_bind taken
    have by_supply := supply_eq_ok_iff.mp supplied
    cases found with
    | named value =>
      obtain ⟨admitted, looked⟩ := by_supply
      obtain ⟨key, passed⟩ := (namedValue?_some asked).mp looked
      obtain ⟨bound, coerced, taken⟩ := eq_ok_of_bind taken
      cases taken
      exact ⟨_, .named asked passed admitted coerced, rfl, withoutName_of_bears passed.1⟩
    | next token =>
      obtain ⟨looked, free, later, rfl⟩ := by_supply
      obtain ⟨-, missing⟩ := (namedValue?_none asked).mp looked
      obtain ⟨bound, coerced, taken⟩ := eq_ok_of_bind taken
      cases taken
      exact ⟨_, .next asked missing free rfl coerced, rfl, named.without_nil.symm⟩
    | absent =>
      obtain ⟨looked, only | ⟨free, rfl, optional⟩⟩ := by_supply
      · obtain ⟨-, missing⟩ := (namedValue?_none asked).mp looked
        cases taken
        exact ⟨_, .unnamed asked missing only, rfl, named.without_nil.symm⟩
      · obtain ⟨-, missing⟩ := (namedValue?_none asked).mp looked
        cases taken
        exact ⟨_, .absent asked missing free rfl optional, rfl, named.without_nil.symm⟩
  · rw [take_rest isOpen kind] at taken
    cases taken
    exact ⟨_, .rest kind, List.drop_length.symm, named.without_nil.symm⟩
  · rw [take_own isOpen own] at taken
    cases taken
    exact ⟨_, .own own, rfl, named.without_nil.symm⟩

/-- A rule that gets a share takes it. -/
theorem take_of_gets (isOpen : rule.isOpenTo invocation.level = true)
    (simple : rule.asks = true → rule.name.isCompound = false)
    (gets : Gets invocation (IsPassed named rule) positional rule share argument) :
    take invocation rule positional named =
      .ok (argument, positional.drop share.tokens.length, named.without share.keys) := by
  cases gets with
  | own supplied =>
    rw [take_own isOpen supplied]
    simp [Share.tokens, Share.keys]
  | named asked given admitted coerced =>
    have looked := (namedValue?_some asked).mpr ⟨_, given⟩
    have supplied : supply rule positional named = .ok (.named _) :=
      supply_eq_ok_iff.mpr ⟨admitted, looked⟩
    rw [take_supplied isOpen asked supplied, takeSupplied, coerced, ok_bind,
      withoutName_of_bears given.1]
    rfl
  | unnamed asked missing only =>
    have looked := (namedValue?_none asked).mpr ⟨simple asked, missing⟩
    have supplied : supply rule positional named = .ok .absent :=
      supply_eq_ok_iff.mpr ⟨looked, .inl only⟩
    rw [take_supplied isOpen asked supplied, takeSupplied]
    simp [Share.tokens, Share.keys]
  | next asked missing free there coerced =>
    have looked := (namedValue?_none asked).mpr ⟨simple asked, missing⟩
    have supplied : supply rule positional named = .ok (.next _) :=
      supply_eq_ok_iff.mpr ⟨looked, free, _, there⟩
    rw [take_supplied isOpen asked supplied, takeSupplied, coerced, ok_bind, there]
    simp [pure, Except.pure, Share.tokens, Share.keys]
  | absent asked missing free none optional =>
    have looked := (namedValue?_none asked).mpr ⟨simple asked, missing⟩
    have supplied : supply rule positional named = .ok .absent :=
      supply_eq_ok_iff.mpr ⟨looked, .inr ⟨free, none, optional⟩⟩
    rw [take_supplied isOpen asked supplied, takeSupplied]
    simp [Share.tokens, Share.keys]
  | rest kind =>
    rw [take_rest isOpen kind]
    simp [Share.tokens, Share.keys]

/-- A name that can be looked up is no list and no table. -/
theorem simple_of_take {result : Argument × List String × Table OptionValue}
    (taken : take invocation rule positional named = .ok result) (asked : rule.asks = true) :
    rule.name.isCompound = false := by
  rw [take_asks (isOpen_of_take taken) asked] at taken
  obtain ⟨found, supplied, -⟩ := eq_ok_of_bind taken
  obtain ⟨value?, looked, -⟩ := eq_ok_of_bind supplied
  unfold namedValue? at looked
  split at looked <;> simp_all [Datum.isCompound]

/-- The names of a share are those under which something was passed. -/
theorem mem_keys_of_gets (gets : Gets invocation (IsPassed named rule) left rule share argument)
    {key : String} : key ∈ share.keys ↔ ∃ value, IsPassed named rule key value := by
  have never (missing : ∀ key value, ¬ IsPassed named rule key value) :
      key ∈ Share.keys .nothing ↔ ∃ value, IsPassed named rule key value := by
    simp [Share.keys, missing]
  have unasked (none : rule.asks = false) (key : String) (value : OptionValue) :
      ¬ IsPassed named rule key value := by
    rintro ⟨bears, -⟩
    simp [bears_iff, none] at bears
  cases gets with
  | own supplied =>
    refine never (unasked ?_)
    obtain ⟨-, own, -⟩ | ⟨none, -⟩ | ⟨none, -⟩ := kind_cases invocation rule
    · rw [own] at supplied
      cases supplied
    · exact none
    · exact none
  | named asked given admitted coerced =>
    constructor
    · intro member
      obtain rfl := List.mem_singleton.mp member
      exact ⟨_, given⟩
    · rintro ⟨value, bears, -⟩
      exact List.mem_singleton.mpr (bears_unique bears given.1)
  | unnamed asked missing only => exact never missing
  | next asked missing free there coerced => exact never missing
  | absent asked missing free none optional => exact never missing
  | rest kind => exact never (unasked (by simp [Rule.asks, kind]))

theorem tokens_of_gets (gets : Gets invocation passed left rule share argument) :
    share.tokens ++ left.drop share.tokens.length = left := by
  cases gets with
  | next asked missing free there coerced => rw [there]; rfl
  | rest kind => simp [Share.tokens]
  | _ => rfl

/-! ### The shares of all rules -/

theorem isFor_zero : IsFor named (rule :: rules) 0 = IsPassed named rule := by
  funext key value
  simp [IsFor, IsPassed, List.findIdx?_cons]

/-- What is for a rule further on is what is left for it by the first one. -/
theorem isFor_succ (gets : Gets invocation (IsPassed named rule) left rule share argument)
    (i : Nat) : IsFor named (rule :: rules) (i + 1) = IsFor (named.without share.keys) rules i := by
  funext key value
  have passed : key ∉ share.keys ∧ named.get? key = some value ↔
      rule.bears key = false ∧ named.get? key = some value := by
    refine and_congr_left fun got => ?_
    rw [mem_keys_of_gets gets, ← Bool.not_eq_true]
    refine not_congr ⟨fun ⟨_, bears, _⟩ => bears, fun bears => ⟨value, bears, got⟩⟩
  unfold IsFor
  rw [Table.get?_without, passed, List.findIdx?_cons]
  cases rule.bears key <;> simp

theorem leftAt_zero : leftAt positional shares 0 = positional := by
  simp [leftAt]

theorem leftAt_succ (i : Nat) : leftAt positional (share :: shares) (i + 1) =
    leftAt (positional.drop share.tokens.length) shares i := by
  simp [leftAt, List.drop_drop]

theorem sharesOut_nil : SharesOut invocation [] positional named [] [] :=
  ⟨rfl, rfl, nofun, nofun, nofun⟩

/-- The first rule gets its share, and the others share out what it leaves. -/
theorem SharesOut.cons (isOpen : rule.isOpenTo invocation.level = true)
    (simple : rule.asks = true → rule.name.isCompound = false)
    (gets : Gets invocation (IsPassed named rule) positional rule share argument)
    (rest : SharesOut invocation rules (positional.drop share.tokens.length)
      (named.without share.keys) shares arguments) :
    SharesOut invocation (rule :: rules) positional named (share :: shares)
      (argument :: arguments) where
  length := congrArg (· + 1) rest.length
  arity := congrArg (· + 1) rest.arity
  isOpen := List.forall_mem_cons.mpr ⟨isOpen, rest.isOpen⟩
  simple := List.forall_mem_cons.mpr ⟨simple, rest.simple⟩
  each {i} := by
    intro current given bound atRule atShare atArgument
    cases i with
    | zero =>
      obtain rfl := Option.some.inj atRule
      obtain rfl := Option.some.inj atShare
      obtain rfl := Option.some.inj atArgument
      rw [isFor_zero, leftAt_zero]
      exact gets
    | succ i =>
      rw [isFor_succ gets, leftAt_succ]
      exact rest.each atRule atShare atArgument

theorem SharesOut.exists_cons
    (out : SharesOut invocation (rule :: rules) positional named shares arguments) :
    ∃ share others argument more, shares = share :: others ∧ arguments = argument :: more ∧
      rule.isOpenTo invocation.level = true ∧
      (rule.asks = true → rule.name.isCompound = false) ∧
      Gets invocation (IsPassed named rule) positional rule share argument ∧
      SharesOut invocation rules (positional.drop share.tokens.length) (named.without share.keys)
        others more := by
  obtain ⟨share, others, rfl⟩ := List.exists_cons_of_length_eq_add_one out.length
  obtain ⟨argument, more, rfl⟩ := List.exists_cons_of_length_eq_add_one out.arity
  have gets := out.each (i := 0) rfl rfl rfl
  rw [isFor_zero, leftAt_zero] at gets
  obtain ⟨isOpen, openRest⟩ := List.forall_mem_cons.mp out.isOpen
  obtain ⟨simple, simpleRest⟩ := List.forall_mem_cons.mp out.simple
  refine ⟨share, others, argument, more, rfl, rfl, isOpen, simple, gets, ?_⟩
  refine ⟨Nat.succ.inj out.length, Nat.succ.inj out.arity, openRest, simpleRest, ?_⟩
  intro i current given bound atRule atShare atArgument
  have later := out.each (i := i + 1) atRule atShare atArgument
  rw [isFor_succ gets, leftAt_succ] at later
  exact later

theorem SharesOut.tokens_append
    (out : SharesOut invocation rules positional named shares arguments) :
    shares.flatMap Share.tokens ++ leftAt positional shares shares.length = positional := by
  induction rules generalizing positional named shares arguments with
  | nil =>
    obtain rfl := List.eq_nil_of_length_eq_zero out.length
    rfl
  | cons rule rules ih =>
    obtain ⟨share, others, argument, more, rfl, -, -, -, gets, rest⟩ := out.exists_cons
    rw [List.length_cons, leftAt_succ, List.flatMap_cons, List.append_assoc, ih rest]
    exact tokens_of_gets gets

/-- Only what was passed is given out. -/
theorem SharesOut.mem_keys
    (out : SharesOut invocation rules positional named shares arguments) {key : String}
    (member : key ∈ shares.flatMap Share.keys) : key ∈ named.keys := by
  induction rules generalizing positional named shares arguments with
  | nil =>
    obtain rfl := List.eq_nil_of_length_eq_zero out.length
    cases member
  | cons rule rules ih =>
    obtain ⟨share, others, argument, more, rfl, -, -, -, gets, rest⟩ := out.exists_cons
    rw [List.flatMap_cons, List.mem_append] at member
    rcases member with mine | theirs
    · obtain ⟨value, -, got⟩ := (mem_keys_of_gets gets).mp mine
      exact List.mem_map_of_mem (Table.mem_of_get? got)
    · have left := ih rest theirs
      rw [Table.keys_without] at left
      exact List.mem_of_mem_filter left

/-- No value is given out twice. -/
theorem SharesOut.nodup_keys
    (out : SharesOut invocation rules positional named shares arguments) :
    (shares.flatMap Share.keys).Nodup := by
  induction rules generalizing positional named shares arguments with
  | nil =>
    obtain rfl := List.eq_nil_of_length_eq_zero out.length
    exact List.nodup_nil
  | cons rule rules ih =>
    obtain ⟨share, others, argument, more, rfl, -, -, -, gets, rest⟩ := out.exists_cons
    rw [List.flatMap_cons, List.nodup_append]
    refine ⟨by cases share <;> simp [Share.keys], ih rest, ?_⟩
    rintro key mine _ theirs rfl
    have left := rest.mem_keys theirs
    rw [Table.keys_without, List.mem_filter] at left
    simp [mine] at left

theorem bindThen_of_sharesOut
    {finish : List String → Table OptionValue → Except Failure (List Argument)}
    (out : SharesOut invocation rules positional named shares arguments) :
    bindThen finish invocation rules positional named =
      (arguments ++ ·) <$> finish (leftAt positional shares shares.length)
        (named.without (shares.flatMap Share.keys)) := by
  induction rules generalizing positional named shares arguments with
  | nil =>
    obtain rfl := List.eq_nil_of_length_eq_zero out.length
    obtain rfl := List.eq_nil_of_length_eq_zero out.arity
    simp [bindThen, leftAt]
  | cons rule rules ih =>
    obtain ⟨share, others, argument, more, rfl, rfl, isOpen, simple, gets, rest⟩ :=
      out.exists_cons
    rw [bindThen_eq_take, take_of_gets isOpen simple gets, ok_bind]
    dsimp only
    rw [ih rest, List.length_cons, leftAt_succ, List.flatMap_cons, Table.without_append]
    simp

/-! ### What is left over -/

theorem fits_coerce {rule : Rule} (raw : Document) :
    FailsBy (·.isLeftover = false) (rule.coerce raw) := by
  unfold Rule.coerce
  split
  · unfold Rule.coerceNumber Rule.reject
    split
    · simp [Failure.isLeftover]
    · split
      · simp [Failure.isLeftover]
      · dsimp only
        split <;> simp [Failure.isLeftover]
  · unfold Rule.coerceBoolean Rule.reject
    split <;> simp [Failure.isLeftover]
  · exact .ok _
  · exact FailsBy.error_iff.mpr rfl

theorem fits_supply : FailsBy (·.isLeftover = false) (supply rule positional named) := by
  rw [supply_eq]
  split
  · rename_i failure looked
    unfold namedValue? at looked
    split at looked <;> cases looked <;> exact FailsBy.error_iff.mpr rfl
  · split
    · exact FailsBy.error_iff.mpr rfl
    · exact .ok _
  · split
    · exact .ok _
    · split
      · exact .ok _
      · split
        · exact .ok _
        · exact FailsBy.error_iff.mpr rfl

/-- No rule fails for what another one is to take. -/
theorem fits_take : FailsBy (·.isLeftover = false) (take invocation rule positional named) := by
  unfold take
  split
  · exact FailsBy.error_iff.mpr rfl
  · split
    · exact .ok _
    · split
      · exact .ok _
      · refine FailsBy.bind_iff.mpr ⟨fits_supply, fun found _ => ?_⟩
        cases found with
        | absent => exact .ok _
        | named value => exact FailsBy.bind_iff.mpr ⟨fits_coerce _, fun bound _ => .ok _⟩
        | next token => exact FailsBy.bind_iff.mpr ⟨fits_coerce _, fun bound _ => .ok _⟩

/-- Either every rule gets its share, or binding fails before it looks at what is left over. -/
theorem shares_or_fails
    (finish : List String → Table OptionValue → Except Failure (List Argument))
    (invocation : Invocation) (rules : List Rule) (positional : List String)
    (named : Table OptionValue) :
    (∃ shares arguments, SharesOut invocation rules positional named shares arguments) ∨
      ∃ failure, bindThen finish invocation rules positional named = .error failure ∧
        failure.isLeftover = false := by
  induction rules generalizing positional named with
  | nil => exact .inl ⟨[], [], sharesOut_nil⟩
  | cons rule rules ih =>
    rw [bindThen_eq_take]
    cases taken : take invocation rule positional named with
    | error failure => exact .inr ⟨failure, rfl, fits_take failure taken⟩
    | ok found =>
      obtain ⟨argument, left, leftNamed⟩ := found
      rw [ok_bind]
      dsimp only
      obtain ⟨share, gets, rfl, rfl⟩ := exists_gets_of_take taken
      obtain ⟨shares, arguments, rest⟩ | ⟨failure, failed, fits⟩ :=
        ih (positional.drop share.tokens.length) (named.without share.keys)
      · exact .inl ⟨_, _, .cons (isOpen_of_take taken) (simple_of_take taken) gets rest⟩
      · refine .inr ⟨failure, ?_, fits⟩
        rw [failed, error_bind]

/-- Nothing is left over if all tokens and all values were given out. -/
theorem settleRest_eq (positional : List String) (named : Table OptionValue) :
    settleRest positional named =
      if named.keys ≠ [] then .error (.unknownNamed named.keys)
      else if positional ≠ [] then .error .tooManyArguments
      else .ok [] := by
  cases named <;> simp [settleRest, Table.keys]

/-- The names whose values no rule took, in the order in which they were passed. -/
def unused (named : Table OptionValue) (shares : List Share) : List String :=
  named.keys.filter (· ∉ shares.flatMap Share.keys)

/-- What binding comes to if every rule gets its share: values that no rule took decide, then
tokens. -/
def settled (positional : List String) (named : Table OptionValue) (shares : List Share)
    (arguments : List Argument) : Except Failure (List Argument) :=
  if unused named shares ≠ [] then .error (.unknownNamed (unused named shares))
  else if leftAt positional shares shares.length ≠ [] then .error .tooManyArguments
  else .ok arguments

theorem bind_of_sharesOut (out : SharesOut invocation rules positional named shares arguments) :
    bind invocation rules positional named = settled positional named shares arguments := by
  rw [bind, bindThen_of_sharesOut out, settleRest_eq, Table.keys_without, settled, unused]
  split
  · rfl
  · split
    · rfl
    · exact congrArg Except.ok (List.append_nil arguments)

/-- Whatever is no failure of a single rule comes from sharing out. -/
theorem bind_eq_iff {result : Except Failure (List Argument)}
    (late : FailsBy (·.isLeftover = true) result) :
    bind invocation rules positional named = result ↔
      ∃ shares arguments, SharesOut invocation rules positional named shares arguments ∧
        settled positional named shares arguments = result := by
  constructor
  · rintro rfl
    obtain ⟨shares, arguments, out⟩ | ⟨failure, failed, fits⟩ :=
      shares_or_fails settleRest invocation rules positional named
    · exact ⟨shares, arguments, out, (bind_of_sharesOut out).symm⟩
    · have leftover : failure.isLeftover = true := late failure failed
      rw [fits] at leftover
      cases leftover
  · rintro ⟨shares, arguments, out, rfl⟩
    exact bind_of_sharesOut out

theorem settled_eq_ok {given : List Argument} :
    settled positional named shares given = .ok arguments ↔
      unused named shares = [] ∧ leftAt positional shares shares.length = [] ∧
        given = arguments := by
  unfold settled
  split
  · simp_all
  · split <;> simp_all

theorem settled_eq_unknownNamed {unknown : List String} :
    settled positional named shares arguments = .error (.unknownNamed unknown) ↔
      unused named shares ≠ [] ∧ unused named shares = unknown := by
  unfold settled
  split
  · simp_all
  · split <;> simp_all

theorem settled_eq_tooManyArguments :
    settled positional named shares arguments = .error .tooManyArguments ↔
      unused named shares = [] ∧ leftAt positional shares shares.length ≠ [] := by
  unfold settled
  split
  · simp_all
  · split <;> simp_all

theorem SharesOut.unused_eq_nil_iff
    (out : SharesOut invocation rules positional named shares arguments) :
    unused named shares = [] ↔ ∀ key, key ∈ shares.flatMap Share.keys ↔ key ∈ named.keys := by
  simp only [unused, List.filter_eq_nil_iff, decide_eq_true_eq, not_not]
  exact ⟨fun used key => ⟨out.mem_keys, used key⟩, fun used key => (used key).mpr⟩

/-- What is left over follows what was given out. -/
theorem SharesOut.tokens_append_iff
    (out : SharesOut invocation rules positional named shares arguments) {left : List String} :
    shares.flatMap Share.tokens ++ left = positional ↔
      leftAt positional shares shares.length = left := by
  constructor
  · intro split
    exact List.append_cancel_left (out.tokens_append.trans split.symm)
  · rintro rfl
    exact out.tokens_append

/-- Every supplied value is used once. Binding gives arguments exactly if every rule gets its share,
and the shares together have each token and each named value once; the failure that tells of unknown
names, or else of too many tokens, is for what no rule took although all got their shares. -/
theorem every_supply_used_once (invocation : Invocation) (rules : List Rule)
    (positional : List String) (named : Table OptionValue) :
    (∀ arguments, bind invocation rules positional named = .ok arguments ↔
      ∃ shares, SharesOut invocation rules positional named shares arguments ∧
        shares.flatMap Share.tokens = positional ∧ (shares.flatMap Share.keys).Nodup ∧
        ∀ key, key ∈ shares.flatMap Share.keys ↔ key ∈ named.keys) ∧
    (∀ unknown, bind invocation rules positional named = .error (.unknownNamed unknown) ↔
      unknown ≠ [] ∧ ∃ shares arguments,
        SharesOut invocation rules positional named shares arguments ∧
        unknown = named.keys.filter (· ∉ shares.flatMap Share.keys)) ∧
    (bind invocation rules positional named = .error .tooManyArguments ↔
      ∃ shares arguments, SharesOut invocation rules positional named shares arguments ∧
        (∀ key, key ∈ shares.flatMap Share.keys ↔ key ∈ named.keys) ∧
        ∃ left, left ≠ [] ∧ shares.flatMap Share.tokens ++ left = positional) := by
  refine ⟨fun arguments => ?_, fun unknown => ?_, ?_⟩
  · rw [bind_eq_iff (.ok arguments)]
    constructor
    · rintro ⟨shares, given, out, ends⟩
      obtain ⟨used, nothing, rfl⟩ := settled_eq_ok.mp ends
      have tokens := out.tokens_append_iff.mpr nothing
      rw [List.append_nil] at tokens
      exact ⟨shares, out, tokens, out.nodup_keys, out.unused_eq_nil_iff.mp used⟩
    · rintro ⟨shares, out, tokens, -, used⟩
      have nothing := out.tokens_append_iff.mp ((List.append_nil _).trans tokens)
      exact ⟨shares, arguments, out,
        settled_eq_ok.mpr ⟨out.unused_eq_nil_iff.mpr used, nothing, rfl⟩⟩
  · rw [bind_eq_iff (FailsBy.error_iff.mpr rfl)]
    constructor
    · rintro ⟨shares, arguments, out, ends⟩
      obtain ⟨some, rfl⟩ := settled_eq_unknownNamed.mp ends
      exact ⟨some, shares, arguments, out, rfl⟩
    · rintro ⟨some, shares, arguments, out, rfl⟩
      exact ⟨shares, arguments, out, settled_eq_unknownNamed.mpr ⟨some, rfl⟩⟩
  · rw [bind_eq_iff (FailsBy.error_iff.mpr rfl)]
    constructor
    · rintro ⟨shares, arguments, out, ends⟩
      obtain ⟨used, some⟩ := settled_eq_tooManyArguments.mp ends
      exact ⟨shares, arguments, out, out.unused_eq_nil_iff.mp used, _, some, out.tokens_append⟩
    · rintro ⟨shares, arguments, out, used, left, some, split⟩
      obtain rfl := out.tokens_append_iff.mp split
      exact ⟨shares, arguments, out,
        settled_eq_tooManyArguments.mpr ⟨out.unused_eq_nil_iff.mpr used, some⟩⟩

end Binding
end Switchboard
