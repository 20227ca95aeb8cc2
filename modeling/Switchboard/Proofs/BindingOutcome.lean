import Switchboard.Rule.Declared
import Switchboard.Proofs.Binding

/-!
What binding can end with: arguments, or one of the failures that it has for lines that do not fit
the rules. A declaration may name its rule by a list or a table, which is accepted as it is, and no
value can be looked up by such a name. Binding ends otherwise exactly if it comes to a rule of this
sort while the rule asks the caller for a value.
-/
namespace Switchboard

open Work

/-- Lists and tables, which nothing can be looked up by. -/
def Datum.isCompound {ε : Type} : Datum ε → Bool
  | .list _ | .table _ | .mapping _ => true
  | _ => false

/-- The failures that binding has for lines that do not fit the rules of a command. -/
def Failure.isMisfit : Failure → Bool
  | .permissionDenied .. | .badArgument .. | .unknownNamed _ | .tooManyArguments
  | .tooFewArguments => true
  | _ => false

namespace Rule

/-- Whether the value of a rule comes from its caller, by name or as the next token. -/
def asks (rule : Rule) : Bool :=
  rule.kind = .string ∨ rule.kind = .boolean ∨ rule.kind = .number

/-- Whether a caller of some level may supply a rule. -/
def isOpenTo (rule : Rule) (level : Level) : Bool :=
  rule.permission = 0 ∨ ¬ level.isBelow rule.permission

/-- Whether the name that a declaration gives to its rule is a list or a table. -/
def declaresCompoundName : Spec → Bool
  | .table fields => (firstOf fields ["name"]).document.isCompound
  | .live (.rule rule) => rule.name.isCompound
  | _ => false

theorem checked_eq_ok {rule accepted : Rule} (made : rule.checked = .ok accepted) :
    accepted = rule := by
  unfold checked at made
  split at made
  · cases made
  · split at made
    · cases made
    · split at made <;> cases made
      rfl

theorem name_withFlag {text flag : String} {rule flagged : Rule}
    (made : withFlag text rule flag = .ok flagged) : flagged.name = rule.name := by
  unfold withFlag at made
  split at made
  · split at made <;> cases made
    rfl
  all_goals cases made
  all_goals rfl

theorem name_withFlags {text : String} {flags : List String} {rule flagged : Rule}
    (made : flags.foldlM (withFlag text) rule = .ok flagged) : flagged.name = rule.name := by
  induction flags generalizing rule with
  | nil =>
    obtain rfl := Except.ok.inj made
    rfl
  | cons flag flags ih =>
    rw [List.foldlM_cons] at made
    cases first : withFlag text rule flag with
    | error failure =>
      rw [first] at made
      cases made
    | ok next =>
      rw [first] at made
      exact (ih made).trans (name_withFlag first)

theorem isCompound_parseShort {text : String} {rule : Rule} (made : parseShort text = .ok rule) :
    rule.name.isCompound = false := by
  unfold parseShort at made
  split at made
  · rename_i name tag flags cut
    obtain ⟨flagged, given, made⟩ := eq_ok_of_bind made
    obtain ⟨kind, -, made⟩ := eq_ok_of_bind made
    obtain rfl := checked_eq_ok made
    change flagged.name.isCompound = false
    rw [name_withFlags given]
    split <;> rfl
  · split at made
    · obtain ⟨kind, -, made⟩ := eq_ok_of_bind made
      obtain rfl := checked_eq_ok made
      rfl
    · cases made

theorem name_parseTable {fields : Table Spec} {rule : Rule} (made : parseTable fields = .ok rule) :
    rule.name = (firstOf fields ["name"]).document := by
  unfold parseTable at made
  dsimp only at made
  split at made
  · split at made
    · cases made
    · split at made
      · obtain ⟨kind, -, made⟩ := eq_ok_of_bind made
        exact congrArg Rule.name (checked_eq_ok made)
      · cases made
  · cases made

/-- Only tables and finished rules can bring a name that is a list or a table. -/
theorem isCompound_parse {declaration : Spec} {rule : Rule}
    (made : Rule.parse declaration = .ok rule) :
    rule.name.isCompound = declaresCompoundName declaration := by
  unfold parse at made
  split at made
  · obtain rfl := Except.ok.inj made
    rfl
  · exact isCompound_parseShort made
  · rw [name_parseTable made]
    rfl
  · cases made
  · cases made

theorem misfit_coerce {rule : Rule} (asked : rule.asks = true) (raw : Document) :
    FailsBy (·.isMisfit = true) (rule.coerce raw) := by
  unfold coerce
  split
  · unfold coerceNumber reject
    split
    · simp [Failure.isMisfit]
    · split
      · simp [Failure.isMisfit]
      · dsimp only
        split <;> simp [Failure.isMisfit]
  · unfold coerceBoolean reject
    split <;> simp [Failure.isMisfit]
  · exact .ok _
  · -- No other kind asks for a value.
    simp_all [asks]

end Rule

namespace Binding

/-- What one rule takes of what is left: its argument, then the tokens and the named values that it
leaves. -/
def take (invocation : Invocation) (rule : Rule) (positional : List String)
    (named : Table OptionValue) : Except Failure (Argument × List String × Table OptionValue) :=
  if rule.permission ≠ 0 ∧ invocation.level.isBelow rule.permission then
    .error (.permissionDenied (.int rule.permission) (some rule.label))
  else
    match invocation.argument? rule.kind with
    | some argument => .ok (argument, positional, named)
    | none =>
      if rule.kind = .rest then
        .ok (.value (.text (" ".intercalate positional)), [], named)
      else do
        match ← supply rule positional named with
        | .absent => return (.value .null, positional, named)
        | .named value =>
          return (.value (← rule.coerce (optionDatum value)), positional, withoutName rule named)
        | .next token => return (.value (← rule.coerce (.text token)), positional.tail, named)

/-- What a list of rules leaves of the tokens and of the named values. -/
def leave (invocation : Invocation) (rules : List Rule)
    (given : List String × Table OptionValue) :
    Except Failure (List String × Table OptionValue) :=
  rules.foldlM (fun left rule => do return (← take invocation rule left.1 left.2).2) given

variable {finish : List String → Table OptionValue → Except Failure (List Argument)}
variable {invocation : Invocation} {rule : Rule} {rules : List Rule}
variable {positional : List String} {named : Table OptionValue}

theorem bindThen_eq_take :
    bindThen finish invocation (rule :: rules) positional named = do
      let (argument, left, leftNamed) ← take invocation rule positional named
      return argument :: (← bindThen finish invocation rules left leftNamed) := by
  rw [bindThen, take]
  split
  · rw [error_bind]
  · cases invocation.argument? rule.kind with
    | some argument => rfl
    | none =>
      dsimp only
      split
      · rfl
      · rw [bind_assoc]
        congr 1
        funext found
        cases found with
        | absent => rfl
        | named value => simp only [bind_assoc, pure_bind]
        | next token => simp only [bind_assoc, pure_bind]

/-- A name that is no list and no table can be looked up. -/
theorem misfit_supply :
    FailsBy (·.isMisfit = true) (supply rule positional named) ↔ rule.name.isCompound = false := by
  unfold supply
  rw [FailsBy.bind_iff]
  constructor
  · rintro ⟨searched, -⟩
    unfold namedValue? at searched
    split at searched <;> simp_all [Datum.isCompound, Failure.isMisfit]
  · intro simple
    refine ⟨?_, fun value looked => ?_⟩
    · unfold namedValue?
      split <;> simp_all [Datum.isCompound]
    · cases value with
      | some value =>
        dsimp only
        split
        · simp [Rule.reject, Failure.isMisfit]
        · exact .ok _
      | none =>
        dsimp only
        split
        · exact .ok _
        · split
          · exact .ok _
          · split
            · exact .ok _
            · exact FailsBy.error_iff.mpr rfl

/-- Taking fails otherwise exactly for a name that cannot be looked up, where it has to be. -/
theorem misfit_take :
    FailsBy (·.isMisfit = true) (take invocation rule positional named) ↔
      ¬ (rule.asks = true ∧ rule.isOpenTo invocation.level = true ∧
        rule.name.isCompound = true) := by
  unfold take
  split
  · rename_i closed
    simp [Failure.isMisfit, Rule.isOpenTo, closed]
  · rename_i opened
    have isOpen : rule.isOpenTo invocation.level = true := by
      simpa [Rule.isOpenTo, or_iff_not_imp_left] using opened
    cases kind : rule.kind with
    | string | boolean | number =>
      have asked : rule.asks = true := by simp [Rule.asks, kind]
      simp only [Invocation.argument?, asked, isOpen, reduceCtorEq, ↓reduceIte, true_and,
        Bool.not_eq_true]
      rw [FailsBy.bind_iff, misfit_supply]
      refine and_iff_left fun found given => ?_
      cases found with
      | absent => exact .ok _
      | named value =>
        exact FailsBy.bind_iff.mpr ⟨Rule.misfit_coerce asked _, fun bound _ => .ok _⟩
      | next token =>
        exact FailsBy.bind_iff.mpr ⟨Rule.misfit_coerce asked _, fun bound _ => .ok _⟩
    | rest => simp [Invocation.argument?, Rule.asks, kind]
    | _ => simp [Invocation.argument?, Rule.asks, kind]

/-- Binding comes to a rule if the rules before it could all be bound. -/
def Reaches (invocation : Invocation) (rules : List Rule) (i : Nat)
    (given : List String × Table OptionValue) : Prop :=
  ∃ left, leave invocation (rules.take i) given = .ok left

theorem reaches_zero {given : List String × Table OptionValue} :
    Reaches invocation rules 0 given :=
  ⟨given, rfl⟩

theorem reaches_succ {i : Nat} :
    Reaches invocation (rule :: rules) (i + 1) (positional, named) ↔
      ∃ argument left, take invocation rule positional named = .ok (argument, left) ∧
        Reaches invocation rules i left := by
  unfold Reaches leave
  simp only [List.take_succ_cons, List.foldlM_cons, bind_assoc, pure_bind]
  cases taken : take invocation rule positional named with
  | error failure => simp [error_bind]
  | ok found =>
    rw [ok_bind]
    constructor
    · intro reached
      exact ⟨found.1, found.2, rfl, reached⟩
    · rintro ⟨argument, left, same, reached⟩
      obtain rfl := Except.ok.inj same
      exact reached

/-- Binding goes on rule by rule, so it fails otherwise at the first rule at which it does. -/
theorem misfit_bindThen
    (finished : ∀ positional named, FailsBy (·.isMisfit = true) (finish positional named)) :
    FailsBy (·.isMisfit = true) (bindThen finish invocation rules positional named) ↔
      ¬ ∃ i rule, rules[i]? = some rule ∧ rule.asks = true ∧
        rule.isOpenTo invocation.level = true ∧ rule.name.isCompound = true ∧
        Reaches invocation rules i (positional, named) := by
  induction rules generalizing positional named with
  | nil => simpa [bindThen] using finished positional named
  | cons first rules ih =>
    rw [bindThen_eq_take, FailsBy.bind_iff, misfit_take]
    have others (found : Argument × List String × Table OptionValue) :
        FailsBy (·.isMisfit = true)
            (do return found.1 :: (← bindThen finish invocation rules found.2.1 found.2.2)) ↔
          ¬ ∃ i rule, rules[i]? = some rule ∧ rule.asks = true ∧
            rule.isOpenTo invocation.level = true ∧ rule.name.isCompound = true ∧
            Reaches invocation rules i found.2 := by
      rw [FailsBy.bind_iff, ih]
      exact and_iff_left fun bound _ => .ok _
    constructor
    · rintro ⟨atFirst, after⟩ ⟨i, rule, there, asked, opened, compound, reached⟩
      cases i with
      | zero =>
        obtain rfl := Option.some.inj there
        exact atFirst ⟨asked, opened, compound⟩
      | succ i =>
        obtain ⟨argument, left, taken, reached⟩ := reaches_succ.mp reached
        apply (others (argument, left)).mp (after _ taken)
        exact ⟨i, rule, there, asked, opened, compound, reached⟩
    · intro never
      constructor
      · rintro ⟨asked, opened, compound⟩
        exact never ⟨0, first, rfl, asked, opened, compound, reaches_zero⟩
      · rintro found taken
        apply (others found).mpr
        rintro ⟨i, rule, there, asked, opened, compound, reached⟩
        apply never
        exact ⟨i + 1, rule, there, asked, opened, compound,
          reaches_succ.mpr ⟨found.1, found.2, taken, reached⟩⟩

theorem misfit_settleRest : FailsBy (·.isMisfit = true) (settleRest positional named) := by
  unfold settleRest
  split
  · exact FailsBy.error_iff.mpr rfl
  · split
    · exact FailsBy.error_iff.mpr rfl
    · exact .ok _

/-- Rules that were accepted as they were declared bind the arguments of a line or fail for a line
that does not fit, unless binding comes to a rule that asks its caller for a value, and that was
declared under a name that is a list or a table. -/
theorem binds_or_misfits_iff {declarations : List Spec} {rules : List Rule}
    (accepted : declarations.mapM Rule.parse = .ok rules) (invocation : Invocation)
    (positional : List String) (named : Table OptionValue) :
    ((∃ arguments, bind invocation rules positional named = .ok arguments) ∨
        ∃ failure, bind invocation rules positional named = .error failure ∧
          failure.isMisfit = true) ↔
      ¬ ∃ i declaration rule, declarations[i]? = some declaration ∧ rules[i]? = some rule ∧
        Rule.declaresCompoundName declaration = true ∧ rule.asks = true ∧
        rule.isOpenTo invocation.level = true ∧
        Reaches invocation rules i (positional, named) := by
  have outcome :
      ((∃ arguments, bind invocation rules positional named = .ok arguments) ∨
        ∃ failure, bind invocation rules positional named = .error failure ∧
          failure.isMisfit = true) ↔
        FailsBy (·.isMisfit = true) (bind invocation rules positional named) := by
    cases bind invocation rules positional named <;> simp
  rw [outcome, bind, misfit_bindThen fun _ _ => misfit_settleRest]
  apply not_congr
  constructor
  · rintro ⟨i, rule, there, asked, opened, compound, reached⟩
    have within : i < declarations.length := by
      rw [← length_of_mapM accepted]
      exact (List.getElem?_eq_some_iff.mp there).1
    have declared := List.getElem?_eq_getElem within
    have parsed := eq_ok_of_mapM accepted declared there
    rw [Rule.isCompound_parse parsed] at compound
    exact ⟨i, _, rule, declared, there, compound, asked, opened, reached⟩
  · rintro ⟨i, declaration, rule, declared, there, compound, asked, opened, reached⟩
    have parsed := eq_ok_of_mapM accepted declared there
    rw [← Rule.isCompound_parse parsed] at compound
    exact ⟨i, rule, there, asked, opened, compound, reached⟩

/-- A number, and a text under a name that is a list. -/
def numberThenListed : List Spec :=
  [.text "n:num", .table [("type", .text "str"), ("name", .list [.text "x"])]]

def numberThenListedRules : List Rule :=
  [{ kind := .number, name := .text "n" }, { kind := .string, name := .list [.text "x"] }]

def plainInvocation : Invocation :=
  { message := { text := "", caller := .number 42 }, caller := .number 42 }

theorem parse_numberThenListed :
    numberThenListed.mapM Rule.parse = .ok numberThenListedRules :=
  rfl

/-- A token that is no number is refused before binding comes to the text. -/
theorem misfits_unreached :
    numberThenListed.mapM Rule.parse = .ok numberThenListedRules ∧
      ((∃ arguments, bind plainInvocation numberThenListedRules ["a", "b"] [] = .ok arguments) ∨
        ∃ failure, bind plainInvocation numberThenListedRules ["a", "b"] [] = .error failure ∧
          failure.isMisfit = true) := by
  refine ⟨parse_numberThenListed, ?_⟩
  apply (binds_or_misfits_iff parse_numberThenListed plainInvocation ["a", "b"] []).mpr
  rintro ⟨i, declaration, rule, declared, there, compound, asked, opened, left, reached⟩
  match i with
  | 0 =>
    obtain rfl := Option.some.inj declared
    cases compound
  | 1 => cases reached
  | i + 2 => cases there

/-- With a number in front, binding comes to the text and ends in a failure that is none of its
own. -/
theorem neither_binds_nor_misfits :
    numberThenListed.mapM Rule.parse = .ok numberThenListedRules ∧
      ¬ ((∃ arguments, bind plainInvocation numberThenListedRules ["1", "b"] [] = .ok arguments) ∨
        ∃ failure, bind plainInvocation numberThenListedRules ["1", "b"] [] = .error failure ∧
          failure.isMisfit = true) := by
  refine ⟨parse_numberThenListed, ?_⟩
  have mismatched : bind plainInvocation numberThenListedRules ["1", "b"] [] =
      .error (.mismatch "unhashable type: 'list'") := rfl
  rw [mismatched]
  rintro (⟨arguments, bound⟩ | ⟨failure, failed, misfit⟩)
  · cases bound
  · obtain rfl := Except.error.inj failed
    cases misfit

end Binding
end Switchboard
