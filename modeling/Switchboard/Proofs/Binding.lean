import Switchboard.Binding
import Switchboard.Proofs.Rounding
import Switchboard.Proofs.Work

/-!
What binding gives: one argument for each rule, which is a value that can be written or what the
invocation supplies by itself. What it fails with is never a failure that a handler reports.
-/
namespace Switchboard

/-- Whether a failure is one that a handler reports to its caller. -/
def Failure.isReported : Failure → Bool
  | .handled .. => true
  | _ => false

/-- A value that can be written, or what an invocation supplies by itself to a rule of some kind. -/
def Argument.IsFrom (invocation : Invocation) (argument : Argument) : Prop :=
  (∃ d, argument = .value d ∧ d.isWritable = true) ∨
    ∃ kind, invocation.argument? kind = some argument

/-- A whole number that a double equals has few enough digits to be written. -/
theorem Binary64.hasWritableDigits_of_toInt? {x : Binary64} (canonical : x.IsCanonical) {n : Int}
    (whole : x.toInt? = some n) : hasWritableDigits n = true := by
  cases x with
  | infinity | nan => cases whole
  | finite negative m e =>
    obtain ⟨small, -, most, -⟩ := canonical
    have exponent : 53 + e.toNat < wholeNumberDigits := by
      unfold maxExponent at most
      unfold wholeNumberDigits
      omega
    have limit : m * 2 ^ e.toNat < 10 ^ wholeNumberDigits := by
      calc
        m * 2 ^ e.toNat < 2 ^ 53 * 2 ^ e.toNat := Nat.mul_lt_mul_of_pos_right small (by positivity)
        _ = 2 ^ (53 + e.toNat) := (pow_add 2 53 e.toNat).symm
        _ ≤ 10 ^ (53 + e.toNat) := Nat.pow_le_pow_left (by decide) _
        _ < 10 ^ wholeNumberDigits := Nat.pow_lt_pow_right (by decide) exponent
    have size : n.natAbs ≤ m * 2 ^ e.toNat := by
      have signed (k : Nat) : (if negative then -(k : Int) else k).natAbs = k := by
        cases negative <;> simp
      unfold toInt? at whole
      dsimp only at whole
      split at whole
      · obtain rfl := Option.some.inj whole
        exact (signed _).le
      · split at whole
        · obtain rfl := Option.some.inj whole
          rw [signed]
          exact (Nat.div_le_self _ _).trans (Nat.le_mul_of_pos_right m (by positivity))
        · cases whole
    rw [hasWritableDigits, decide_eq_true_eq, Nat.pow_eq]
    generalize 10 ^ wholeNumberDigits = bound at limit ⊢
    exact size.trans_lt limit

namespace Binding

open Work

/-- Whatever a rule makes of what the caller supplied can be written. -/
theorem isWritable_coerce {rule : Rule} {raw bound : Document}
    (coerced : rule.coerce raw = .ok bound) : bound.isWritable = true := by
  unfold Rule.coerce at coerced
  split at coerced
  · unfold Rule.coerceNumber Rule.reject at coerced
    split at coerced
    · cases coerced
    · split at coerced
      · cases coerced
      · dsimp only at coerced
        split at coerced <;> cases coerced
        unfold Rule.numberDatum
        split
        · rename_i n whole
          exact Binary64.hasWritableDigits_of_toInt? (Binary64.isCanonical_ofNumeral _) whole
        · rfl
  · unfold Rule.coerceBoolean Rule.reject at coerced
    split at coerced <;> cases coerced <;> rfl
  · cases coerced
    unfold Rule.coerceString
    split <;> rfl
  · cases coerced

theorem isReported_coerce {rule : Rule} {raw : Document} {failure : Failure}
    (failed : rule.coerce raw = .error failure) : failure.isReported = false := by
  unfold Rule.coerce at failed
  split at failed
  · unfold Rule.coerceNumber Rule.reject at failed
    split at failed
    · cases failed; rfl
    · split at failed
      · cases failed; rfl
      · dsimp only at failed
        split at failed <;> cases failed
        rfl
  · unfold Rule.coerceBoolean Rule.reject at failed
    split at failed <;> cases failed
    rfl
  · cases failed
  · cases failed; rfl

theorem isReported_supply {rule : Rule} {positional : List String} {named : Table OptionValue}
    {failure : Failure} (failed : supply rule positional named = .error failure) :
    failure.isReported = false := by
  unfold supply at failed
  cases passed : namedValue? rule named with
  | error cause =>
    rw [passed, error_bind] at failed
    obtain rfl := Except.error.inj failed
    unfold namedValue? at passed
    split at passed <;> cases passed <;> rfl
  | ok value =>
    rw [passed, ok_bind] at failed
    cases value with
    | some value =>
      dsimp only at failed
      split at failed <;> cases failed
      rfl
    | none =>
      dsimp only at failed
      split at failed
      · cases failed
      · split at failed
        · cases failed
        · split at failed <;> cases failed
          rfl

/-- A rule is either what binding fails at, or gives one argument and leaves the others to bind. -/
theorem bindThen_cons (finish : List String → Table OptionValue → Except Failure (List Argument))
    (invocation : Invocation) (rule : Rule) (rules : List Rule) (positional : List String)
    (named : Table OptionValue) :
    (∃ failure, bindThen finish invocation (rule :: rules) positional named = .error failure ∧
      failure.isReported = false) ∨
    ∃ argument left leftNamed, argument.IsFrom invocation ∧
      bindThen finish invocation (rule :: rules) positional named =
        (argument :: ·) <$> bindThen finish invocation rules left leftNamed := by
  rw [bindThen]
  split
  · exact .inl ⟨_, rfl, rfl⟩
  · split
    · rename_i argument supplied
      exact .inr ⟨argument, positional, named, .inr ⟨_, supplied⟩, (map_eq_pure_bind _ _).symm⟩
    · split
      · exact .inr ⟨_, [], named, .inl ⟨_, rfl, rfl⟩, (map_eq_pure_bind _ _).symm⟩
      · cases given : supply rule positional named with
        | error failure => exact .inl ⟨failure, rfl, isReported_supply given⟩
        | ok found =>
          rw [ok_bind]
          cases found with
          | absent =>
            exact .inr ⟨_, positional, named, .inl ⟨_, rfl, rfl⟩, (map_eq_pure_bind _ _).symm⟩
          | named value =>
            cases coerced : rule.coerce (optionDatum value) with
            | error failure =>
              refine .inl ⟨failure, ?_, isReported_coerce coerced⟩
              simp only [coerced, error_bind]
            | ok bound =>
              refine .inr ⟨.value bound, positional, withoutName rule named,
                .inl ⟨_, rfl, isWritable_coerce coerced⟩, ?_⟩
              simp only [coerced, ok_bind, map_eq_pure_bind]
          | next token =>
            cases coerced : rule.coerce (.text token) with
            | error failure =>
              refine .inl ⟨failure, ?_, isReported_coerce coerced⟩
              simp only [coerced, error_bind]
            | ok bound =>
              refine .inr ⟨.value bound, positional.tail, named,
                .inl ⟨_, rfl, isWritable_coerce coerced⟩, ?_⟩
              simp only [coerced, ok_bind, map_eq_pure_bind]

section BindThen

variable {finish : List String → Table OptionValue → Except Failure (List Argument)}
variable {invocation : Invocation}

theorem isFrom_bindThen
    (finished : ∀ positional named arguments, finish positional named = .ok arguments →
      ∀ argument ∈ arguments, argument.IsFrom invocation)
    (rules : List Rule) (positional : List String) (named : Table OptionValue)
    {arguments : List Argument}
    (bound : bindThen finish invocation rules positional named = .ok arguments) :
    ∀ argument ∈ arguments, argument.IsFrom invocation := by
  induction rules generalizing positional named arguments with
  | nil => exact finished _ _ _ bound
  | cons rule rules ih =>
    obtain ⟨failure, failed, -⟩ | ⟨first, left, leftNamed, supplied, same⟩ :=
      bindThen_cons finish invocation rule rules positional named
    · rw [failed] at bound
      cases bound
    · rw [same] at bound
      cases rest : bindThen finish invocation rules left leftNamed with
      | error failure =>
        rw [rest] at bound
        cases bound
      | ok others =>
        rw [rest] at bound
        obtain rfl := Except.ok.inj bound
        intro argument member
        rcases List.mem_cons.mp member with rfl | later
        · exact supplied
        · exact ih left leftNamed rest argument later

theorem isReported_bindThen
    (finished : ∀ positional named failure, finish positional named = .error failure →
      failure.isReported = false)
    (rules : List Rule) (positional : List String) (named : Table OptionValue) {failure : Failure}
    (failed : bindThen finish invocation rules positional named = .error failure) :
    failure.isReported = false := by
  induction rules generalizing positional named with
  | nil => exact finished _ _ _ failed
  | cons rule rules ih =>
    obtain ⟨cause, stopped, unreported⟩ | ⟨first, left, leftNamed, -, same⟩ :=
      bindThen_cons finish invocation rule rules positional named
    · rw [stopped] at failed
      obtain rfl := Except.error.inj failed
      exact unreported
    · rw [same] at failed
      cases rest : bindThen finish invocation rules left leftNamed with
      | error cause =>
        rw [rest] at failed
        obtain rfl := Except.error.inj failed
        exact ih left leftNamed rest
      | ok others =>
        rw [rest] at failed
        cases failed

end BindThen

theorem settleRest_ok {positional : List String} {named : Table OptionValue}
    {arguments : List Argument} (settled : settleRest positional named = .ok arguments) :
    arguments = [] := by
  unfold settleRest at settled
  split at settled
  · cases settled
  · split at settled <;> cases settled
    rfl

theorem isReported_settleRest {positional : List String} {named : Table OptionValue}
    {failure : Failure} (failed : settleRest positional named = .error failure) :
    failure.isReported = false := by
  unfold settleRest at failed
  split at failed
  · cases failed; rfl
  · split at failed <;> cases failed
    rfl

variable {invocation : Invocation} {parameters : List Parameter} {positional : List String}
variable {named : Table OptionValue}

/-- A handler gets nothing but values and what the invocation supplies by itself. -/
theorem isFrom_bindParameters {arguments : List Argument}
    (bound : bindParameters invocation parameters positional named = .ok arguments) :
    ∀ argument ∈ arguments, argument.IsFrom invocation := by
  unfold bindParameters at bound
  split at bound
  · refine isFrom_bindThen (fun positional named arguments settled => ?_) _ _ _ bound
    rw [settleRest_ok settled]
    intro argument member
    cases member
  · refine isFrom_bindThen (fun positional named arguments unread => ?_) _ _ _ bound
    cases unread

/-- A permission check that a handler gets holds the level of the invocation. -/
theorem permissionCheck_of_bindParameters {arguments : List Argument}
    (bound : bindParameters invocation parameters positional named = .ok arguments) {held : Level}
    (member : .permissionCheck held ∈ arguments) : held = invocation.level := by
  obtain ⟨d, value, -⟩ | ⟨kind, supplied⟩ := isFrom_bindParameters bound _ member
  · cases value
  · unfold Invocation.argument? at supplied
    split at supplied <;> cases supplied
    rfl

/-- The only caller that a handler gets is that of the invocation. -/
theorem caller_of_bindParameters {arguments : List Argument}
    (bound : bindParameters invocation parameters positional named = .ok arguments)
    {caller : CallerId} (member : .caller caller ∈ arguments) : caller = invocation.caller := by
  obtain ⟨d, value, -⟩ | ⟨kind, supplied⟩ := isFrom_bindParameters bound _ member
  · cases value
  · unfold Invocation.argument? at supplied
    split at supplied <;> cases supplied
    rfl

/-- A value that a handler gets can be written. -/
theorem isWritable_of_bindParameters {arguments : List Argument}
    (bound : bindParameters invocation parameters positional named = .ok arguments) {d : Document}
    (member : .value d ∈ arguments) : d.isWritable = true := by
  obtain ⟨other, value, writable⟩ | ⟨kind, supplied⟩ := isFrom_bindParameters bound _ member
  · obtain rfl := Argument.value.inj value
    exact writable
  · unfold Invocation.argument? at supplied
    split at supplied <;> cases supplied

theorem isReported_bindParameters {failure : Failure}
    (failed : bindParameters invocation parameters positional named = .error failure) :
    failure.isReported = false := by
  unfold bindParameters at failed
  split at failed
  · exact isReported_bindThen (fun _ _ _ rest => isReported_settleRest rest) _ _ _ failed
  · refine isReported_bindThen (fun positional named failure unread => ?_) _ _ _ failed
    obtain rfl := Except.error.inj unread
    rfl

end Binding
end Switchboard
