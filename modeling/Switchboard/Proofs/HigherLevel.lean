import Switchboard.Proofs.Separation
import Switchboard.Proofs.Share

/-!
A higher level never hurts. Two bots that differ in nothing but the level of a caller decide alike
about a line of the caller, save that the one with the lower level may deny a permission. What is
bound for a handler is the same then, but for the level that a permission check holds.
-/
namespace Switchboard

open Work

namespace Work

variable {ε σ α β γ δ : Type}

/-- What a second run makes of a line that a first run had: it concurs with the first, unless that
failed for a cause that is excused. -/
inductive Improves (excused : ε → Prop) (results : α → β → Prop) : Except ε α → Except ε β → Prop
  | concur {result : Except ε α} {other : Except ε β} (same : Concur results result other) :
      Improves excused results result other
  | excused {failure : ε} {other : Except ε β} (cause : excused failure) :
      Improves excused results (.error failure) other

namespace Improves

variable {excused : ε → Prop} {results : α → β → Prop} {result : Except ε α} {other : Except ε β}

theorem ok {a : α} {b : β} (same : results a b) : Improves excused results (.ok a) (.ok b) :=
  .concur (.ok same)

theorem error (failure : ε) :
    Improves excused results (.error failure : Except ε α) (.error failure : Except ε β) :=
  .concur (.error failure)

theorem self (result : Except ε α) : Improves excused Eq result result :=
  .concur (concur_eq_iff.mpr rfl)

theorem of_ok {a : α} (improves : Improves excused results (.ok a) other) :
    ∃ b, other = .ok b ∧ results a b := by
  cases improves with
  | concur same =>
    cases same with
    | ok same => exact ⟨_, rfl, same⟩

theorem of_error {failure : ε} (improves : Improves excused results (.error failure) other)
    (unexcused : ¬ excused failure) : other = .error failure := by
  cases improves with
  | concur same =>
    cases same with
    | error => rfl
  | excused cause => exact absurd cause unexcused

theorem bind {finals : γ → δ → Prop} {next : α → Except ε γ} {otherNext : β → Except ε δ}
    (first : Improves excused results result other)
    (rest : ∀ a b, results a b → Improves excused finals (next a) (otherNext b)) :
    Improves excused finals (result >>= next) (other >>= otherNext) := by
  cases first with
  | concur same =>
    cases same with
    | ok same => exact rest _ _ same
    | error failure => exact .error failure
  | excused cause => exact .excused cause

theorem map {others : γ → δ → Prop} {f : α → γ} {g : β → δ}
    (improves : Improves excused results result other)
    (gives : ∀ a b, results a b → others (f a) (g b)) :
    Improves excused others (result.map f) (other.map g) := by
  cases improves with
  | concur same => exact .concur (same.map gives)
  | excused cause => exact .excused cause

end Improves

/-- Work that agrees improves if what follows it does. -/
theorem Agree.improves_bind {related : σ → σ → Prop} {results : α → β → Prop}
    {excused : ε → Prop} {finals : γ → δ → Prop} {work : ExceptT ε (StateM σ) α}
    {other : ExceptT ε (StateM σ) β} {next : α → ExceptT ε (StateM σ) γ}
    {otherNext : β → ExceptT ε (StateM σ) δ} (first : Agree related results work other)
    (rest : ∀ a b, results a b → ∀ s t, related s t →
      Improves excused finals ((next a).run s).1 ((otherNext b).run t).1)
    {s t : σ} (before : related s t) :
    Improves excused finals ((work >>= next).run s).1 ((other >>= otherNext).run t).1 := by
  obtain ⟨concur, still⟩ := first s t before
  rw [run_bind, run_bind]
  rcases ran : work.run s with ⟨result, later⟩
  rcases otherRan : other.run t with ⟨otherResult, otherLater⟩
  rw [ran, otherRan] at concur still
  cases concur with
  | ok same => exact rest _ _ same later otherLater still
  | error failure => exact .error failure

end Work

namespace Level

/-- Levels are ordered as numbers are, below the one that has no bound. -/
instance : LE Level where
  le
    | _, .unbounded => True
    | .finite n, .finite m => n ≤ m
    | .unbounded, .finite _ => False

theorem finite_le_finite {n m : Int} : Level.finite n ≤ .finite m ↔ n ≤ m :=
  Iff.rfl

theorem le_unbounded (level : Level) : level ≤ .unbounded :=
  trivial

theorem finite_le_iff {n : Int} {level : Level} : .finite n ≤ level ↔ level.isBelow n = false := by
  cases level with
  | finite m => rw [finite_le_finite, isBelow, decide_eq_false_iff_not, not_lt]
  | unbounded => exact iff_of_true (le_unbounded _) rfl

/-- What a level reaches is reached by all levels above it. -/
theorem isBelow_of_le {lower higher : Level} (le : lower ≤ higher) {n : Int}
    (reached : lower.isBelow n = false) : higher.isBelow n = false := by
  cases higher with
  | unbounded => rfl
  | finite m =>
    cases lower with
    | unbounded => cases le
    | finite k =>
      have fits : n ≤ k := finite_le_finite.mp (finite_le_iff.mpr reached)
      exact finite_le_iff.mp (finite_le_finite.mpr (fits.trans (finite_le_finite.mp le)))

end Level

/-- Whether a failure says that the caller's level does not reach. -/
def Failure.isDenial : Failure → Bool
  | .permissionDenied .. => true
  | _ => false

/-- An argument as a caller with some level gets it: a permission check holds that level. -/
def Argument.atLevel (level : Level) : Argument → Argument
  | .permissionCheck _ => .permissionCheck level
  | argument => argument

theorem Invocation.argument?_atLevel (invocation : Invocation) (level : Level) (kind : Kind) :
    ({ invocation with level } : Invocation).argument? kind =
      (invocation.argument? kind).map (·.atLevel level) := by
  cases kind <;> rfl

namespace Binding

variable {invocation : Invocation} {level : Level} {rule : Rule} {rules : List Rule}
variable {positional : List String} {named : Table OptionValue}

theorem isOpenTo_iff {level : Level} : rule.isOpenTo level = true ↔
    rule.permission = 0 ∨ level.isBelow rule.permission = false := by
  rw [Rule.isOpenTo, decide_eq_true_eq, Bool.not_eq_true]

theorem isOpenTo_mono {lower higher : Level} (le : lower ≤ higher)
    (isOpen : rule.isOpenTo lower = true) : rule.isOpenTo higher = true :=
  isOpenTo_iff.mpr ((isOpenTo_iff.mp isOpen).imp id (Level.isBelow_of_le le))

/-- What one rule takes does not depend on the level, as long as the level reaches. -/
theorem improves_take (le : invocation.level ≤ level) :
    Improves (·.isDenial = true)
      (fun found higher => higher = (found.1.atLevel level, found.2))
      (take invocation rule positional named)
      (take { invocation with level } rule positional named) := by
  cases isOpen : rule.isOpenTo invocation.level with
  | false =>
    rw [take_closed isOpen]
    exact .excused rfl
  | true =>
    have isOpenHigher : rule.isOpenTo ({ invocation with level } : Invocation).level = true :=
      isOpenTo_mono le isOpen
    obtain ⟨asked, -⟩ | ⟨-, -, kind⟩ | ⟨-, argument, own⟩ := kind_cases invocation rule
    · rw [take_asks isOpen asked, take_asks isOpenHigher asked]
      refine .bind (.self _) fun supplied _ same => ?_
      subst same
      cases supplied with
      | absent => exact .ok rfl
      | named value => exact .bind (.self _) fun _ _ same => .ok (same ▸ rfl)
      | next token => exact .bind (.self _) fun _ _ same => .ok (same ▸ rfl)
    · rw [take_rest isOpen kind, take_rest isOpenHigher kind]
      exact .ok rfl
    · have ownHigher : ({ invocation with level } : Invocation).argument? rule.kind =
          some (argument.atLevel level) := by
        rw [invocation.argument?_atLevel, own, Option.map_some]
      rw [take_own isOpen own, take_own isOpenHigher ownHigher]
      exact .ok rfl

/-- What is bound for a higher level is what was bound for a lower one, but for the level that a
permission check holds. -/
theorem improves_bindThen
    {finish : List String → Table OptionValue → Except Failure (List Argument)}
    (finished : ∀ positional named arguments, finish positional named = .ok arguments →
      arguments = [])
    (le : invocation.level ≤ level) (rules : List Rule) (positional : List String)
    (named : Table OptionValue) :
    Improves (·.isDenial = true)
      (fun arguments higher => higher = arguments.map (·.atLevel level))
      (bindThen finish invocation rules positional named)
      (bindThen finish { invocation with level } rules positional named) := by
  induction rules generalizing positional named with
  | nil =>
    rw [bindThen, bindThen]
    cases last : finish positional named with
    | error failure => exact .error failure
    | ok arguments =>
      rw [finished positional named arguments last]
      exact .ok rfl
  | cons rule rules ih =>
    rw [bindThen_eq_take, bindThen_eq_take]
    refine .bind (improves_take le) fun found higher same => ?_
    subst same
    obtain ⟨argument, left, leftNamed⟩ := found
    refine .bind (ih left leftNamed) fun arguments others same => ?_
    subst same
    exact .ok rfl

theorem improves_bindParameters (le : invocation.level ≤ level) (parameters : List Parameter) :
    Improves (·.isDenial = true)
      (fun arguments higher => higher = arguments.map (·.atLevel level))
      (bindParameters invocation parameters positional named)
      (bindParameters { invocation with level } parameters positional named) := by
  unfold bindParameters
  split
  · exact improves_bindThen (fun _ _ _ settled => settleRest_ok settled) le _ _ _
  · refine improves_bindThen (fun _ _ arguments unread => ?_) le _ _ _
    cases unread

/-- Whoever gets arguments bound has the level that each rule asks for. -/
theorem permission_le_of_bind {arguments : List Argument}
    (bound : bind invocation rules positional named = .ok arguments) {rule : Rule}
    (member : rule ∈ rules) (asks : rule.permission ≠ 0) :
    .finite rule.permission ≤ invocation.level := by
  obtain ⟨shares, shared, out, -⟩ := (bind_eq_iff (.ok arguments)).mp bound
  have reached := (isOpenTo_iff.mp (out.isOpen rule member)).resolve_left asks
  exact Level.finite_le_iff.mpr reached

end Binding

namespace Users

/-- All that can be asked about a caller but the level. -/
def Profile.withoutLevel (profile : Profile) : Profile :=
  { profile with level := none }

end Users

def Admission.atLevel (level : Level) (admission : Admission) : Admission :=
  { admission with arguments := admission.arguments.map (·.atLevel level) }

namespace Bot

theorem reading_atLevel (known : Table String) (lower higher : Level) (text : String) :
    reading known higher text =
      (reading known lower text).map fun line => { line with level := higher } := by
  unfold reading
  dsimp only
  split
  · rfl
  · split
    · rfl
    · rfl

namespace Reading

variable {line : Reading} {level : Level}

theorem improves_admission (le : line.level ≤ level) (command : String) (message : Message)
    (id : NodeId) (node : Node) :
    Improves (·.isDenial = true) (fun admission higher => higher = admission.atLevel level)
      (line.admission command message id node)
      ({ line with level }.admission command message id node) := by
  cases handled : node.handler with
  | none =>
    rw [admission_of_bare handled, admission_of_bare handled]
    exact .error _
  | some handler =>
    cases below : line.level.isBelow node.permission with
    | true =>
      rw [admission_of_below handled below]
      exact .excused rfl
    | false =>
      have still := Level.isBelow_of_le le below
      rw [admission_of_above handled below, admission_of_above handled still]
      have bound : Improves (·.isDenial = true)
          (fun arguments higher => higher = arguments.map (·.atLevel level))
          (line.arguments message id node) ({ line with level }.arguments message id node) :=
        Binding.improves_bindParameters le _
      exact bound.map fun _ _ same => congrArg (Admission.mk command handler) same

end Reading

namespace Outlook

/-- The level that a caller has by all that its lines are decided by. -/
def level (outlook : Outlook) (caller : CallerId) : Except Failure Level := do
  if ← outlook.config.isSuperuser caller then return .unbounded
  match outlook.disturbances.lookup .getLevel with
  | some failure => throw failure
  | none => return .finite ((← outlook.profile).level.getD 0)

/-- Two outlooks of a caller that differ in nothing that counts but the level of the caller. -/
structure DifferInLevel (caller : CallerId) (low high : Level) (lower higher : Outlook) :
    Prop where
  graph : lower.graph = higher.graph
  disturbances : lower.disturbances = higher.disturbances
  known : lower.known = higher.known
  profile : lower.profile.map Users.Profile.withoutLevel =
    higher.profile.map Users.Profile.withoutLevel
  low : lower.level caller = .ok low
  high : higher.level caller = .ok high

end Outlook

theorem run_level?_fst (bot : Bot) (caller : CallerId) :
    ((storedTables.level? caller).run bot).1 =
      match bot.disturbances.lookup .getLevel with
      | some failure => .error failure
      | none => (bot.store.profile (Users.key caller)).map (·.level) := by
  have asked : storedTables.level? caller =
      onStore .getLevel (Store.read (Users.level? · (Users.key caller))) := rfl
  rw [asked, run_onStore]
  cases bot.disturbances.lookup .getLevel with
  | some failure => rfl
  | none =>
    dsimp only
    rw [Store.run_read_fst, Store.profile]
    cases bot.store.found with
    | error failure => rfl
    | ok users => rfl

theorem run_levelOf_fst (bot : Bot) (caller : CallerId) :
    ((storedTables.levelOf caller).run bot).1 = (bot.outlook caller).level caller := by
  have asked := run_level?_fst bot caller
  unfold CallerTables.levelOf Outlook.level outlook
  dsimp only
  rw [run_bind_ok _ (run_get bot), run_bind, run_ofExcept]
  cases bot.config.isSuperuser caller with
  | error failure => rfl
  | ok superuser =>
    cases superuser with
    | true => rfl
    | false =>
      dsimp only
      rw [if_neg Bool.false_ne_true, ok_bind, if_neg Bool.false_ne_true, run_bind]
      rcases ran : (storedTables.level? caller).run bot with ⟨result, later⟩
      rw [ran] at asked
      obtain rfl := asked
      cases bot.disturbances.lookup .getLevel with
      | some failure => rfl
      | none =>
        cases bot.store.profile (Users.key caller) with
        | error failure => rfl
        | ok profile => rfl

theorem keeps_outlook_levelOf (caller other : CallerId) :
    Keeps (·.outlook caller) (storedTables.levelOf other) :=
  (storedTables_keep fun operation query =>
    keeps_outlook_read operation query caller).levelOf other

/-- Bots that differ in nothing that counts for a caller but the level of the caller. -/
def DifferInLevel (caller : CallerId) (low high : Level) (bot twin : Bot) : Prop :=
  Outlook.DifferInLevel caller low high (bot.outlook caller) (twin.outlook caller)

namespace DifferInLevel

variable {caller : CallerId} {low high : Level}

theorem graph_eq {bot twin : Bot} (differ : DifferInLevel caller low high bot twin) :
    bot.graph = twin.graph :=
  differ.graph

/-- Work that keeps what the caller's lines are decided by agrees if its results do. -/
theorem agree_of_keeps {α β : Type} {results : α → β → Prop} {work : BotM α} {other : BotM β}
    (kept : Keeps (·.outlook caller) work) (keptOther : Keeps (·.outlook caller) other)
    (same : ∀ bot twin, DifferInLevel caller low high bot twin →
      Concur results (work.run bot).1 (other.run twin).1) :
    Agree (DifferInLevel caller low high) results work other := by
  unfold DifferInLevel at same ⊢
  exact .of_keeps_alike kept keptOther same

/-- What is asked about the caller but the level is the same in both bots. -/
theorem agree_read {α : Type} (operation : StoreOperation) {query : Users.Entries → α}
    (seen : ∀ users others, (Users.profile users (Users.key caller)).withoutLevel =
      (Users.profile others (Users.key caller)).withoutLevel → query users = query others) :
    Agree (DifferInLevel caller low high) Eq (onStore operation (Store.read query))
      (onStore operation (Store.read query)) := by
  refine agree_of_keeps (keeps_outlook_read operation query caller)
    (keeps_outlook_read operation query caller) fun bot twin differ => concur_eq_iff.mpr ?_
  have disturbances : bot.disturbances = twin.disturbances := differ.disturbances
  have profile : Users.Profile.withoutLevel <$> (Users.profile · (Users.key caller)) <$>
      bot.store.found = Users.Profile.withoutLevel <$> (Users.profile · (Users.key caller)) <$>
      twin.store.found := differ.profile
  rw [Functor.map_map, Functor.map_map] at profile
  rw [run_onStore, run_onStore, disturbances]
  cases twin.disturbances.lookup operation with
  | some failure => rfl
  | none =>
    dsimp only
    rw [Store.run_read_fst, Store.run_read_fst]
    exact map_eq_of_map_eq seen profile

theorem agree_variablesOf :
    Agree (DifferInLevel caller low high) Eq (storedTables.variablesOf caller)
      (storedTables.variablesOf caller) := by
  refine agree_of_keeps (keeps_outlook_variablesOf caller caller)
    (keeps_outlook_variablesOf caller caller) fun bot twin differ => concur_eq_iff.mpr ?_
  rw [run_variablesOf_fst, run_variablesOf_fst]
  exact differ.known

theorem agree_levelOf :
    Agree (DifferInLevel caller low high) (fun lower higher => lower = low ∧ higher = high)
      (storedTables.levelOf caller) (storedTables.levelOf caller) := by
  refine agree_of_keeps (keeps_outlook_levelOf caller caller)
    (keeps_outlook_levelOf caller caller) fun bot twin differ => ?_
  rw [run_levelOf_fst, run_levelOf_fst, differ.low, differ.high]
  exact .ok ⟨rfl, rfl⟩

/-- A line is read as it is read at another level. -/
theorem agree_readLine (text : String) :
    Agree (DifferInLevel caller low high)
      (fun line other => line.level = low ∧ other = { line with level := high })
      (storedTables.readLine caller text) (storedTables.readLine caller text) := by
  refine agree_variablesOf.bind fun known _ same => ?_
  subst same
  refine agree_levelOf.bind fun lower higher levels => .ofExcept ?_
  obtain ⟨rfl, rfl⟩ := levels
  rw [reading_atLevel known lower higher]
  cases read : reading known lower text with
  | error failure => exact .error failure
  | ok line => exact .ok ⟨level_of_reading read, rfl⟩

end DifferInLevel

theorem improves_under {α β : Type} {results : α → β → Prop} {work : BotM α} {other : BotM β}
    {bot twin : Bot} (command : String)
    (improves : Improves (·.isDenial = true) results (work.run bot).1 (other.run twin).1) :
    Improves (·.failure.isDenial = true) results ((under command work).run bot).1
      ((under command other).run twin).1 := by
  rw [run_under, run_under]
  generalize (work.run bot).1 = result at improves ⊢
  generalize (other.run twin).1 = otherResult at improves ⊢
  cases improves with
  | concur same =>
    cases same with
    | ok same => exact .ok same
    | error failure => exact .error _
  | excused cause => exact .excused cause

/-- Everything that is decided about a line of the caller is decided alike for the higher level,
unless a permission is denied to the lower one. -/
theorem DifferInLevel.improves_gate {message : Message} {low high : Level} {bot twin : Bot}
    (le : low ≤ high) (differ : DifferInLevel message.caller low high bot twin) (text : String) :
    Improves (·.failure.isDenial = true) (fun admission higher => higher = admission.atLevel high)
      ((storedTables.gate message text).run bot).1
      ((storedTables.gate message text).run twin).1 := by
  have alias? (name : String) : Agree (DifferInLevel message.caller low high) Eq
      (storedTables.alias? message.caller name) (storedTables.alias? message.caller name) :=
    agree_read _ fun _ _ same =>
      congrArg (fun profile : Users.Profile => profile.command name) same
  have scopes : Agree (DifferInLevel message.caller low high) Eq
      (storedTables.scopes message.caller) (storedTables.scopes message.caller) :=
    agree_read _ fun _ _ same => congrArg Users.Profile.scopes same
  refine (agree_under (agree_readLine text) _).improves_bind ?_ differ
  rintro line _ ⟨rfl, rfl⟩ bot twin differ
  refine (agree_under (CallerTables.agree_resolveAlias alias? _) _).improves_bind ?_ differ
  intro command _ same bot twin differ
  subst same
  refine improves_under command ?_
  refine (CallerTables.agree_find?_of_scopes (fun _ _ => graph_eq) scopes command).improves_bind
    ?_ differ
  intro target _ same bot twin differ
  subst same
  cases target with
  | none => exact .error _
  | some id =>
    refine Agree.get.improves_bind ?_ differ
    intro now other same bot twin differ
    rw [run_ofExcept, run_ofExcept, ← same.graph_eq]
    exact Reading.improves_admission le command message id _

/-- What a bot decides about a message before any handler is called. -/
def decided (bot : Bot) (message : Message) : Except Fault Admission :=
  ((storedTables.gate message (lineOf message.text)).run (bot.receive message)).1

theorem obeys_decided (bot : Bot) (message : Message) :
    Services.Obeys bot message (bot.decided message) :=
  Services.obeys_of_gate rfl (keeps_frame_gate message _ (bot.receive message))

/-- A line that assigns a level, of a caller who has none. -/
def levelling : Message :=
  { text := "perm.set ben 0", caller := .name "ann" }

/-- A bot with the builtin commands that has the caller of that line for its superuser. -/
def indulgent : Bot :=
  { withBuiltins {} with config := { superusers := [.name "ann"] } }

end Bot
end Switchboard
