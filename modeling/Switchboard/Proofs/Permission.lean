import Switchboard.Proofs.Dispatch

/-!
Who may change the level of whom. Levels change only where the builtin command that assigns them is
admitted, and it asks the level of the caller of the line both for the level that the target has and
for the one that the target gets.
-/
namespace Switchboard

open Work

namespace Bot

/-- The level that a caller has in a dispatch. -/
def heldLevel (bot : Bot) (caller : CallerId) : Level :=
  match bot.config.isSuperuser caller with
  | .ok true => .unbounded
  | _ => .finite ((bot.levels caller).getD 0)

theorem heldLevel_of_standing {bot later : Bot} (same : later.standing = bot.standing) :
    later.heldLevel = bot.heldLevel := by
  have config : later.config = bot.config := congrArg Standing.config same
  funext caller
  rw [heldLevel, heldLevel, config, levels_of_standing same]

/-- Whether an assignment of a level, asked for with a permission check, takes effect. -/
structure Grants (bot : Bot) (check : Argument) (target : CallerId) (level : Int) : Prop where
  ordinary : bot.config.isSuperuser target = .ok false
  readable : bot.disturbances.lookup .getLevel = none
  found : bot.store.users?.isSome
  above : check.ask (.value (.int ((bot.levels target).getD 0)))
    (some "changing this caller") = .ok ()
  granted : check.ask (.value (.int level)) (some "granting this level") = .ok ()
  writable : bot.disturbances.lookup .setLevel = none

end Bot

theorem Argument.ask_int {check : Argument} {n : Int} {reason : Option String}
    (passed : check.ask (.value (.int n)) reason = .ok ()) :
    ∃ held, check = .permissionCheck held ∧ held.isBelow n = false := by
  cases check with
  | permissionCheck held =>
    refine ⟨held, rfl, ?_⟩
    cases below : held.isBelow n with
    | false => rfl
    | true =>
      cases held <;> simp_all [ask, datum?, Level.isBelowDatum?]
  | _ => cases passed

namespace Builtin

open Switchboard.Bot

/-- The level that a target is given; level zero is the same as none. -/
def assigned (level : Int) : Option Int :=
  if level = 0 then none else some level

/-- The levels after one of them was assigned: every id with the same key has it too. -/
def reassigned (levels : CallerId → Option Int) (target : CallerId) (level : Int) :
    CallerId → Option Int :=
  fun other => if Users.key target = Users.key other then assigned level else levels other

theorem run_level_read (bot : Bot) (target : CallerId)
    (readable : bot.disturbances.lookup .getLevel = none) (found : bot.store.users?.isSome) :
    ∃ later, (onStore .getLevel (Store.level? target)).run bot = (.ok (bot.levels target), later) ∧
      later.standing = bot.standing := by
  obtain ⟨users, present⟩ := Option.isSome_iff_exists.mp found
  refine ⟨bot.takeStore bot.store.reloaded, ?_, ?_⟩
  · rw [run_onStore, readable, Store.level?, Store.run_read_some present]
    simp only [levels, Store.levelNow_eq, present, Option.bind_some]
  · have kept := unmoved_standing.read .getLevel (Users.level? · (Users.key target)) bot
    rw [run_onStore, readable, Store.run_read_some present] at kept
    exact kept

/-- A level can only be read where nothing disturbs it and entries are found. -/
theorem readable_of_run_level {bot later : Bot} {target : CallerId} {level : Option Int}
    (read : (onStore .getLevel (Store.level? target)).run bot = (.ok level, later)) :
    bot.disturbances.lookup .getLevel = none ∧ bot.store.users?.isSome := by
  rw [run_onStore] at read
  cases disturbed : bot.disturbances.lookup .getLevel with
  | some failure =>
    rw [disturbed] at read
    cases read
  | none =>
    rw [disturbed] at read
    refine ⟨rfl, ?_⟩
    cases found : bot.store.users? with
    | some users => rfl
    | none =>
      obtain ⟨failure, store, failed, -⟩ :=
        Store.run_read_none found (Users.level? · (Users.key target))
      rw [Store.level?, failed] at read
      cases read

theorem eq_of_run_level {bot later : Bot} {target : CallerId} {level : Option Int}
    (read : (onStore .getLevel (Store.level? target)).run bot = (.ok level, later)) :
    level = bot.levels target := by
  obtain ⟨readable, found⟩ := readable_of_run_level read
  obtain ⟨_, again, -⟩ := run_level_read bot target readable found
  rw [read] at again
  exact Except.ok.inj (Prod.mk.inj again).1

theorem run_setLevel {bot later : Bot} (same : later.standing = bot.standing)
    (writable : bot.disturbances.lookup .setLevel = none) (found : bot.store.users?.isSome)
    (target : CallerId) (level : Int) :
    ((onStore .setLevel (Store.setLevel target (assigned level))).run later).2.levels =
      reassigned bot.levels target level := by
  have undisturbed : later.disturbances.lookup .setLevel = none := by
    rw [← writable]
    exact congrArg (fun standing => standing.disturbances.lookup .setLevel) same
  have present : later.store.users?.isSome = true := by
    rw [← found]
    exact congrArg (fun standing => standing.rights.found) same
  funext other
  rw [run_onStore, undisturbed]
  dsimp only
  rw [levels_takeStore, Store.levelNow_setLevel, reassigned, present, ← levels_of_standing same]
  simp only [true_and]
  rfl

/-- An assignment that is granted takes effect on every id with the key of its target. -/
theorem levels_of_grants {bot : Bot} {check : Argument} {target : CallerId} {level : Int}
    (grants : bot.Grants check target level) :
    ((assignLevel check target level).run bot).2.levels = reassigned bot.levels target level := by
  obtain ⟨later, read, same⟩ := run_level_read bot target grants.readable grants.found
  unfold assignLevel
  rw [run_bind_ok _ (run_get bot), grants.ordinary, run_bind_ok _ (run_ofExcept _ bot)]
  dsimp only
  rw [if_neg Bool.false_ne_true, run_bind_ok _ read]
  rw [grants.above, run_bind_ok _ (run_ofExcept _ later)]
  rw [grants.granted, run_bind_ok _ (run_ofExcept _ later)]
  rw [Keeps.after_bind levels fun _ => .pure _]
  exact run_setLevel same grants.writable grants.found target level

/-- An assignment that is not granted comes to no more than reading the level of its target. -/
theorem view_of_not_grants {γ : Type} {view : Bot → γ}
    (kept : ∀ target, Keeps view (onStore .getLevel (Store.level? target))) {bot : Bot}
    {check : Argument} {target : CallerId} {level : Int}
    (refuses : ¬ bot.Grants check target level) :
    view ((assignLevel check target level).run bot).2 = view bot := by
  unfold assignLevel
  rw [run_bind_ok _ (run_get bot)]
  cases ordinary : bot.config.isSuperuser target with
  | error failure => rw [run_bind_error _ (run_ofExcept _ bot)]
  | ok superuser =>
    rw [run_bind_ok _ (run_ofExcept _ bot)]
    cases superuser with
    | true => rfl
    | false =>
      dsimp only
      rw [if_neg Bool.false_ne_true]
      have unchanged := kept target bot
      have standing : Keeps standing (onStore .getLevel (Store.level? target)) :=
        unmoved_standing.read .getLevel _
      have same := standing bot
      rcases read : (onStore .getLevel (Store.level? target)).run bot with ⟨result, later⟩
      rw [read] at unchanged same
      cases result with
      | error failure =>
        rw [run_bind_error _ read]
        exact unchanged
      | ok level? =>
        obtain ⟨readable, found⟩ := readable_of_run_level read
        obtain rfl := eq_of_run_level read
        rw [run_bind_ok _ read]
        cases above : check.ask (.value (.int ((bot.levels target).getD 0)))
            (some "changing this caller") with
        | error failure =>
          rw [run_bind_error _ (run_ofExcept _ later)]
          exact unchanged
        | ok _ =>
          rw [run_bind_ok _ (run_ofExcept _ later)]
          cases granted : check.ask (.value (.int level)) (some "granting this level") with
          | error failure =>
            rw [run_bind_error _ (run_ofExcept _ later)]
            exact unchanged
          | ok _ =>
            rw [run_bind_ok _ (run_ofExcept _ later)]
            rw [Keeps.after_bind view fun _ => .pure _, run_onStore]
            cases disturbed : bot.disturbances.lookup .setLevel with
            | none => exact absurd ⟨ordinary, readable, found, above, granted, disturbed⟩ refuses
            | some failure =>
              have blocked : later.disturbances.lookup .setLevel = some failure := by
                rw [← disturbed]
                exact congrArg (fun standing => standing.disturbances.lookup .setLevel) same
              rw [blocked]
              exact unchanged

/-- An assignment that is not granted changes no level. -/
theorem levels_of_not_grants {bot : Bot} {check : Argument} {target : CallerId} {level : Int}
    (refuses : ¬ bot.Grants check target level) :
    ((assignLevel check target level).run bot).2.levels = bot.levels :=
  view_of_not_grants (fun _ => (unmoved_standing.read .getLevel _).weaken
    fun _ _ => levels_of_standing) refuses

end Builtin

namespace Bot

theorem level_of_levelOf {bot later : Bot} {caller : CallerId} {level : Level}
    (held : (storedTables.levelOf caller).run bot = (.ok level, later)) :
    level = bot.heldLevel caller := by
  rw [CallerTables.levelOf, run_bind_ok _ (run_get bot)] at held
  obtain ⟨superuser, middle, decided, rest⟩ := run_bind_eq_ok held
  rw [run_ofExcept] at decided
  obtain ⟨known, rfl⟩ := Prod.mk.inj decided
  cases superuser with
  | true =>
    cases rest
    simp only [heldLevel, known]
  | false =>
    rw [if_neg Bool.false_ne_true] at rest
    obtain ⟨stored, last, read, done⟩ := run_bind_eq_ok rest
    cases done
    rw [Builtin.eq_of_run_level read]
    simp only [heldLevel, known]

/-- A permission check that a line has for a handler holds the level of its caller. -/
theorem permissionCheck_of_gate {message : Message} {text : String} {bot later : Bot}
    {admission : Admission}
    (admitted : (storedTables.gate message text).run bot = (.ok admission, later)) {held : Level}
    (member : .permissionCheck held ∈ admission.arguments) :
    held = bot.heldLevel message.caller := by
  obtain ⟨reading, middle, read, same⟩ := CallerTables.permissionCheck_of_gate admitted member
  obtain ⟨known, last, asked, level⟩ := CallerTables.level_of_readLine read
  have kept := unmoved_standing.storedTables.variablesOf (fun _ _ => rfl) message.caller bot
  rw [asked] at kept
  rw [same, level_of_levelOf level, heldLevel_of_standing kept]

/-- Whether a line assigns a level: the command that does it is admitted, and what it is called with
takes effect. -/
def Assigns (bot : Bot) (message : Message) (target : String) (level : Int) : Prop :=
  ∃ command check later,
    (storedTables.gate message (lineOf message.text)).run (bot.receive message) =
      (.ok { command, handler := .builtin .setLevel
             arguments := [check, .value (.text target), .value (.int level)] }, later) ∧
    bot.Grants check (.name target) level

theorem grants_of_standing {bot later : Bot} (same : later.standing = bot.standing)
    {check : Argument} {target : CallerId} {level : Int}
    (grants : later.Grants check target level) : bot.Grants check target level := by
  have config : later.config = bot.config := congrArg Standing.config same
  have disturbances : later.disturbances = bot.disturbances := congrArg Standing.disturbances same
  have found : later.store.users?.isSome = bot.store.users?.isSome :=
    congrArg (fun standing => standing.rights.found) same
  have levels := levels_of_standing same
  exact {
    ordinary := config ▸ grants.ordinary
    readable := disturbances ▸ grants.readable
    found := found ▸ grants.found
    above := levels ▸ grants.above
    granted := grants.granted
    writable := disturbances ▸ grants.writable }

end Bot

namespace Builtin

/-- The command that assigns levels does nothing with arguments of another shape. -/
theorem run_setLevel_cases (arguments : List Argument) :
    (∃ check target level, arguments = [check, .value (.text target), .value (.int level)]) ∨
      Keeps Bot.levels (Builtin.setLevel.run arguments) := by
  generalize same : Builtin.setLevel = builtin
  unfold Builtin.run
  split
  case h_13 => exact .inl ⟨_, _, _, rfl⟩
  case h_14 => exact .inr (.throw _)
  all_goals cases same

end Builtin

namespace Services

open Switchboard.Bot

/-- A handler either assigns a level or keeps them all. -/
theorem levels_handle {others : Handler → List Argument → BotM Outcome}
    (kept : OthersKeep levels others) (handler : Handler) (arguments : List Argument) :
    (∃ check target level, handler = .builtin .setLevel ∧
      arguments = [check, .value (.text target), .value (.int level)]) ∨
      Keeps levels ((servicesWith others).handle handler arguments) := by
  by_cases assigns : handler = .builtin .setLevel
  · subst assigns
    obtain ⟨check, target, level, same⟩ | kept := Builtin.run_setLevel_cases arguments
    · exact .inl ⟨check, target, level, rfl, same⟩
    · exact .inr kept
  · refine .inr (keeps_handle kept handler arguments ?_)
    rintro builtin rfl
    have standing := Builtin.keeps_run unmoved_standing builtin fun same =>
      absurd (congrArg Handler.builtin same) assigns
    exact (standing arguments).weaken fun _ _ => levels_of_standing

variable {others : Handler → List Argument → BotM Outcome}

theorem standing_of_gate {message : Message} {bot later : Bot} {result : Except Fault Admission}
    (decided : (storedTables.gate message (lineOf message.text)).run (bot.receive message) =
      (result, later)) : later.standing = bot.standing := by
  have kept := unmoved_standing.storedTables.gate (fun _ _ => rfl) message (lineOf message.text)
    (bot.receive message)
  rw [decided] at kept
  exact kept

/-- A line that assigns a level gives it to every id with the key of its target. -/
theorem levels_after_of_assigns {bot : Bot} {message : Message} {target : String} {level : Int}
    (assigns : bot.Assigns message target level) :
    ((servicesWith others).after bot message).levels =
      Builtin.reassigned bot.levels (.name target) level := by
  obtain ⟨command, check, later, admitted, grants⟩ := assigns
  have same := standing_of_gate admitted
  have handled := after_admitted (servicesWith others) silent_standing admitted
  rw [levels_of_standing handled, ← levels_of_standing same]
  exact Builtin.levels_of_grants (grants_of_standing same.symm grants)

/-- A line that assigns no level changes none. -/
theorem levels_after_of_not_assigns (kept : OthersKeep levels others)
    {bot : Bot} {message : Message} (idle : ∀ target level, ¬ bot.Assigns message target level) :
    ((servicesWith others).after bot message).levels = bot.levels := by
  rcases decided : (storedTables.gate message (lineOf message.text)).run (bot.receive message) with
    ⟨result, later⟩
  have same := standing_of_gate decided
  cases result with
  | error fault =>
    have settled := after_refused (servicesWith others) silent_standing decided
    rw [levels_of_standing settled, levels_of_standing same]
  | ok admission =>
    have handled := after_admitted (servicesWith others) silent_standing decided
    rw [levels_of_standing handled, ← levels_of_standing same]
    obtain ⟨command, handler, arguments⟩ := admission
    obtain ⟨check, target, level, rfl, rfl⟩ | unchanged := levels_handle kept handler arguments
    · refine Builtin.levels_of_not_grants fun grants => ?_
      exact idle target level ⟨command, check, later, decided, grants_of_standing same grants⟩
    · exact unchanged later

/-! ### No escalation -/

theorem getD_assigned (level : Int) : (Builtin.assigned level).getD 0 = level := by
  unfold Builtin.assigned
  split
  · rename_i zero
    rw [zero, Option.getD_none]
  · rw [Option.getD_some]

/-- A check that a level passes is passed by all that is not above it. -/
theorem le_of_ask {caller : Level} {held n : Int} {check : Argument} {reason : Option String}
    (same : caller = .finite held) (own : ∀ level, check = .permissionCheck level → level = caller)
    (passed : check.ask (.value (.int n)) reason = .ok ()) : n ≤ held := by
  obtain ⟨level, rfl, above⟩ := Argument.ask_int passed
  obtain rfl := own level rfl
  rw [same, Level.isBelow, decide_eq_false_iff_not] at above
  omega

/-- A line of a caller who is no superuser changes only levels that are not above the caller's own,
and it does not put them above it. -/
theorem level_within (kept : OthersKeep levels others)
    (bot : Bot) (message : Message) (ordinary : bot.config.isSuperuser message.caller ≠ .ok true)
    (target : CallerId) :
    ((servicesWith others).after bot message).levels target = bot.levels target ∨
      (bot.levels target).getD 0 ≤ (bot.levels message.caller).getD 0 ∧
      (((servicesWith others).after bot message).levels target).getD 0 ≤
        (bot.levels message.caller).getD 0 := by
  by_cases assigning : ∃ name level, bot.Assigns message name level
  · obtain ⟨name, level, assigns⟩ := assigning
    rw [levels_after_of_assigns assigns, Builtin.reassigned]
    by_cases same : Users.key (.name name) = Users.key target
    · obtain ⟨command, check, later, admitted, grants⟩ := assigns
      have finite : bot.heldLevel message.caller =
          .finite ((bot.levels message.caller).getD 0) := by
        unfold heldLevel
        split
        · rename_i superuser
          exact absurd superuser ordinary
        · rfl
      have own : ∀ held, check = .permissionCheck held → held = bot.heldLevel message.caller := by
        intro held is
        subst is
        have same : held = (bot.receive message).heldLevel message.caller :=
          permissionCheck_of_gate admitted List.mem_cons_self
        exact same
      have above := le_of_ask finite own grants.above
      have granted := le_of_ask finite own grants.granted
      rw [if_pos same, getD_assigned]
      refine .inr ⟨?_, granted⟩
      -- What was checked is the level of the target as it is spelled; the store has one for its
      -- key.
      have equal : bot.levels (.name name) = bot.levels target :=
        Store.levelNow_congr same bot.store
      rw [← equal]
      exact above
    · rw [if_neg same]
      exact .inl rfl
  · have idle : ∀ name level, ¬ bot.Assigns message name level :=
      fun name level assigns => assigning ⟨name, level, assigns⟩
    rw [levels_after_of_not_assigns kept idle]
    exact .inl rfl

/-- A run without a line that a superuser sends. -/
def Ordinary (services : Services) (bot : Bot) (messages : List Message) : Prop :=
  ∀ before message rest, messages = before ++ message :: rest →
    (services.afterAll bot before).config.isSuperuser message.caller ≠ .ok true

theorem Ordinary.head {services : Services} {bot : Bot} {message : Message}
    {messages : List Message} (ordinary : services.Ordinary bot (message :: messages)) :
    bot.config.isSuperuser message.caller ≠ .ok true :=
  ordinary [] message messages rfl

theorem Ordinary.tail {services : Services} {bot : Bot} {message : Message}
    {messages : List Message} (ordinary : services.Ordinary bot (message :: messages)) :
    services.Ordinary (services.after bot message) messages := by
  intro before other rest split
  exact ordinary (message :: before) other rest (by rw [split, List.cons_append])

theorem Ordinary.cons {services : Services} {bot : Bot} {message : Message}
    {messages : List Message} (ordinary : bot.config.isSuperuser message.caller ≠ .ok true)
    (rest : services.Ordinary (services.after bot message) messages) :
    services.Ordinary bot (message :: messages) := by
  intro before other later split
  cases before with
  | nil =>
    obtain ⟨rfl, -⟩ := List.cons.inj split
    exact ordinary
  | cons first before =>
    obtain ⟨rfl, inner⟩ := List.cons.inj split
    exact rest before other later inner

theorem levels_bounded (kept : OthersKeep levels others)
    (bot : Bot) (messages : List Message) (ordinary : (servicesWith others).Ordinary bot messages)
    {bound : Int} (positive : 0 ≤ bound)
    (bounded : ∀ target level, bot.levels target = some level → level ≤ bound) :
    ∀ target level, ((servicesWith others).afterAll bot messages).levels target = some level →
      level ≤ bound := by
  -- The bound is an invariant: the line's caller is itself not above it.
  induction messages generalizing bot with
  | nil => exact bounded
  | cons message messages ih =>
    refine ih _ ordinary.tail fun target level found => ?_
    obtain same | ⟨-, below⟩ := level_within kept bot message ordinary.head target
    · exact bounded target level (same ▸ found)
    · rw [found, Option.getD_some] at below
      refine Int.le_trans below ?_
      cases held : bot.levels message.caller with
      | none => exact positive
      | some level => exact bounded _ _ held

/-- No privilege escalation. Whatever lines callers send who are no superusers, each line leaves the
level of every id as it is, or takes it from a level that is not above the one of the line's caller
to another such level. So no run raises a level above zero and all levels at its start. -/
theorem no_escalation (kept : OthersKeep levels others) (bot : Bot) (messages : List Message)
    (ordinary : (servicesWith others).Ordinary bot messages) :
    (∀ before message rest, messages = before ++ message :: rest → ∀ target,
      let start := (servicesWith others).afterAll bot before
      let done := (servicesWith others).after start message
      let held := (start.levels message.caller).getD 0
      done.levels target = start.levels target ∨
        (start.levels target).getD 0 ≤ held ∧ (done.levels target).getD 0 ≤ held) ∧
    ∀ bound, 0 ≤ bound → (∀ target level, bot.levels target = some level → level ≤ bound) →
      ∀ target level, ((servicesWith others).afterAll bot messages).levels target = some level →
        level ≤ bound := by
  constructor
  · intro before message rest split target
    exact level_within kept _ message (ordinary before message rest split) target
  · intro bound positive bounded
    exact levels_bounded kept bot messages ordinary positive bounded

/-- A store that has a level for one caller. -/
def rankedStore : Store :=
  { memory := { state := { users := .table [("ann", .table [("perm", .int 5)])] } } }

/-- A bot with the builtin commands over that store. -/
def ranked : Bot :=
  withBuiltins { store := rankedStore }

/-- One caller hands a level down, and the next one another. -/
def handedDown : List Message :=
  [{ text := "perm.set ben 3", caller := .name "ann" },
   { text := "perm.set cat 2", caller := .name "ben" }]

/-- Levels are handed down from caller to caller, and none goes above the first. -/
theorem no_escalation_handedDown :
    (services.afterAll ranked handedDown).levels (.name "cat") = some 2 ∧
    ∀ target level, (services.afterAll ranked handedDown).levels target = some level →
      level ≤ 5 := by
  have ordinary : services.Ordinary ranked handedDown := by
    refine .cons (fun superuser => ?_) (.cons (fun superuser => ?_) ?_)
    · have ann : (ranked.config.isSuperuser (.name "ann")).toOption = some false := by
        decide +kernel
      rw [superuser] at ann
      cases ann
    · have ben : ((services.after ranked { text := "perm.set ben 3", caller := .name "ann" }
          ).config.isSuperuser (.name "ben")).toOption = some false := by
        decide +kernel
      rw [superuser] at ben
      cases ben
    intro before message rest split
    exact absurd split.symm (List.append_ne_nil_of_right_ne_nil _ (List.cons_ne_nil _ _))
  have bounded : ∀ target level, ranked.levels target = some level → level ≤ 5 := by
    intro target level found
    have present : rankedStore.users? = some [("ann", .table [("perm", .int 5)])] := rfl
    have same : ranked.levels = rankedStore.levelNow := view_withBuiltins levels (fun _ _ => rfl) _
    rw [same, Store.levelNow_eq, present, Option.bind_some, Users.level?_eq, Users.entryOf?,
      Table.get?_cons] at found
    by_cases known : "ann" = Users.key target
    · rw [if_pos known] at found
      obtain rfl : 5 = level := Option.some.inj found
      exact Int.le_refl 5
    · rw [if_neg known] at found
      cases found
  refine ⟨by decide +kernel, ?_⟩
  exact (no_escalation (othersKeep_outcomeOf fun _ _ => rfl) ranked handedDown ordinary).2 5
    (by decide) bounded

end Services
end Switchboard
