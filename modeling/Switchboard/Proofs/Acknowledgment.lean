import Switchboard.Proofs.DamagedFile
import Switchboard.Proofs.EntryField
import Switchboard.Proofs.Handler

/-!
What callers are told when they set a variable, an alias or a scope, and what the store has of it
then. The commands answer with the texts that they were given, and the store keeps them without the
blanks around them; a blank text names nothing. So what is acknowledged is kept exactly if the texts
are as they are when they are trimmed, or if it was there already and could not be named.
-/
namespace Switchboard

open Work Setting

/-! ### Preferences -/

/-- What a caller sets with a builtin command. -/
inductive Preference where
  | setVariable (name value : String)
  | setAlias (name target : String)
  | addScope (scope : String)
deriving DecidableEq, Repr

namespace Preference

def builtin : Preference → Builtin
  | .setVariable .. => .setVariable
  | .setAlias .. => .setAlias
  | .addScope _ => .addScope

/-- The arguments that the command is called with. -/
def arguments (caller : CallerId) : Preference → List Argument
  | .setVariable name value => [.caller caller, .value (.text name), .value (.text value)]
  | .setAlias name target => [.caller caller, .value (.text name), .value (.text target)]
  | .addScope scope => [.caller caller, .value (.text scope)]

/-- Calls the command. -/
def run (caller : CallerId) (preference : Preference) : BotM Outcome :=
  preference.builtin.run (preference.arguments caller)

/-- The answers by which the command acknowledges that it is set. -/
def acknowledgments : Preference → List String
  | .setVariable name value => [name ++ "=" ++ value]
  | .setAlias name target => [name ++ " -> " ++ target]
  | .addScope scope => ["now using " ++ scope ++ ".", "already using " ++ scope ++ "."]

/-- What the store is asked to do. -/
def setting : Preference → Setting
  | .setVariable name value => .setVariable name value
  | .setAlias name target => .setAlias name target
  | .addScope scope => .addScope scope

/-- The text that a preference is known by. -/
def name : Preference → String
  | .setVariable name _ => name
  | .setAlias name _ => name
  | .addScope scope => scope

/-- A preference that a store tells of when it is asked about a caller. -/
def IsKept (caller : CallerId) (store : Store) : Preference → Prop
  | .setVariable name value => ∃ known,
      ((Store.variables? caller).run store).1 = .ok (some known) ∧ known.get? name = some value
  | .setAlias name target => ((Store.alias? caller name).run store).1 = .ok (some target)
  | .addScope scope => ∃ scopes, ((Store.scopes caller).run store).1 = .ok scopes ∧ scope ∈ scopes

/-- A preference that entries tell of under a key. -/
def IsIn (users : Users.Entries) (key : String) : Preference → Prop
  | .setVariable name value => (Users.variables? users key).bind (·.get? name) = some value
  | .setAlias name target => Users.alias? users key name = some target
  | .addScope scope => scope ∈ Users.scopes users key

theorem isKept_iff (caller : CallerId) (store : Store) (preference : Preference) :
    preference.IsKept caller store ↔
      ∃ users, store.found = .ok users ∧ preference.IsIn users (Users.key caller) := by
  cases preference with
  | setVariable name value =>
    simp only [IsKept, IsIn, Store.variables?, Store.run_read_fst]
    cases store.found with
    | error failure => simp [Except.map]
    | ok users => simp [Except.map, Option.bind_eq_some_iff]
  | setAlias name target =>
    simp only [IsKept, IsIn, Store.alias?, Store.run_read_fst]
    cases store.found with
    | error failure => simp [Except.map]
    | ok users => simp [Except.map]
  | addScope scope =>
    simp only [IsKept, IsIn, Store.scopes, Store.run_read_fst]
    cases store.found with
    | error failure => simp [Except.map]
    | ok users => simp [Except.map]

theorem not_isIn_nil (preference : Preference) (key : String) : ¬ preference.IsIn [] key := by
  cases preference with
  | setVariable name value => exact nofun
  | setAlias name target => exact nofun
  | addScope scope => exact List.not_mem_nil

theorem isKept_log (caller : CallerId) (store : Store) (log : List Event)
    (preference : Preference) :
    preference.IsKept caller { store with log } ↔ preference.IsKept caller store := by
  rw [isKept_iff, isKept_iff, Store.found_log]

/-- What is set under the trimmed name, and shows under no other, shows under the name as it stands
exactly if that is trimmed. -/
theorem shows_iff (name : String) {shows before proper : Prop}
    (unnamed : Text.strip name = "" → (shows ↔ before))
    (elsewhere : Text.strip name ≠ "" → Text.strip name ≠ name → (shows ↔ before))
    (there : IsTrimmed name → (shows ↔ proper)) (trims : proper → IsTrimmed name) :
    shows ↔ proper ∨ ¬ IsTrimmed name ∧ before := by
  by_cases trimmed : IsTrimmed name
  · rw [there trimmed, or_iff_left fun loose => loose.1 trimmed]
  · rw [or_iff_right fun proper => trimmed (trims proper), and_iff_right trimmed]
    by_cases blank : Text.strip name = ""
    · exact unnamed blank
    · exact elsewhere blank fun same => trimmed ⟨same, same ▸ blank⟩

/-- What entries tell of after a preference was set in them. -/
theorem isIn_edit_iff (preference : Preference) (key : String) (users : Users.Entries) :
    preference.IsIn ((preference.setting.action.edit? key users).getD users) key ↔
      preference.setting.IsProper ∨
        ¬ IsTrimmed preference.name ∧ preference.IsIn users key := by
  cases preference with
  | setVariable name value =>
    have edited (named : Text.strip name ≠ "") :
        (Action.setVariable name (some value)).edit? key users =
          some (Users.setIn users key "env" (Text.strip name) value) := if_neg named
    refine shows_iff name (fun blank => ?_) (fun named apart => ?_) (fun trimmed => ?_) id
    · rw [setting, Setting.action, Action.edit?, if_pos blank, Option.getD_none]
    · rw [setting, Setting.action, edited named, Option.getD_some, IsIn, IsIn, Users.variable?_eq,
        Users.variable?_eq, Users.fieldAt?_setIn, if_neg apart]
    · rw [setting, Setting.action, edited (trimmed.1.symm ▸ trimmed.2), Option.getD_some, IsIn,
        Users.variable?_eq, Users.fieldAt?_setIn, if_pos trimmed.1]
      exact iff_of_true rfl trimmed
  | setAlias name target =>
    have edited (named : Text.strip name ≠ "") :
        (Action.setAlias name (some target)).edit? key users =
          Users.setAlias users key (Text.strip name)
            ((some (Text.strip target)).filter (· ≠ "")) := if_neg named
    have filled : (some (Text.strip target)).filter (· ≠ "") ≠ some "" := by
      intro same
      exact of_decide_eq_true (Option.filter_eq_some_iff.mp same).2 rfl
    refine shows_iff name (fun blank => ?_) (fun named apart => ?_) (fun trimmed => ?_) And.left
    · rw [setting, Setting.action, Action.edit?, if_pos blank, Option.getD_none]
    · rw [setting, Setting.action, edited named, IsIn, IsIn, Users.alias?_setAlias _ _ _ _ filled,
        if_neg apart]
    · rw [setting, Setting.action, edited (trimmed.1.symm ▸ trimmed.2), IsIn,
        Users.alias?_setAlias _ _ _ _ filled, if_pos trimmed.1, Option.filter_eq_some_iff]
      constructor
      · rintro ⟨same, kept⟩
        exact ⟨trimmed, Option.some.inj same, of_decide_eq_true kept⟩
      · rintro ⟨-, same, kept⟩
        exact ⟨congrArg some same, decide_eq_true kept⟩
  | addScope scope =>
    have edited (named : Text.strip scope ≠ "") : (Action.addScope scope).edit? key users =
        Users.addScope users key (Text.strip scope) := if_neg named
    refine shows_iff scope (fun blank => ?_) (fun named apart => ?_) (fun trimmed => ?_) id
    · rw [setting, Setting.action, Action.edit?, if_pos blank, Option.getD_none]
    · rw [setting, Setting.action, edited named, IsIn, IsIn,
        Users.mem_scopes_addScope_of_ne users key apart]
    · rw [setting, Setting.action, edited (trimmed.1.symm ▸ trimmed.2), IsIn, trimmed.1]
      exact iff_of_true (Users.mem_scopes_addScope users key trimmed.2) trimmed

/-- A command that gives back a text has had the store make the setting. -/
theorem run_of_said {preference : Preference} {caller : CallerId} {bot later : Bot}
    {answer : String}
    (answered : (preference.run caller).run bot = (.ok (Builtin.said answer), later)) :
    answer ∈ preference.acknowledgments ∧
      ∃ told store, (preference.setting.action.run caller).run bot.store = (.ok told, store) ∧
        later.store = { store with log := [] } := by
  cases preference with
  | setVariable name value =>
    rw [run, builtin, arguments, Builtin.run] at answered
    split at answered
    · cases answered
    obtain ⟨done, middle, changed, same⟩ := run_bind_eq_ok answered
    obtain ⟨⟨⟩, first, ran, forgot⟩ := run_bind_eq_ok changed
    obtain ⟨store, stored, rfl⟩ := Bot.run_onStore_eq_ok ran
    cases forgot
    cases same
    refine ⟨List.mem_singleton.mpr ?_, .done, store, ?_, rfl⟩
    · simp [Builtin.shownVariable]
    · rw [setting, Setting.action, Action.run, run_map, stored]
      rfl
  | setAlias name target =>
    rw [run, builtin, arguments, Builtin.run] at answered
    split at answered
    · cases answered
    obtain ⟨known, middle, looked, more⟩ := run_bind_eq_ok answered
    cases looked
    split at more
    · cases more
    obtain ⟨⟨⟩, last, ran, same⟩ := run_bind_eq_ok more
    obtain ⟨store, stored, rfl⟩ := Bot.run_onStore_eq_ok ran
    cases same
    refine ⟨List.mem_singleton.mpr ?_, .done, store, ?_, rfl⟩
    · simp [Builtin.shownAlias]
    · rw [setting, Setting.action, Action.run, run_map, stored]
      rfl
  | addScope scope =>
    rw [run, builtin, arguments, Builtin.run] at answered
    obtain ⟨known, middle, looked, more⟩ := run_bind_eq_ok answered
    cases looked
    split at more
    · cases more
    obtain ⟨added, last, ran, same⟩ := run_bind_eq_ok more
    obtain ⟨store, stored, rfl⟩ := Bot.run_onStore_eq_ok ran
    cases same
    refine ⟨?_, .changed added, store, ?_, rfl⟩
    · cases added <;> simp [acknowledgments]
    · rw [setting, Setting.action, Action.run, run_map, stored]
      rfl

/-- Whatever the bot and its store are like, a preference that a command acknowledges is kept from
then on exactly if its texts are trimmed, or if its name is not and it was kept before. -/
theorem kept_iff_of_acknowledged {preference : Preference} {caller : CallerId} {bot later : Bot}
    {answer : String}
    (answered : (preference.run caller).run bot = (.ok (Builtin.said answer), later)) :
    answer ∈ preference.acknowledgments ∧
      (preference.IsKept caller later.store ↔
        preference.setting.IsProper ∨
          ¬ IsTrimmed preference.name ∧ preference.IsKept caller bot.store) := by
  obtain ⟨acknowledged, told, store, ran, same⟩ := run_of_said answered
  refine ⟨acknowledged, ?_⟩
  have found := Store.found_run caller preference.setting.action bot.store
  rw [ran] at found
  rw [same, isKept_log, isKept_iff, isKept_iff, found]
  cases known : bot.store.found with
  | ok users =>
    simpa [Except.map] using isIn_edit_iff preference (Users.key caller) users
  | error failure =>
    -- Only a setting without a name succeeds where nothing is found.
    have idle : preference.setting.action.isIdle = true := by
      by_contra active
      rw [Action.run_eq, if_neg active, Store.attempted, known] at ran
      cases ran
    have improper : ¬ preference.setting.IsProper := by
      intro proper
      have told := (isIn_edit_iff preference (Users.key caller) []).mpr (.inl proper)
      rw [(Action.of_isIdle idle (Users.key caller) [] []).2, Option.getD_none] at told
      exact not_isIn_nil preference (Users.key caller) told
    simp [Except.map, improper]

/-- What a new bot answers to a caller who sets a variable. -/
theorem answer_setVariable :
    (((setVariable "A" "v").run (.number 1)).run {}).1.toOption = some (Builtin.said "A=v") ∧
      (((setVariable "A\n" "v").run (.number 1)).run {}).1.toOption =
        some (Builtin.said "A\n=v") :=
  ⟨rfl, rfl⟩

/-- A variable is kept under a name that is trimmed. With a line feed after its name, which the
pattern for names lets pass, it is acknowledged and not kept. -/
theorem kept_without_lineFeed :
    (setVariable "A" "v").IsKept (.number 1)
        (((setVariable "A" "v").run (.number 1)).run {}).2.store ∧
      ¬ (setVariable "A\n" "v").IsKept (.number 1)
        (((setVariable "A\n" "v").run (.number 1)).run {}).2.store := by
  obtain ⟨trimmed, loose⟩ := answer_setVariable
  have spelled : IsTrimmed "A" := by decide
  have fed : ¬ IsTrimmed "A\n" := by decide
  have unset : ¬ (setVariable "A\n" "v").IsKept (.number 1) ({} : Bot).store := by
    rintro ⟨known, asked, -⟩
    cases asked
  constructor
  · exact (kept_iff_of_acknowledged (run_eq_of_toOption trimmed)).2.mpr (.inl spelled)
  · rw [(kept_iff_of_acknowledged (run_eq_of_toOption loose)).2]
    rintro (proper | ⟨-, before⟩)
    · exact fed proper
    · exact unset before

/-- The root stands under the empty name, so the empty scope is acknowledged. -/
theorem answer_emptyScope :
    (((addScope "").run (.number 1)).run {}).1.toOption =
      some (Builtin.said "already using .") := rfl

/-- What is acknowledged need not be kept: the empty scope is used by nobody. -/
theorem acknowledged_not_kept :
    ¬ ∀ (preference : Preference) (caller : CallerId) (bot later : Bot) (answer : String),
      (preference.run caller).run bot = (.ok (Builtin.said answer), later) →
      answer ∈ preference.acknowledgments → preference.IsKept caller later.store := by
  intro kept
  have ran := run_eq_of_toOption answer_emptyScope
  obtain ⟨scopes, asked, member⟩ := kept _ _ _ _ _ ran (by decide)
  have unused : scopes = [] := (Except.ok.inj asked).symm
  rw [unused] at member
  cases member

end Preference
end Switchboard
