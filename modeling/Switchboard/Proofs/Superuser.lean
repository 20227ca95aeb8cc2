import Switchboard.Proofs.Permission

/-!
The levels of superusers. The command that assigns levels refuses a target that is spelled like a
superuser; the store drops the blanks around an id. So a superuser's level is changed exactly by a
target that is spelled differently and is the same without the blanks around it.
-/
namespace Switchboard

open Work

namespace Config

/-- Whoever is told apart from all superusers is spelled like none of them. -/
theorem text_ne_of_isSuperuser {config : Config} {superuser : CallerId} {target : String}
    (member : superuser ∈ config.superusers)
    (ordinary : config.isSuperuser (.name target) = .ok false) : target ≠ superuser.text := by
  have spelled : (CallerId.name target).written = .ok target := Datum.written_text target
  unfold isSuperuser at ordinary
  rw [spelled, ok_bind] at ordinary
  cases written : config.superusers.mapM CallerId.written with
  | error failure =>
    rw [written, error_bind] at ordinary
    cases ordinary
  | ok texts =>
    rw [written, ok_bind] at ordinary
    have apart := Except.ok.inj ordinary
    rintro rfl
    obtain ⟨text, found, same⟩ := mem_of_mapM written member
    rw [← CallerId.text_of_written same, ← List.contains_iff_mem, apart] at found
    cases found

end Config

/-- Whether a line reaches the level of a superuser past the comparison that protects it: another
level is assigned to a target that is not spelled like the superuser, save for blanks around it. -/
def Bot.Sidesteps (bot : Bot) (message : Message) (superuser : CallerId) : Prop :=
  ∃ target level, bot.Assigns message target level ∧ target ≠ superuser.text ∧
    Text.strip target = Text.strip superuser.text ∧ Builtin.assigned level ≠ bot.levels superuser

namespace Services

open Switchboard.Bot

variable {others : Handler → List Argument → BotM Outcome}

/-- The configuration stays what it is. -/
theorem config_after (kept : OthersKeep config others) (bot : Bot) (message : Message) :
    ((servicesWith others).after bot message).config = bot.config := by
  have silent : Silent config := ⟨fun _ _ => rfl, fun _ _ => rfl⟩
  rcases decided : (storedTables.gate message (lineOf message.text)).run (bot.receive message) with
    ⟨result, later⟩
  have same : later.config = bot.config := congrArg Standing.config (standing_of_gate decided)
  cases result with
  | error fault => rw [after_refused (servicesWith others) silent decided, same]
  | ok admission =>
    rw [after_admitted (servicesWith others) silent decided, ← same]
    refine keeps_handle kept admission.handler admission.arguments (fun builtin _ => ?_) later
    exact (keeps_premises_run builtin _).weaken fun _ _ same => congrArg Premises.config same

theorem config_afterAll (kept : OthersKeep config others) (bot : Bot) (messages : List Message) :
    ((servicesWith others).afterAll bot messages).config = bot.config := by
  induction messages generalizing bot with
  | nil => rfl
  | cons message messages ih => exact (ih _).trans (config_after kept bot message)

theorem level_after_iff (kept : OthersKeep levels others)
    {bot : Bot} {superuser : CallerId} (member : superuser ∈ bot.config.superusers)
    (message : Message) :
    ((servicesWith others).after bot message).levels superuser = bot.levels superuser ↔
      ¬ bot.Sidesteps message superuser := by
  constructor
  · rintro same ⟨target, level, assigns, -, spelled, other⟩
    rw [levels_after_of_assigns assigns, Builtin.reassigned] at same
    rw [if_pos (show Users.key (.name target) = Users.key superuser from spelled)] at same
    exact other same
  · intro straight
    by_cases assigning : ∃ target level, bot.Assigns message target level
    · obtain ⟨target, level, assigns⟩ := assigning
      rw [levels_after_of_assigns assigns, Builtin.reassigned]
      by_cases spelled : Users.key (.name target) = Users.key superuser
      · rw [if_pos spelled]
        by_cases same : Builtin.assigned level = bot.levels superuser
        · exact same
        · have unlike : target ≠ superuser.text := by
            obtain ⟨command, check, later, -, grants⟩ := assigns
            exact Config.text_ne_of_isSuperuser member grants.ordinary
          exact absurd ⟨target, level, assigns, unlike, spelled, same⟩ straight
      · rw [if_neg spelled]
    · have idle : ∀ target level, ¬ bot.Assigns message target level :=
        fun target level assigns => assigning ⟨target, level, assigns⟩
      rw [levels_after_of_not_assigns kept idle]

theorem level_afterAll
    (keptConfig : OthersKeep config others) (keptLevels : OthersKeep levels others)
    {bot : Bot} {superuser : CallerId} (member : superuser ∈ bot.config.superusers)
    {messages : List Message}
    (straight : ∀ before message rest, messages = before ++ message :: rest →
      ¬ ((servicesWith others).afterAll bot before).Sidesteps message superuser) :
    ((servicesWith others).afterAll bot messages).levels superuser = bot.levels superuser := by
  -- Along the run both the level and the membership in the configuration are carried.
  induction messages generalizing bot with
  | nil => rfl
  | cons message messages ih =>
    have first := (level_after_iff keptLevels member message).mpr (straight [] message messages rfl)
    have still : superuser ∈ ((servicesWith others).after bot message).config.superusers := by
      rw [config_after keptConfig]
      exact member
    refine (ih still fun before other rest split => ?_).trans first
    exact straight (message :: before) other rest (by rw [split, List.cons_append])

/-- Throughout a run a superuser's level stays what it is, exactly if no line of the run sidesteps
the comparison that protects it. -/
theorem superuser_level_kept_iff (kept : OthersKeep (fun bot => (bot.config, bot.levels)) others)
    (bot : Bot) (superuser : CallerId) (member : superuser ∈ bot.config.superusers)
    (messages : List Message) :
    (∀ before rest, messages = before ++ rest →
      ((servicesWith others).afterAll bot before).levels superuser = bot.levels superuser) ↔
    ∀ before message rest, messages = before ++ message :: rest →
      ¬ ((servicesWith others).afterAll bot before).Sidesteps message superuser := by
  have keptConfig : OthersKeep config others :=
    kept.weaken fun _ _ same => congrArg Prod.fst same
  have keptLevels : OthersKeep levels others :=
    kept.weaken fun _ _ same => congrArg Prod.snd same
  constructor
  · -- The level before a line and the one after it are both the first one.
    intro same before message rest split
    have configured := config_afterAll keptConfig bot before
    rw [← level_after_iff keptLevels (configured ▸ member)]
    have first := same before (message :: rest) split
    have second := same (before ++ [message]) rest (by rw [split, List.append_assoc]; rfl)
    rw [afterAll, List.foldl_append] at second
    exact second.trans first.symm
  · intro straight before rest split
    refine level_afterAll keptConfig keptLevels member fun first message later inner => ?_
    refine straight first message (later ++ rest) ?_
    rw [split, inner, List.append_assoc, List.cons_append]

/-- A superuser's line for its own level, with blanks around the id. -/
def spacedLine : Message :=
  { text := "perm.set \" 0 \" 7", caller := .number 0 }

theorem levels_spacedLine :
    (services.afterAll (withBuiltins {}) [spacedLine]).levels (.number 0) = some 7 := by
  decide +kernel

theorem levels_unset : (withBuiltins {}).levels (.number 0) = none := by
  rw [view_withBuiltins levels fun _ _ => rfl]
  decide +kernel

theorem superuser_zero : CallerId.number 0 ∈ (withBuiltins {}).config.superusers := by
  rw [view_withBuiltins config fun _ _ => rfl]
  exact List.mem_cons_self

/-- Superusers' levels can be changed. -/
theorem superuser_level_changes :
    ¬ ∀ (bot : Bot) (superuser : CallerId) (messages : List Message),
      superuser ∈ bot.config.superusers →
      (services.afterAll bot messages).levels superuser = bot.levels superuser := by
  intro always
  have same := always (withBuiltins {}) (.number 0) [spacedLine] superuser_zero
  rw [levels_spacedLine, levels_unset] at same
  cases same

/-- The line that changes a superuser's level sidesteps the comparison. -/
theorem sidesteps_spacedLine : (withBuiltins {}).Sidesteps spacedLine (.number 0) := by
  have exactly := superuser_level_kept_iff (othersKeep_outcomeOf fun _ _ => rfl) (withBuiltins {})
    (.number 0) superuser_zero [spacedLine]
  have changed : (services.afterAll (withBuiltins {}) [spacedLine]).levels (.number 0) ≠
      (withBuiltins {}).levels (.number 0) := by
    rw [levels_spacedLine, levels_unset]
    exact Option.some_ne_none 7
  apply Classical.byContradiction
  intro straight
  refine changed (exactly.mpr ?_ [spacedLine] [] rfl)
  intro before message rest split
  cases before with
  | nil =>
    obtain ⟨rfl, rfl⟩ := List.cons.inj split
    exact straight
  | cons first others =>
    obtain ⟨-, none⟩ := List.cons.inj split
    exact absurd none.symm (List.append_ne_nil_of_right_ne_nil _ (List.cons_ne_nil _ _))

end Services
end Switchboard
