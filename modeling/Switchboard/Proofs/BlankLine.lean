import Switchboard.Proofs.Ending
import Switchboard.Proofs.Gate
import Switchboard.Proofs.QuotedLine
import Switchboard.Proofs.RootHelp

/-!
Blank lines. A line without anything in it asks for the help of the root. As long as that stands
under its key the line is answered with a description of the root as it is at the time.
-/
namespace Switchboard

open Work

namespace Graph

variable {node : Node}

theorem textsFrom_texts (place : Nat) (texts : List String) :
    textsFrom place (texts.map .text) = .ok texts := by
  induction texts generalizing place with
  | nil => rfl
  | cons text rest ih =>
    rw [List.map_cons, textsFrom, ih]
    rfl

/-- A command without aliases and arguments can be described if its keys are texts. -/
theorem exists_describe (bare : node.aliases = [] ∧ node.parameters = none)
    (texts : ∀ key ∈ node.children.labels, ∃ text, key = .text text) (name : Label) :
    ∃ text, describe node name = .ok text ∧ text ≠ "" := by
  have keys : ∃ keys : List String, node.children.labels.map Label.document = keys.map .text := by
    generalize node.children.labels = labels at texts
    induction labels with
    | nil => exact ⟨[], rfl⟩
    | cons label rest ih =>
      obtain ⟨⟨text, rfl⟩, others⟩ := List.forall_mem_cons.mp texts
      obtain ⟨keys, same⟩ := ih others
      exact ⟨text :: keys, by rw [List.map_cons, List.map_cons, same]; rfl⟩
  obtain ⟨keys, same⟩ := keys
  have aliases : aliasPart node = .ok "" := by
    rw [aliasPart, bare.1]
    rfl
  have usage (title : Label) : usageLine title node = .ok "[no usage]" := by
    rw [usageLine, bare.2]
  unfold describe
  rw [aliases, ok_bind, same, joined, textsFrom_texts, Except.map, ok_bind, usage, ok_bind]
  refine ⟨_, rfl, ?_⟩
  intro empty
  have letters := congrArg String.toList empty
  rw [String.toList_intercalate] at letters
  simp [List.intercalate] at letters

end Graph

namespace Bot

variable {bot : Bot} {users : Users.Entries} {caller : CallerId}

/-- A bot that can read the tables of a caller and reply, and a caller who may ask for help. -/
structure Hears (bot : Bot) (users : Users.Entries) (caller : CallerId) : Prop where
  reads : bot.Reads users
  reliable : bot.outbox.disturbances = []
  admitted : (bot.profile users caller).IsAdmitted
  unaliased : Users.alias? users (Users.key caller) helpName = none

/-- All of a bot but its commands and its log. -/
def rest (bot : Bot) : Bot :=
  { bot with graph := Graph.start, log := [] }

theorem isBlind_rest : Plugin.IsBlind rest :=
  ⟨fun _ _ => rfl, fun _ _ => rfl⟩

theorem Hears.of_rest {later : Bot} (hears : bot.Hears users caller)
    (same : later.rest = bot.rest) : later.Hears users caller := by
  have config := congrArg Bot.config same
  have outbox := congrArg Bot.outbox same
  have store := congrArg Bot.store same
  have disturbances := congrArg Bot.disturbances same
  dsimp only [rest] at config outbox store disturbances
  have level : (later.profile users caller).level = (bot.profile users caller).level := by
    rw [Bot.profile, Bot.profile, config]
  refine ⟨⟨?_, ?_⟩, ?_, ?_, hears.unaliased⟩
  · rw [store]
    exact hears.reads.found
  · rw [disturbances]
    exact hears.reads.undisturbed
  · rw [outbox]
    exact hears.reliable
  · rw [Profile.IsAdmitted, level]
    exact hears.admitted

theorem lineOf_blank {text : String} (blank : Text.stripLeft text = "") :
    lineOf text = helpName := by
  rw [lineOf, blank]
  rfl

theorem tokenize_helpName (env : Table String) : Line.tokenize env helpName = ([helpName], {}) :=
  Line.tokenize_word env ⟨by decide, by decide⟩

/-- A blank line leads to the help of the root. -/
theorem gate_blank (held : bot.graph.HoldsHelp true) (hears : bot.Hears users caller)
    {message : Message} (blank : Text.stripLeft message.text = "") :
    (bot.profile users caller).gate bot.graph message =
      .ok { command := helpName, handler := .help Graph.root .blank, arguments := [] } := by
  obtain ⟨level, ranked, above⟩ := hears.admitted
  obtain ⟨name, help⟩ := held.help
  have line : lineOf message.text = helpName := lineOf_blank blank
  have closed : (bot.profile users caller).flags message = {} := by
    rw [Profile.flags, line, tokenize_helpName]
  have words : (bot.profile users caller).words message = [helpName] := by
    rw [Profile.words, line, tokenize_helpName]
    rfl
  have command : (bot.profile users caller).command message = helpName := by
    rw [Profile.command, words]
    exact congrArg (withHead helpName) hears.unaliased
  have found : bot.graph.Resolves (bot.profile users caller).scopes
      ((bot.profile users caller).command message) (some Graph.rootHelp) := by
    rw [command]
    refine .direct ?_
    have led := held.led helpLabel (Graph.isHelpKey_iff.mpr (.inl rfl))
    change bot.graph.walk? Graph.root [helpName] = _
    rw [Graph.walk?]
    exact led ▸ rfl
  rw [Profile.gate_of_found ranked closed found, command, help]
  rw [Reading.admission_of_above rfl above]
  rw [Reading.arguments, Profile.line, words]
  rfl

/-- With the help in its place and texts for keys, a blank line is answered with the description of
the root as it is. -/
theorem replies_blank (held : bot.graph.HoldsHelp true) {message : Message}
    (hears : bot.Hears users message.caller) (blank : Text.stripLeft message.text = "")
    (texts : ∀ key ∈ (bot.graph.node Graph.root).children.labels, ∃ text, key = .text text) :
    ∃ text, Graph.describe (bot.graph.node Graph.root) .blank = .ok text ∧
      (Bot.services.after bot message).outbox.replies =
        bot.outbox.replies ++ [{ caller := message.caller, segment := .text text }] := by
  obtain ⟨text, described, filled⟩ := Graph.exists_describe held.bare texts .blank
  have reads : (bot.receive message).Reads users := hears.reads.of_frame rfl
  obtain ⟨later, gated, frame⟩ := run_gate reads message
  have decided : (Bot.services.gate message (lineOf message.text)).run (bot.receive message) =
      (.ok ⟨helpName, .help Graph.root .blank, []⟩, later) := by
    rw [← gate_blank held hears blank]
    exact gated
  have graph : later.graph = bot.graph := congrArg Frame.graph frame
  have outbox : later.outbox = bot.outbox := congrArg Frame.outbox frame
  have done : (outcomeOf (.help Graph.root .blank) []).run later =
      (.ok (.datum (.text text)), later) := by
    unfold outcomeOf
    dsimp only
    rw [run_bind_ok _ (run_get later), graph, described]
    rfl
  have concludes : Concludes helpName (.ok (.datum (.text text))) (.answered [.text text]) := by
    refine .answered nofun ?_ (List.cons_ne_nil _ _)
    have truthy : (Leaf.datum (.text text)).isFilled = true := by
      simpa [Leaf.isFilled, Datum.truthy] using filled
    refine (Leaf.sent_singleton _).trans ?_
    rw [if_pos truthy]
    rfl
  refine ⟨text, described, ?_⟩
  have answered : (Bot.services.run message).run bot =
      (.ok (), later.ended message (.answered [.text text])) := by
    rw [Services.run_gate, decided]
    exact run_answer_concludes (outbox ▸ hears.reliable) done concludes
  rw [Services.after, answered, ← outbox]
  rfl

end Bot

namespace Plugin

theorem Change.rest_after (change : Change) (bot : Bot) : (change.after bot).rest = bot.rest := by
  cases change with
  | load directory selection => exact keeps_load Bot.isBlind_rest directory selection bot
  | unload name => exact keeps_unload Bot.isBlind_rest name bot

theorem Reaches.rest {bot later : Bot} {changes : List Change}
    (reaches : Reaches bot changes later) : later.rest = bot.rest := by
  induction reaches with
  | nil => rfl
  | @cons bot last change rest keepsOff others ih => exact ih.trans (change.rest_after bot)

/-- The help of the root stays under its key through any changes but one, to take out what stands
under its other key. While it is there, whoever the bot heard before is answered a blank line with a
description of the root. -/
theorem root_help_kept_iff {bot later : Bot} {changes : List Change}
    (held : bot.graph.HoldsHelp true) (reaches : Reaches bot changes later) :
    ((later.graph.node Graph.root).children.get? helpLabel = some Graph.rootHelp ↔
      .unload (.text "help") ∉ changes) ∧
    (∃ name, later.graph.node Graph.rootHelp =
      { Graph.helpNode Graph.root .blank with name }) ∧
    (.unload (.text "help") ∉ changes → ∀ users message, bot.Hears users message.caller →
      Text.stripLeft message.text = "" →
      (∀ key ∈ (later.graph.node Graph.root).children.labels, ∃ text, key = .text text) →
      ∃ text, Graph.describe (later.graph.node Graph.root) .blank = .ok text ∧
        (Bot.services.after later message).outbox.replies =
          bot.outbox.replies ++ [{ caller := message.caller, segment := .text text }]) := by
  have holds := reaches.holdsHelp held
  rw [Bool.true_and] at holds
  refine ⟨?_, holds.help, ?_⟩
  · rw [holds.led helpLabel (Graph.isHelpKey_iff.mpr (.inl rfl)), ← all_sparesHelp]
    simp
  · intro absent users message hears blank texts
    rw [all_sparesHelp.mpr absent] at holds
    have outbox := congrArg Bot.outbox reaches.rest
    dsimp only [Bot.rest] at outbox
    rw [← outbox]
    exact Bot.replies_blank holds (hears.of_rest reaches.rest) blank texts

/-- A bot that was told where its plugins are, with one of them. -/
def holdingOne : Bot :=
  (Change.load (some mixed) (.names ["a"])).after waiting

/-- The key that is protected leads to the help whether or not it is asked to be taken out. -/
theorem reaches_holdingOne :
    Reaches waiting [.load (some mixed) (.names ["a"]), .unload helpLabel]
      ((Change.unload helpLabel).after holdingOne) := by
  refine .cons ?_ (.cons trivial .nil)
  intro modules plugins ready found selected
  obtain rfl : mixed.plugins = modules := Except.ok.inj found
  rw [plugins_mixed] at selected
  cases selected
  refine ⟨⟨isKnownIn_declares rfl _, fun made middle ready => ?_⟩, fun _ _ _ => trivial⟩
  have set : ((setUp (.text "a") "a" (aliased [.text "x"])).run waiting).1.toOption =
      some (.text "a", 3) := by decide +kernel
  obtain ⟨rfl, rfl⟩ := ready.unique ⟨rfl, run_eq_of_toOption set⟩
  decide +kernel

/-- After a plugin was loaded and the help was asked to be taken out by its protected key, a blank
line is still answered. -/
theorem root_help_kept_holdingOne :
    ∃ text, (Bot.services.after ((Change.unload helpLabel).after holdingOne)
      { text := " ", caller := .number 42 }).outbox.replies =
        [{ caller := .number 42, segment := .text text }] := by
  have hears : waiting.Hears [] (.number 42) := by
    have level : (waiting.profile [] (.number 42)).level.toOption = some (.finite 0) := by
      decide +kernel
    refine ⟨⟨rfl, ?_⟩, rfl, ⟨.finite 0, eq_ok_of_toOption level, by decide⟩, rfl⟩
    decide +kernel
  have labels : (((Change.unload helpLabel).after holdingOne).graph.node
      Graph.root).children.labels = ["?", "help", "a", "x"].map .text := by
    rw [Change.after, holdingOne, Change.after, run_load rfl, plugins_mixed]
    decide +kernel
  have spared : .unload (.text "help") ∉
      [.load (some mixed) (.names ["a"]), Change.unload helpLabel] := by
    simp [helpLabel, helpName]
  obtain ⟨text, -, replies⟩ :=
    (root_help_kept_iff Graph.holdsHelp_start reaches_holdingOne).2.2 spared []
      { text := " ", caller := .number 42 } hears (by decide) (by rw [labels]; simp)
  exact ⟨text, replies⟩

/-- Taking out what stands under the other key of a bot with the builtin commands takes the help
away, and blank lines are not answered any more. -/
theorem root_help_taken_away :
    (Bot.withBuiltins {}).graph.HoldsHelp true ∧
      Reaches (Bot.withBuiltins {}) [.unload (.text "help")]
        ((Change.unload (.text "help")).after (Bot.withBuiltins {})) ∧
      (((Change.unload (.text "help")).after (Bot.withBuiltins {})).graph.node
        Graph.root).children.get? helpLabel = none ∧
      (Bot.services.after ((Change.unload (.text "help")).after (Bot.withBuiltins {}))
        { text := "", caller := .number 42 }).outbox.replies =
          [{ caller := .number 42, segment := .text "?: not found" }] := by
  refine ⟨Bot.holdsHelp_withBuiltins rfl, .cons trivial .nil, ?_, ?_⟩
  · decide +kernel
  · decide +kernel

end Plugin
end Switchboard
