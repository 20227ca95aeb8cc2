import Switchboard.Proofs.Gate
import Switchboard.Proofs.QuotedLine

/-!
Lines that call a builtin command with quoted arguments. Whoever may call a command that asks for
its caller and for texts, and for nothing else, calls it with the texts as they were quoted.
-/
namespace Switchboard

open Work

/-! ### Plain arguments -/

/-- The kind of a rule that asks for nothing but a value in its place: everybody may supply one, and
need not do it by name. -/
def Rule.plainKind? (rule : Rule) : Option Kind :=
  match rule.name with
  | .null | .text _ =>
    if rule.permission = 0 ∧ rule.namedOnly = false then some rule.kind else none
  | _ => none

def Parameter.plainKind? : Parameter → Option Kind
  | .parsed rule => rule.plainKind?
  | .declared _ => none

namespace Binding

variable {rule : Rule} {kind : Kind} {kinds : List Kind} {invocation : Invocation}

theorem of_plainKind? (plain : rule.plainKind? = some kind) :
    rule.permission = 0 ∧ rule.kind = kind ∧
      ∀ token rest, supply rule (token :: rest) [] = .ok (.next token) := by
  have settled (unnamed : namedValue? rule [] = .ok none)
      (plain : (if rule.permission = 0 ∧ rule.namedOnly = false then some rule.kind else none) =
        some kind) :
      rule.permission = 0 ∧ rule.kind = kind ∧
        ∀ token rest, supply rule (token :: rest) [] = .ok (.next token) := by
    obtain ⟨⟨free, positional⟩, same⟩ := Option.ite_none_right_eq_some.mp plain
    refine ⟨free, Option.some.inj same, fun token rest => ?_⟩
    rw [supply, unnamed, positional]
    rfl
  unfold Rule.plainKind? at plain
  split at plain
  · rename_i named
    exact settled (by rw [namedValue?, named]) plain
  · rename_i named
    exact settled (by rw [namedValue?, named]; rfl) plain
  · cases plain

theorem exists_of_mapM_cons {α β : Type} {f : α → Option β} {items : List α} {first : β}
    {others : List β} (mapped : items.mapM f = some (first :: others)) :
    ∃ item rest, items = item :: rest ∧ f item = some first ∧ rest.mapM f = some others := by
  cases items with
  | nil => cases mapped
  | cons item rest =>
    rw [List.mapM_cons] at mapped
    obtain ⟨value, here, mapped⟩ := Option.bind_eq_some_iff.mp mapped
    obtain ⟨values, there, same⟩ := Option.bind_eq_some_iff.mp mapped
    obtain ⟨rfl, rfl⟩ := List.cons.inj (Option.some.inj same)
    exact ⟨item, rest, rfl, here, there⟩

theorem eq_nil_of_mapM {α β : Type} {f : α → Option β} {items : List α}
    (mapped : items.mapM f = some []) : items = [] := by
  cases items with
  | nil => rfl
  | cons item rest =>
    rw [List.mapM_cons] at mapped
    obtain ⟨value, -, mapped⟩ := Option.bind_eq_some_iff.mp mapped
    obtain ⟨values, -, same⟩ := Option.bind_eq_some_iff.mp mapped
    cases same

theorem readRules_plain {parameters : List Parameter}
    (plain : parameters.mapM Parameter.plainKind? = some kinds) :
    ∃ rules, Parameter.readRules parameters = (rules, none) ∧
      rules.mapM Rule.plainKind? = some kinds := by
  induction kinds generalizing parameters with
  | nil =>
    obtain rfl := eq_nil_of_mapM plain
    exact ⟨[], rfl, rfl⟩
  | cons kind kinds ih =>
    obtain ⟨parameter, rest, rfl, here, there⟩ := exists_of_mapM_cons plain
    cases parameter with
    | declared spec => cases here
    | parsed rule =>
      obtain ⟨rules, read, kept⟩ := ih there
      refine ⟨rule :: rules, ?_, ?_⟩
      · rw [Parameter.readRules, read]
      · rw [List.mapM_cons, show rule.plainKind? = some kind from here, kept]
        rfl

/-- Plain rules for texts take the positional tokens one after the other. -/
theorem bindThen_texts {rules : List Rule} (texts : List String)
    (plain : rules.mapM Rule.plainKind? = some (List.replicate texts.length .string)) :
    bindThen settleRest invocation rules texts [] =
      .ok (texts.map fun text => .value (.text text)) := by
  induction texts generalizing rules with
  | nil =>
    obtain rfl := eq_nil_of_mapM plain
    rfl
  | cons text texts ih =>
    obtain ⟨rule, rest, rfl, here, there⟩ := exists_of_mapM_cons plain
    obtain ⟨free, string, supplies⟩ := of_plainKind? here
    rw [bindThen, if_neg fun needed => needed.1 free, string]
    simp only [Invocation.argument?]
    rw [if_neg (by decide), supplies, ok_bind]
    dsimp only
    rw [Rule.coerce, string]
    dsimp only
    rw [ok_bind, List.tail_cons, ih there]
    rfl

theorem bindParameters_plain {parameters : List Parameter} (texts : List String)
    (plain : parameters.mapM Parameter.plainKind? =
      some (.caller :: List.replicate texts.length .string)) :
    bindParameters invocation parameters texts [] =
      .ok (.caller invocation.caller :: texts.map fun text => .value (.text text)) := by
  obtain ⟨rules, read, kept⟩ := readRules_plain plain
  obtain ⟨rule, rest, rfl, here, there⟩ := exists_of_mapM_cons kept
  obtain ⟨free, caller, -⟩ := of_plainKind? here
  rw [bindParameters, read]
  dsimp only
  rw [bind, bindThen, if_neg fun needed => needed.1 free, caller]
  dsimp only [Invocation.argument?]
  rw [bindThen_texts texts there]
  rfl

end Binding

/-! ### Builtin commands for everybody -/

/-- The builtin handler of a command that everybody may call and that asks for plain arguments, with
the kinds of these. -/
def Node.offered? (node : Node) : Option (Builtin × List Kind) :=
  match node.handler with
  | some (.builtin builtin) =>
    if node.permission = 0 then
      (node.parameters.bind fun parameters => parameters.mapM Parameter.plainKind?).map
        fun kinds => (builtin, kinds)
    else none
  | _ => none

theorem Node.of_offered? {node : Node} {builtin : Builtin} {kinds : List Kind}
    (offered : node.offered? = some (builtin, kinds)) :
    node.handler = some (.builtin builtin) ∧ node.permission = 0 ∧
      (node.parameters.getD []).mapM Parameter.plainKind? = some kinds := by
  unfold offered? at offered
  split at offered
  · rename_i found handled
    obtain ⟨free, mapped⟩ := Option.ite_none_right_eq_some.mp offered
    obtain ⟨known, read, same⟩ := Option.map_eq_some_iff.mp mapped
    obtain ⟨parameters, declared, plain⟩ := Option.bind_eq_some_iff.mp read
    obtain ⟨rfl, rfl⟩ := Prod.mk.inj same
    exact ⟨handled, free, by rw [declared, Option.getD_some, plain]⟩
  · cases offered

/-- What a name offers to everybody. -/
def Graph.offered? (g : Graph) (name : String) : Option (Builtin × List Kind) :=
  (g.find? root name).bind fun id => (g.node id).offered?

/-! ### Quoted lines -/

namespace Line

theorem IsWord.exists_cons {command : String} (isWord : IsWord command) :
    ∃ c cs, command.toList = c :: cs ∧ Text.isBlank c = false := by
  obtain ⟨filled, ordinary⟩ := isWord
  cases letters : command.toList with
  | nil => exact absurd letters filled
  | cons c cs =>
    rw [letters, List.all_cons, Bool.and_eq_true] at ordinary
    have alone : IsPlain none c [] := isPlain_of_isOrdinary ordinary.1
    exact ⟨c, cs, rfl, alone.inWord rfl⟩

theorem lineOf_quotedLine {command : String} (isWord : IsWord command) (words : List String) :
    Bot.lineOf (quotedLine command words) = quotedLine command words := by
  obtain ⟨c, cs, letters, visible⟩ := isWord.exists_cons
  have line : (quotedLine command words).toList =
      c :: (cs ++ ' ' :: ("--".toList ++ quotedAll words)) := by
    rw [quotedLine, String.toList_ofList, letters, List.cons_append]
  have stripped : Text.stripLeft (quotedLine command words) = quotedLine command words := by
    rw [Text.stripLeft, Text.trimLeft, line, List.dropWhile_cons_of_neg (by simp [visible]), ← line,
      String.ofList_toList]
  have filled : quotedLine command words ≠ "" := by
    intro empty
    rw [empty] at line
    cases line
  rw [Bot.lineOf, stripped]
  exact if_neg filled

end Line

namespace Profile

open Switchboard.Bot Switchboard.Line

variable {profile : Profile} {graph : Graph} {message : Message} {command : String}
  {words : List String}

/-- What a command becomes for a caller: its first part may be an alias. -/
def resolved (profile : Profile) (command : String) : String :=
  withHead command (profile.alias? (Text.cutText '.' command).1)

theorem flags_quotedLine (isWord : IsWord command)
    (text : message.text = quotedLine command words) : profile.flags message = {} := by
  rw [Profile.flags, text, lineOf_quotedLine isWord, tokenize_quotedLine _ isWord]

theorem words_quotedLine (isWord : IsWord command)
    (text : message.text = quotedLine command words) :
    profile.words message = command :: "--" :: words := by
  rw [Profile.words, text, lineOf_quotedLine isWord, tokenize_quotedLine _ isWord]
  rfl

theorem command_quotedLine (isWord : IsWord command)
    (text : message.text = quotedLine command words) :
    profile.command message = profile.resolved command := by
  rw [Profile.command, words_quotedLine isWord text]
  rfl

variable {id : NodeId} {builtin : Builtin}

/-- Whoever is admitted calls a builtin command with the texts that were quoted. -/
theorem gate_quotedLine (isWord : IsWord command) (text : message.text = quotedLine command words)
    (admitted : profile.IsAdmitted)
    (found : graph.findScoped? Graph.root (profile.resolved command) profile.scopes = some id)
    (offered : (graph.node id).offered? =
      some (builtin, .caller :: List.replicate words.length .string)) :
    profile.gate graph message = .ok
      { command := profile.resolved command, handler := .builtin builtin
        arguments := .caller message.caller :: words.map fun word => .value (.text word) } := by
  obtain ⟨level, ranked, above⟩ := admitted
  obtain ⟨handled, free, plain⟩ := Node.of_offered? offered
  rw [← free] at above
  have target : graph.Resolves profile.scopes (profile.command message) (some id) := by
    rw [command_quotedLine isWord text]
    exact Graph.resolves_iff.mpr found
  rw [gate_of_found ranked (flags_quotedLine isWord text) target,
    command_quotedLine isWord text]
  rw [Reading.admission_of_above handled above]
  rw [Reading.arguments, Profile.line, words_quotedLine isWord text, List.tail_cons]
  have split : splitOptions ("--" :: words) = (words, []) := by
    rw [splitOptions, readArguments, if_pos rfl]
    rfl
  rw [split]
  dsimp only
  rw [Binding.bindParameters_plain words plain]
  rfl

/-- Whoever is not admitted calls no command. -/
theorem gate_refused (isWord : IsWord command) (text : message.text = quotedLine command words)
    (denied : ¬ profile.IsAdmitted)
    (found : graph.findScoped? Graph.root (profile.resolved command) profile.scopes = some id)
    (offered : (graph.node id).offered? =
      some (builtin, .caller :: List.replicate words.length .string)) :
    ∃ fault, profile.gate graph message = .error fault := by
  cases ranked : profile.level with
  | error failure =>
    have unread : profile.reading message = .error failure := by
      rw [reading, ranked, error_bind]
    exact ⟨_, gate_of_unread unread⟩
  | ok level =>
    obtain ⟨handled, free, -⟩ := Node.of_offered? offered
    have below : level.isBelow (graph.node id).permission = true := by
      rw [free]
      by_contra above
      exact denied ⟨level, ranked, Bool.eq_false_iff.mpr above⟩
    have target : graph.Resolves profile.scopes (profile.command message) (some id) := by
      rw [command_quotedLine isWord text]
      exact Graph.resolves_iff.mpr found
    rw [gate_of_found ranked (flags_quotedLine isWord text) target,
      Reading.admission_of_below handled below]
    exact ⟨_, rfl⟩

end Profile
end Switchboard
