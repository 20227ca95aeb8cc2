import Switchboard.Proofs.Gate

/-!
Names that are put together from two with a point between them. Such a name leads to what the second
one leads to from where the first one does. So an alias in front of a name only moves the place that
the rest of the name is looked up from.
-/
namespace Switchboard

open Work

namespace Graph

variable (g : Graph) (start : NodeId)

theorem walk?_cons (key : String) (keys : List String) :
    g.walk? start (key :: keys) =
      ((g.node start).children.get? (.text key)).bind fun child => g.walk? child keys := by
  rw [walk?]
  cases (g.node start).children.get? (.text key) with
  | none => rfl
  | some child => rfl

/-- A walk along further keys goes on from where the first ones lead. -/
theorem walk?_append (keys further : List String) :
    g.walk? start (keys ++ further) = (g.walk? start keys).bind fun id => g.walk? id further := by
  induction keys generalizing start with
  | nil => rfl
  | cons key keys ih => simp [walk?_cons, ih, Option.bind_assoc]

theorem find?_of_ne {name : String} (filled : name ≠ "") :
    g.find? start name = g.walk? start (Text.segments '.' name) :=
  if_neg filled

/-- A name with a point between its two parts leads along both, one after the other. -/
theorem find?_append {before after : String} (some : before ≠ "") (further : after ≠ "") :
    g.find? start (before ++ "." ++ after) =
      (g.find? start before).bind fun id => g.find? id after := by
  have filled : before ++ "." ++ after ≠ "" := by simp [some]
  have parts : Text.segments '.' (before ++ "." ++ after) =
      Text.segments '.' before ++ Text.segments '.' after := Text.segments_append '.' before after
  simp only [find?_of_ne, filled, some, further, parts, walk?_append, ne_eq, not_false_eq_true]

end Graph

/-- No alias stands for the empty name. -/
theorem Users.alias?_ne_blank {users : Entries} {key name command : String}
    (stands : alias? users key name = some command) : command ≠ "" := by
  unfold alias? at stands
  obtain ⟨entry, -, stands⟩ := Option.bind_eq_some_iff.mp stands
  obtain ⟨fields, -, stands⟩ := Option.bind_eq_some_iff.mp stands
  obtain ⟨d, -, stands⟩ := Option.bind_eq_some_iff.mp stands
  cases d with
  | text s =>
    obtain ⟨filled, same⟩ := Option.ite_none_left_eq_some.mp stands
    rwa [← Option.some.inj same]
  | _ => cases stands

namespace CallerTables

/-- The first segment of a name is asked for, and what stands for it is put in its place. -/
theorem resolveAlias_append (tables : CallerTables) (caller : CallerId) {head : String}
    (single : '.' ∉ head.toList) (tail : String) :
    tables.resolveAlias caller (head ++ "." ++ tail) =
      (fun command? => command?.getD head ++ "." ++ tail) <$> tables.alias? caller head := by
  have parts : Text.cutText '.' (head ++ "." ++ tail) = (head, some tail) :=
    Text.cutText_append single tail
  have put (command? : Option String) : Bot.withHead (head ++ "." ++ tail) command? =
      command?.getD head ++ "." ++ tail := by
    cases command? with
    | none => rfl
    | some command =>
      rw [Bot.withHead, parts]
      simp [String.append_assoc]
  unfold resolveAlias
  rw [parts, map_eq_pure_bind]
  simp only [put]

end CallerTables

namespace Bot

variable {bot : Bot} {users : Users.Entries}

/-- What the alias of a store comes to. -/
theorem Reads.run_resolveAlias (reads : bot.Reads users) (caller : CallerId) {head : String}
    (single : '.' ∉ head.toList) (tail : String) :
    ∃ later, (storedTables.resolveAlias caller (head ++ "." ++ tail)).run bot =
        (.ok ((Users.alias? users (Users.key caller) head).getD head ++ "." ++ tail), later) ∧
      later.frame = bot.frame := by
  obtain ⟨later, read, same⟩ :=
    reads.run (by decide : .getAlias ∈ readings) (Users.alias? · (Users.key caller) head)
  have asked : (storedTables.alias? caller head).run bot =
      (.ok (Users.alias? users (Users.key caller) head), later) := read
  refine ⟨later, ?_, same⟩
  rw [CallerTables.resolveAlias_append _ _ single, run_map, asked]
  rfl

/-- A name of two parts leads to what the second part leads to from where the first one does. So a
name whose first segment is an alias leads on from what the alias stands for, and any other name
stays as it is. Only the first segment is ever looked up among the aliases, and it is looked up
once: neither the segments behind it nor what it stands for are asked for. -/
theorem alias_composes :
    (∀ (g : Graph) (start : NodeId) (p q : String), p ≠ "" → q ≠ "" →
      g.find? start (p ++ "." ++ q) = (g.find? start p).bind fun id => g.find? id q) ∧
    (∀ (tables : CallerTables) (caller : CallerId) (head tail : String), '.' ∉ head.toList →
      tables.resolveAlias caller (head ++ "." ++ tail) =
        (fun command? => command?.getD head ++ "." ++ tail) <$> tables.alias? caller head) ∧
    ∀ (bot : Bot) (users : Users.Entries), bot.Reads users →
      ∀ (caller : CallerId) (head tail : String), '.' ∉ head.toList → tail ≠ "" →
        ∃ name later,
          (storedTables.resolveAlias caller (head ++ "." ++ tail)).run bot = (.ok name, later) ∧
          later.frame = bot.frame ∧
          (Users.alias? users (Users.key caller) head = none → name = head ++ "." ++ tail) ∧
          ∀ command, Users.alias? users (Users.key caller) head = some command →
            name = command ++ "." ++ tail ∧
            ∀ start, bot.graph.find? start name =
              (bot.graph.find? start command).bind fun id => bot.graph.find? id tail := by
  refine ⟨?_, ?_, ?_⟩
  · intro g start p q some further
    exact g.find?_append start some further
  · intro tables caller head tail single
    exact tables.resolveAlias_append caller single tail
  · intro bot users reads caller head tail single further
    obtain ⟨later, resolved, same⟩ := reads.run_resolveAlias caller single tail
    refine ⟨_, later, resolved, same, ?_, ?_⟩
    · intro unaliased
      rw [unaliased, Option.getD_none]
    · intro command stands
      rw [stands, Option.getD_some]
      refine ⟨rfl, fun start => ?_⟩
      exact bot.graph.find?_append start (Users.alias?_ne_blank stands) further

/-- Entries in which an alias stands for a name that is an alias itself. -/
def chainedUsers : Users.Entries :=
  [("42", .table [("aliases", .table [("x", .text "a.b"), ("a", .text "x"), ("up", .text "b")])])]

/-- A bot with two commands, of which each is below the other. -/
def ringBot : Bot where
  graph := {
    nodes := #[
      Graph.helpOfHelpNode,
      { children := [(.text "a", 2)], prepared := true },
      { name := .text "a", children := [(.text "b", 3)], prepared := true },
      { name := .text "b", children := [(.text "up", 2)], prepared := true }] }
  store := { memory := { state := { users := .table chainedUsers } } }

/-- Of an alias, what it stands for and what is behind it, the alias alone is replaced. -/
theorem alias_composes_chained :
    ∃ later, (storedTables.resolveAlias (.number 42) "x.up.b").run ringBot =
        (.ok "a.b.up.b", later) ∧
      ringBot.graph.find? Graph.root "a.b" = some 3 ∧
      ringBot.graph.find? 3 "up.b" = some 3 ∧
      ringBot.graph.find? Graph.root "a.b.up.b" = some 3 := by
  have reads : ringBot.Reads chainedUsers := ⟨rfl, fun _ _ => rfl⟩
  have single : '.' ∉ "x".toList := by decide
  have stands : Users.alias? chainedUsers (Users.key (.number 42)) "x" = some "a.b" := by
    decide +kernel
  have first : ringBot.graph.find? Graph.root "a.b" = some 3 := by decide +kernel
  have second : ringBot.graph.find? 3 "up.b" = some 3 := by decide +kernel
  obtain ⟨name, later, resolved, -, -, leads⟩ :=
    alias_composes.2.2 ringBot chainedUsers reads (.number 42) "x" "up.b" single (by decide)
  obtain ⟨rfl, along⟩ := leads "a.b" stands
  refine ⟨later, resolved, first, second, ?_⟩
  exact (along Graph.root).trans (by rw [first]; exact second)

end Bot
end Switchboard
