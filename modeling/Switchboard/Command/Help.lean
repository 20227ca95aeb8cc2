import Switchboard.Command.Graph

/-!
The text that describes a command: its permission and aliases, its sub-commands, how it is called,
and its help.
-/
namespace Switchboard.Graph

/-- How an argument is shown in the usage; an argument that the caller does not supply is not. -/
def usagePart? (rule : Rule) : Option String :=
  if rule.kind.isContext then none
  else
    let permission :=
      if rule.permission = 0 then "" else "[perm] " ++ toString rule.permission ++ " "
    let body := permission ++ rule.name.display ++ ": " ++ rule.kind.tag
    some <|
      if rule.namedOnly then "[--" ++ body ++ "]"
      else if rule.optional then "[" ++ body ++ "]"
      else "<" ++ body ++ ">"

/-- The texts of a list that starts at a place; an item that is no text cannot be joined to others.
-/
def textsFrom (place : Nat) : List Document → Except Failure (List String)
  | [] => .ok []
  | .text s :: rest => (textsFrom (place + 1) rest).map (s :: ·)
  | item :: _ =>
    .error (.mismatch ("sequence item " ++ toString place ++ ": expected str instance, " ++
      item.typeName ++ " found"))

/-- Joins texts; all items have to be texts. -/
def joined (separator : String) (items : List Document) : Except Failure String :=
  (textsFrom 0 items).map separator.intercalate

/-- How a command of this name is called. -/
def usageLine (title : Label) (node : Node) : Except Failure String :=
  match node.parameters with
  | none => .ok "[no usage]"
  | some _ => do
    let rules ← node.rules
    joined " " (.text "[usage]" :: title.document :: (rules.filterMap usagePart?).map .text)

/-- The aliases as the first line of a description tells them. -/
def aliasPart (node : Node) : Except Failure String :=
  if node.aliases.isEmpty then .ok ""
  else (joined ", " node.aliases).map (", [alias] " ++ ·)

/-- The description of a command that goes by this name. A command whose rules were never read, or
one that has to do with names that are no texts, cannot be described. -/
def describe (node : Node) (name : Label) : Except Failure String := do
  let title := if name.truthy then name else .text rootTitle
  let aliases ← aliasPart node
  let keys ← joined ", " (node.children.labels.map Label.document)
  let usage ← usageLine title node
  return "\n".intercalate [
    title.display ++ ": [perm] " ++ toString node.permission ++ aliases,
    "[subs] " ++ (if keys = "" then "none" else keys),
    usage,
    "[help] " ++ (if node.help.truthy then node.help.display else "no information")]

def helpOfHelpText : String :=
  "?: alias: help\nusage: ?\nhelp: get help"

end Switchboard.Graph
