import Switchboard.Number.Shortest

/-!
Labels: what the entries of tables and commands are known under. A label is a text in nearly every
case, but it may be any datum that is neither a list nor a table. Two labels may be the same key
without being equal.
-/
namespace Switchboard

universe u

/-- A key that is known under a datum without parts. -/
inductive Label where
  | null
  | bool (b : Bool)
  | int (n : Int)
  | real (x : Binary64)
  | text (s : String)
deriving DecidableEq, Repr

namespace Label

/-- The empty text, which names nothing. -/
def blank : Label := .text ""

instance : Inhabited Label := ⟨.blank⟩

/-- The label that stands for all that count as the same key: a truth value counts as one or zero,
and a whole double as the integer. -/
def identity : Label → Label
  | .bool b => .int (if b then 1 else 0)
  | .real x =>
    match x.toInt? with
    | some n => .int n
    | none => .real x
  | label => label

/-- Whether two labels are the same key. -/
def same (a b : Label) : Bool :=
  a.identity = b.identity

/-- The text of a label, if it is one. -/
def text? : Label → Option String
  | .text s => some s
  | _ => none

/-- The key under which a label's entry stands where only texts are keys. -/
def fieldName : Label → String
  | .null => "null"
  | .bool true => "true"
  | .bool false => "false"
  | .int n => toString n
  | .real (.infinity negative) => if negative then "-Infinity" else "Infinity"
  | .real .nan => "NaN"
  | .real x => x.text
  | .text s => s

@[simp] theorem same_refl (label : Label) : label.same label = true := by
  simp [same]

theorem same_comm (a b : Label) : a.same b = b.same a := by
  simp [same, eq_comm]

theorem same_trans {a b c : Label} (left : a.same b = true) (right : b.same c = true) :
    a.same c = true := by
  simp_all [same]

theorem same_text (s : String) (label : Label) :
    (text s).same label = decide (label = .text s) := by
  cases label with
  | real x => cases h : x.toInt? <;> simp [same, identity, h]
  | text t => simp [same, identity, eq_comm]
  | _ => simp [same, identity]

end Label

/-- Values by their labels, in the order in which the labels were first set. Of two entries for the
same key the first counts. -/
abbrev Labelled (α : Type u) := List (Label × α)

namespace Labelled

variable {α : Type u}

/-- The value under a label. -/
def get? : Labelled α → Label → Option α
  | [], _ => none
  | (known, value) :: rest, label => if known.same label then some value else get? rest label

/-- Puts a value under a label. A label that is the same key as a known one leaves that one in its
place; a new one comes last. -/
def insert : Labelled α → Label → α → Labelled α
  | [], label, value => [(label, value)]
  | (known, old) :: rest, label, value =>
    if known.same label then (known, value) :: rest else (known, old) :: insert rest label value

/-- The values that arise by setting the labels one after the other. -/
def ofList (entries : List (Label × α)) : Labelled α :=
  entries.foldl (fun known entry => insert known entry.1 entry.2) []

@[simp] theorem get?_nil (label : Label) : get? ([] : Labelled α) label = none := rfl

@[simp] theorem get?_cons (known label : Label) (value : α) (rest : Labelled α) :
    get? ((known, value) :: rest) label =
      if known.same label then some value else get? rest label := rfl

theorem get?_insert (entries : Labelled α) (label other : Label) (value : α) :
    get? (insert entries label value) other =
      if label.same other then some value else get? entries other := by
  induction entries with
  | nil => rfl
  | cons entry rest ih =>
    obtain ⟨known, old⟩ := entry
    by_cases here : known.same label = true
    · have sameOther : known.same other = label.same other := by
        rw [Bool.eq_iff_iff]
        exact ⟨Label.same_trans (Label.same_comm known label ▸ here), Label.same_trans here⟩
      by_cases found : label.same other = true <;> simp [insert, here, sameOther, found]
    · by_cases found : known.same other = true
      · have apart : ¬ label.same other = true := fun both =>
          here (Label.same_trans found (Label.same_comm label other ▸ both))
        simp [insert, here, found, apart]
      · simp [insert, here, found, ih]

end Labelled
end Switchboard
