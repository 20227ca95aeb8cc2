import Switchboard.Bot.Reply

/-!
What a handler gives back, taken apart: lists are nothing but their items, in order and at any
depth, and what is left are the leaves. The parts of a reply are the leaves that are not empty.
-/
namespace Switchboard

/-- What a handler gave back, where it is no list. -/
inductive Leaf where
  | datum (d : Document)
  | media (bytes : List UInt8)
  | failure (cause : Failure)
  | object (text : String)

namespace Leaf

/-- Whether a leaf is more than an empty value. -/
def isFilled : Leaf → Bool
  | .datum d => d.truthy
  | .media bytes => ! bytes.isEmpty
  | .failure _ | .object _ => true

/-- A leaf as it is sent: bytes as media, anything else as its text. -/
def shown : Leaf → Except Failure Segment
  | .datum d => d.written.map .text
  | .media bytes => .ok (.media bytes)
  | .failure cause => .ok (.text cause.message)
  | .object text => .ok (.text text)

/-- A leaf is only kept from being sent by a whole number of too many digits. -/
theorem shown_error {leaf : Leaf} {failure : Failure} (failed : leaf.shown = .error failure) :
    failure = .overlong := by
  cases leaf with
  | datum d =>
    simp only [shown, Datum.written] at failed
    by_cases writable : d.isWritable = true
    · rw [if_pos writable] at failed
      cases failed
    · rw [if_neg writable] at failed
      exact (Except.error.inj failed).symm
  | media bytes => cases failed
  | failure cause => cases failed
  | object text => cases failed

end Leaf

mutual

/-- The leaves of plain data. -/
def Datum.leaves : Document → List Leaf
  | .list items => Datum.leavesOf items
  | d => [.datum d]

/-- `Datum.leaves` on each item of a list. -/
def Datum.leavesOf : List Document → List Leaf
  | [] => []
  | item :: rest => Datum.leaves item ++ Datum.leavesOf rest

end

namespace Outcome

mutual

/-- The leaves of what a handler gave back. -/
def leaves : Outcome → List Leaf
  | .datum d => d.leaves
  | .media bytes => [.media bytes]
  | .many parts => leavesOf parts
  | .failure cause => [.failure cause]
  | .object text => [.object text]

/-- `leaves` on each of several outcomes. -/
def leavesOf : List Outcome → List Leaf
  | [] => []
  | part :: rest => leaves part ++ leavesOf rest

end

end Outcome

/-- The parts that are made of leaves. -/
def Leaf.sent (leaves : List Leaf) : List (Except Failure Segment) :=
  (leaves.filter Leaf.isFilled).map Leaf.shown

theorem Leaf.sent_append (first second : List Leaf) :
    Leaf.sent (first ++ second) = Leaf.sent first ++ Leaf.sent second := by
  rw [Leaf.sent, List.filter_append, List.map_append, Leaf.sent, Leaf.sent]

theorem Leaf.sent_singleton (leaf : Leaf) :
    Leaf.sent [leaf] = if leaf.isFilled then [leaf.shown] else [] := by
  unfold Leaf.sent
  rw [List.filter_cons]
  split <;> rfl

theorem Leaf.overlong_of_sent {leaves : List Leaf} {failure : Failure}
    (member : .error failure ∈ Leaf.sent leaves) : failure = .overlong := by
  obtain ⟨leaf, -, failed⟩ := List.mem_map.mp member
  exact shown_error failed

mutual

theorem Datum.segments_eq_sent : (d : Document) → Datum.segments d = Leaf.sent d.leaves
  | .list items => Datum.segmentsOf_eq_sent items
  | .null => (Leaf.sent_singleton (.datum .null)).symm
  | .bool b => (Leaf.sent_singleton (.datum (.bool b))).symm
  | .int n => (Leaf.sent_singleton (.datum (.int n))).symm
  | .real x => (Leaf.sent_singleton (.datum (.real x))).symm
  | .text s => (Leaf.sent_singleton (.datum (.text s))).symm
  | .moment m => (Leaf.sent_singleton (.datum (.moment m))).symm
  | .table fields => (Leaf.sent_singleton (.datum (.table fields))).symm
  | .mapping entries => (Leaf.sent_singleton (.datum (.mapping entries))).symm

theorem Datum.segmentsOf_eq_sent :
    (items : List Document) → Datum.segmentsOf items = Leaf.sent (Datum.leavesOf items)
  | [] => rfl
  | item :: rest => by
    rw [Datum.segmentsOf, Datum.leavesOf, Leaf.sent_append, Datum.segments_eq_sent item,
      Datum.segmentsOf_eq_sent rest]

end

namespace Outcome

mutual

/-- The parts of a reply are made of the leaves that are not empty, in their order. -/
theorem segments_eq_sent : (outcome : Outcome) → outcome.segments = Leaf.sent outcome.leaves
  | .datum d => Datum.segments_eq_sent d
  | .media [] => rfl
  | .media (_ :: _) => rfl
  | .many parts => segmentsOf_eq_sent parts
  | .failure _ => rfl
  | .object _ => rfl

theorem segmentsOf_eq_sent :
    (parts : List Outcome) → segmentsOf parts = Leaf.sent (leavesOf parts)
  | [] => rfl
  | part :: rest => by
    rw [segmentsOf, leavesOf, Leaf.sent_append, segments_eq_sent part, segmentsOf_eq_sent rest]

end

end Outcome
end Switchboard
