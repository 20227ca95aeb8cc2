import Switchboard.Proofs.Share
import Switchboard.Proofs.TableOrder

/-!
Naming a value and placing it. Where rules admit both, it does not matter which values are passed by
name, nor in which order, and which are placed among the tokens: binding comes to the same arguments
or fails at the same rule for the same cause.
-/
namespace Switchboard

open Work

/-- Whether a rule asks for a value that may be passed by name as well as in its place. -/
def Rule.isFlexible (rule : Rule) : Bool :=
  rule.asks && ! rule.namedOnly && ! rule.positionalOnly

namespace Table

variable {α : Type}

theorem erase_of_notMem {t : Table α} {key : String} (fresh : key ∉ keys t) : t.erase key = t := by
  refine List.filter_eq_self.mpr fun entry member => ?_
  have other : entry.1 ≠ key := by
    rintro rfl
    exact fresh (List.mem_map_of_mem member)
  simpa using other

/-- Without its first key a table is what follows it. -/
theorem erase_cons {rest : Table α} {key : String} {value : α}
    (once : (keys ((key, value) :: rest)).Nodup) : erase ((key, value) :: rest) key = rest := by
  have fresh := (List.nodup_cons.mp once).1
  refine (List.filter_cons_of_neg (by simp)).trans ?_
  exact erase_of_notMem fresh

/-- One entry can be looked up and taken out wherever it stands. -/
theorem take_out {t rest : Table α} {key : String} {value : α}
    (once : (keys ((key, value) :: rest)).Nodup) (moved : t.Perm ((key, value) :: rest)) :
    t.get? key = some value ∧ (t.erase key).Perm rest := by
  have onceHere : (keys t).Nodup := (moved.map Prod.fst).nodup_iff.mpr once
  constructor
  · rw [(perm_iff onceHere once).mp moved key, get?_cons, if_pos rfl]
  · have erased := moved.filter fun entry => entry.1 ≠ key
    rwa [← erase, ← erase, erase_cons once] at erased

end Table

namespace Binding

variable {finish : List String → Table OptionValue → Except Failure (List Argument)}
variable {invocation : Invocation} {rule : Rule} {rules : List Rule}
variable {positional : List String} {named : Table OptionValue} {key : String}

/-- A rule that takes by place takes the next token as long as its name is not among the options. -/
theorem take_placed (isOpen : rule.isOpenTo invocation.level = true) (asked : rule.asks = true)
    (free : rule.namedOnly = false) (name : rule.name = .text key)
    (missing : named.get? key = none) (token : String) :
    take invocation rule (token :: positional) named = do
      return (.value (← rule.coerce (.text token)), positional, named) := by
  have looked : namedValue? rule named = .ok none := by
    rw [namedValue?, name]
    exact congrArg Except.ok missing
  have supplied : supply rule (token :: positional) named = .ok (.next token) :=
    supply_eq_ok_iff.mpr ⟨looked, free, positional, rfl⟩
  exact take_supplied isOpen asked supplied

theorem take_named (isOpen : rule.isOpenTo invocation.level = true) (asked : rule.asks = true)
    (admitted : rule.positionalOnly = false) (name : rule.name = .text key) {value : OptionValue}
    (passed : named.get? key = some value) :
    take invocation rule positional named = do
      return (.value (← rule.coerce (optionDatum value)), positional, named.erase key) := by
  have looked : namedValue? rule named = .ok (some value) := by
    rw [namedValue?, name]
    exact congrArg Except.ok passed
  have supplied : supply rule positional named = .ok (.named value) :=
    supply_eq_ok_iff.mpr ⟨admitted, looked⟩
  have left : withoutName rule named = named.erase key := by rw [withoutName, name]
  rw [← left]
  exact take_supplied isOpen asked supplied

/-- The values that are passed by name. -/
def byName (chosen : String → Bool) (given : List (String × String)) : Table OptionValue :=
  (given.filter fun entry => chosen entry.1).map fun entry => (entry.1, .text entry.2)

/-- The values that are placed. -/
def inPlace (chosen : String → Bool) (given : List (String × String)) : List String :=
  (given.filter fun entry => ! chosen entry.1).map Prod.snd

variable {chosen : String → Bool} {rest given : List (String × String)} {text : String}

theorem mem_keys_byName (member : key ∈ (byName chosen given).keys) :
    key ∈ given.map Prod.fst := by
  rw [Table.keys, byName, List.map_map] at member
  obtain ⟨entry, there, rfl⟩ := List.mem_map.mp member
  exact List.mem_map_of_mem (List.mem_of_mem_filter there)

theorem nodup_keys_byName (distinct : (given.map Prod.fst).Nodup) :
    (byName chosen given).keys.Nodup := by
  rw [Table.keys, byName, List.map_map]
  exact distinct.sublist (List.filter_sublist.map Prod.fst)

/-- A rule that admits both makes its argument of the same text, and leaves what is for the other
rules. -/
theorem take_flexible (isOpen : rule.isOpenTo invocation.level = true)
    (flexible : rule.isFlexible = true) (name : rule.name = .text key)
    (distinct : (((key, text) :: rest).map Prod.fst).Nodup)
    (passed : named.Perm (byName chosen ((key, text) :: rest))) (further : List String) :
    ∃ left : Table OptionValue, left.Perm (byName chosen rest) ∧
      take invocation rule (inPlace chosen ((key, text) :: rest) ++ further) named = do
        return (.value (← rule.coerce (.text text)), inPlace chosen rest ++ further, left) := by
  obtain ⟨⟨asked, free⟩, admitted⟩ : (rule.asks = true ∧ rule.namedOnly = false) ∧
      rule.positionalOnly = false := by simpa [Rule.isFlexible] using flexible
  cases by_name : chosen key with
  | true =>
    have first : byName chosen ((key, text) :: rest) = (key, .text text) :: byName chosen rest := by
      simp [byName, by_name]
    have same : inPlace chosen ((key, text) :: rest) = inPlace chosen rest := by
      simp [inPlace, by_name]
    have once : (byName chosen ((key, text) :: rest)).keys.Nodup := nodup_keys_byName distinct
    rw [first] at passed once
    obtain ⟨found, left⟩ := Table.take_out once passed
    exact ⟨_, left, same ▸ take_named isOpen asked admitted name found⟩
  | false =>
    have same : byName chosen ((key, text) :: rest) = byName chosen rest := by
      simp [byName, by_name]
    have first : inPlace chosen ((key, text) :: rest) = text :: inPlace chosen rest := by
      simp [inPlace, by_name]
    have missing : named.get? key = none := by
      refine Table.get?_of_notMem fun member => ?_
      have among := (passed.map Prod.fst).mem_iff.mp member
      exact (List.nodup_cons.mp distinct).1 (mem_keys_byName (same ▸ among))
    exact ⟨named, same ▸ passed, first ▸ take_placed isOpen asked free name missing text⟩

/-- What the invocation supplies is taken from nobody. -/
theorem take_context (isOpen : rule.isOpenTo invocation.level = true)
    (context : rule.kind.isContext = true) :
    rule.asks = false ∧ ∃ argument, ∀ positional named,
      take invocation rule positional named = .ok (argument, positional, named) := by
  have supplied : rule.asks = false ∧
      ∃ argument, invocation.argument? rule.kind = some argument := by
    cases kind : rule.kind <;> simp_all [Kind.isContext, Rule.asks, Invocation.argument?]
  obtain ⟨unasked, argument, own⟩ := supplied
  exact ⟨unasked, argument, fun positional named => take_own isOpen own⟩

/-- Two choices of what to name, and two orders of the named values, are bound alike. -/
theorem bindThen_byName {other : String → Bool} {otherNamed : Table OptionValue}
    {front : List Rule} (back : List Rule)
    (flexible : ∀ rule ∈ front, rule.kind.isContext = true ∨ rule.isFlexible = true)
    (names : (front.filter Rule.asks).map Rule.name = given.map fun entry => .text entry.1)
    (distinct : (given.map Prod.fst).Nodup) (passed : named.Perm (byName chosen given))
    (otherPassed : otherNamed.Perm (byName other given)) (further : List String) :
    bindThen finish invocation (front ++ back) (inPlace chosen given ++ further) named =
      bindThen finish invocation (front ++ back) (inPlace other given ++ further) otherNamed := by
  induction front generalizing given named otherNamed with
  | nil =>
    obtain rfl := List.map_eq_nil_iff.mp names.symm
    obtain rfl := passed.eq_nil
    obtain rfl := otherPassed.eq_nil
    rfl
  | cons rule front ih =>
    obtain ⟨here, later⟩ := List.forall_mem_cons.mp flexible
    rw [List.cons_append, bindThen_eq_take, bindThen_eq_take]
    cases isOpen : rule.isOpenTo invocation.level with
    | false => rw [take_closed isOpen, take_closed isOpen]
    | true =>
      rcases here with context | flexible
      · obtain ⟨unasked, argument, taken⟩ := take_context isOpen context
        rw [List.filter_cons_of_neg (by simp [unasked])] at names
        rw [taken, taken, ok_bind, ok_bind]
        dsimp only
        rw [ih later names distinct passed otherPassed]
      · have asked : rule.asks = true := by simp_all [Rule.isFlexible]
        rw [List.filter_cons_of_pos asked, List.map_cons] at names
        obtain ⟨⟨key, text⟩, rest, rfl, name, names⟩ := List.map_eq_cons_iff.mp names.symm
        obtain ⟨left, leftPassed, taken⟩ :=
          take_flexible isOpen flexible name.symm distinct passed further
        obtain ⟨otherLeft, otherLeftPassed, otherTaken⟩ :=
          take_flexible isOpen flexible name.symm distinct otherPassed further
        rw [taken, otherTaken]
        cases rule.coerce (.text text) with
        | error failure => rfl
        | ok bound =>
          have rest := ih later names.symm (List.nodup_cons.mp distinct).2 leftPassed
            otherLeftPassed
          simp only [ok_bind, pure_bind, rest]

/-- Naming a value and placing it are interchangeable. For rules with names of their own that admit
both, with what the invocation supplies between them and any rules after them, it makes no
difference which of the values are passed by name, in whatever order: the arguments are the same, or
the failure is, as if all values were placed. -/
theorem naming_eq_placing (invocation : Invocation) {front : List Rule} (back : List Rule)
    (given : List (String × String))
    (flexible : ∀ rule ∈ front, rule.kind.isContext = true ∨ rule.isFlexible = true)
    (names : (front.filter Rule.asks).map Rule.name = given.map fun entry => .text entry.1)
    (distinct : (given.map Prod.fst).Nodup) (chosen : String → Bool) {named : Table OptionValue}
    (passed : named.Perm (byName chosen given)) (further : List String) :
    bind invocation (front ++ back) (inPlace chosen given ++ further) named =
      bind invocation (front ++ back) (given.map Prod.snd ++ further) [] := by
  have none : [].Perm (byName (fun _ => false) given) := by simp [byName]
  have all : inPlace (fun _ => false) given = given.map Prod.snd := by simp [inPlace]
  rw [← all]
  exact bindThen_byName back flexible names distinct passed none further

/-- Three values, with the caller between them. -/
def threeValues : List Rule :=
  [{ kind := .string, name := .text "x" }, { kind := .caller },
    { kind := .number, name := .text "y" }, { kind := .boolean, name := .text "z" }]

/-- The first and the last value are passed by name, in the other order, with more to come. -/
theorem naming_eq_placing_outer :
    bind plainInvocation (threeValues ++ [{ kind := .rest, name := .text "more" }])
        ["5", "and", "so"] [("z", .text "true"), ("x", .text "a")] =
      bind plainInvocation (threeValues ++ [{ kind := .rest, name := .text "more" }])
        ["a", "5", "true", "and", "so"] [] :=
  naming_eq_placing plainInvocation [{ kind := .rest, name := .text "more" }]
    [("x", "a"), ("y", "5"), ("z", "true")] (by decide) rfl (by decide) (fun key => key ≠ "y")
    (.swap _ _ _) ["and", "so"]

end Binding
end Switchboard
