import Switchboard.Command.Graph

/-!
Work that may fail, run on a state: what each step gives and leaves behind, and which views of the
state a piece of work leaves as they are. What was done before a failure stays done, so a view that
is kept is kept by failing work too.
-/
namespace Switchboard.Work

variable {ε σ α β γ : Type}

theorem ok_bind (value : α) (next : α → Except ε β) : (Except.ok value >>= next) = next value :=
  rfl

theorem error_bind (failure : ε) (next : α → Except ε β) :
    (Except.error failure >>= next) = .error failure :=
  rfl

theorem ok_ne_error (value : α) (failure : ε) : Except.ok value ≠ Except.error failure :=
  nofun

theorem eq_ok_of_bind {result : Except ε α} {next : α → Except ε β} {last : β}
    (done : (result >>= next) = .ok last) :
    ∃ value, result = .ok value ∧ next value = .ok last := by
  cases result with
  | error failure => cases done
  | ok value => exact ⟨value, rfl, done⟩

theorem eq_ok_of_toOption {result : Except ε α} {value : α}
    (gives : result.toOption = some value) : result = .ok value := by
  cases result with
  | error failure => cases gives
  | ok given =>
    obtain rfl := Option.some.inj gives
    rfl

/-- What one view shows of two results decides what another shows of them. -/
theorem map_eq_of_map_eq {view : α → β} {other : α → γ}
    (seen : ∀ a b, view a = view b → other a = other b) {first second : Except ε α}
    (same : first.map view = second.map view) : first.map other = second.map other := by
  cases first with
  | ok a =>
    cases second with
    | ok b => exact congrArg Except.ok (seen a b (Except.ok.inj same))
    | error failure => cases same
  | error failure =>
    cases second with
    | ok b => cases same
    | error cause => exact congrArg Except.error (Except.error.inj same)

theorem mapM_cons_eq_ok {f : α → Except ε β} {first : α} {items : List α} {results : List β}
    (done : (first :: items).mapM f = .ok results) :
    ∃ result others, f first = .ok result ∧ items.mapM f = .ok others ∧
      results = result :: others := by
  rw [List.mapM_cons] at done
  obtain ⟨result, head, done⟩ := eq_ok_of_bind done
  obtain ⟨others, rest, done⟩ := eq_ok_of_bind done
  exact ⟨result, others, head, rest, (Except.ok.inj done).symm⟩

theorem mem_of_mapM {f : α → Except ε β} {items : List α} {results : List β}
    (done : items.mapM f = .ok results) {item : α} (member : item ∈ items) :
    ∃ result ∈ results, f item = .ok result := by
  induction items generalizing results with
  | nil => cases member
  | cons first items ih =>
    obtain ⟨result, others, head, rest, rfl⟩ := mapM_cons_eq_ok done
    rcases List.mem_cons.mp member with rfl | later
    · exact ⟨result, List.mem_cons_self, head⟩
    · obtain ⟨other, found, same⟩ := ih rest later
      exact ⟨other, List.mem_cons_of_mem result found, same⟩

theorem error_of_mapM {f : α → Except ε β} {items : List α} {failure : ε}
    (failed : items.mapM f = .error failure) : ∃ item ∈ items, f item = .error failure := by
  induction items with
  | nil => cases failed
  | cons first items ih =>
    rw [List.mapM_cons] at failed
    cases head : f first with
    | error cause =>
      rw [head, error_bind] at failed
      obtain rfl := Except.error.inj failed
      exact ⟨first, List.mem_cons_self, head⟩
    | ok result =>
      rw [head, ok_bind] at failed
      cases rest : items.mapM f with
      | error cause =>
        rw [rest, error_bind] at failed
        obtain rfl := Except.error.inj failed
        obtain ⟨item, member, same⟩ := ih rest
        exact ⟨item, List.mem_cons_of_mem first member, same⟩
      | ok results =>
        rw [rest] at failed
        cases failed

/-- The results stand in the places of what they were made from. -/
theorem eq_ok_of_mapM {f : α → Except ε β} {items : List α} {results : List β}
    (done : items.mapM f = .ok results) {i : Nat} {item : α} {result : β}
    (there : items[i]? = some item) (given : results[i]? = some result) : f item = .ok result := by
  induction items generalizing results i with
  | nil => cases there
  | cons first items ih =>
    obtain ⟨made, others, head, rest, rfl⟩ := mapM_cons_eq_ok done
    cases i with
    | zero =>
      obtain rfl := Option.some.inj there
      obtain rfl := Option.some.inj given
      exact head
    | succ i => exact ih rest there given

theorem length_of_mapM {f : α → Except ε β} {items : List α} {results : List β}
    (done : items.mapM f = .ok results) : results.length = items.length := by
  induction items generalizing results with
  | nil =>
    obtain rfl := Except.ok.inj done
    rfl
  | cons first items ih =>
    obtain ⟨made, others, -, rest, rfl⟩ := mapM_cons_eq_ok done
    exact congrArg (· + 1) (ih rest)

/-- A result that, if it is a failure, is one for a given cause. -/
def FailsBy (cause : ε → Prop) (result : Except ε α) : Prop :=
  ∀ failure, result = .error failure → cause failure

namespace FailsBy

variable {cause : ε → Prop}

@[simp] theorem ok (value : α) : FailsBy cause (.ok value) :=
  fun _ failed => nomatch failed

@[simp] theorem pure (value : α) : FailsBy cause (Pure.pure value : Except ε α) :=
  .ok value

@[simp] theorem error_iff {failure : ε} :
    FailsBy cause (.error failure : Except ε α) ↔ cause failure := by
  constructor
  · intro caused
    exact caused failure rfl
  · intro caused other same
    obtain rfl := Except.error.inj same
    exact caused

theorem bind_iff {result : Except ε α} {next : α → Except ε β} :
    FailsBy cause (result >>= next) ↔
      FailsBy cause result ∧ ∀ value, result = .ok value → FailsBy cause (next value) := by
  cases result with
  | error failure =>
    rw [error_bind, error_iff, error_iff]
    exact ⟨fun caused => ⟨caused, nofun⟩, And.left⟩
  | ok value =>
    rw [ok_bind]
    constructor
    · intro caused
      refine ⟨.ok value, fun other same => ?_⟩
      obtain rfl := Except.ok.inj same
      exact caused
    · rintro ⟨-, caused⟩
      exact caused value rfl

theorem mapM {f : α → Except ε β} {items : List α}
    (caused : ∀ item ∈ items, FailsBy cause (f item)) : FailsBy cause (items.mapM f) := by
  intro failure failed
  obtain ⟨item, member, same⟩ := error_of_mapM failed
  exact caused item member failure same

end FailsBy

theorem run_bind (first : ExceptT ε (StateM σ) α) (next : α → ExceptT ε (StateM σ) β) (s : σ) :
    (first >>= next).run s =
      match first.run s with
      | (.ok value, later) => (next value).run later
      | (.error failure, later) => (.error failure, later) := by
  -- The state is threaded outside of the failures, so the first result is there in any case.
  change (ExceptT.bindCont next (first.run s).1) (first.run s).2 = _
  rcases first.run s with ⟨result, later⟩
  cases result <;> rfl

theorem run_bind_ok {first : ExceptT ε (StateM σ) α} {value : α} {s later : σ}
    (next : α → ExceptT ε (StateM σ) β) (done : first.run s = (.ok value, later)) :
    (first >>= next).run s = (next value).run later := by
  rw [run_bind, done]

theorem run_bind_error {first : ExceptT ε (StateM σ) α} {failure : ε} {s later : σ}
    (next : α → ExceptT ε (StateM σ) β) (failed : first.run s = (.error failure, later)) :
    (first >>= next).run s = (.error failure, later) := by
  rw [run_bind, failed]

theorem run_bind_eq_ok {first : ExceptT ε (StateM σ) α} {next : α → ExceptT ε (StateM σ) β}
    {value : β} {s last : σ} (done : (first >>= next).run s = (.ok value, last)) :
    ∃ middle later, first.run s = (.ok middle, later) ∧
      (next middle).run later = (.ok value, last) := by
  rw [run_bind] at done
  rcases begun : first.run s with ⟨result, later⟩
  rw [begun] at done
  cases result with
  | error failure => cases done
  | ok middle => exact ⟨middle, later, rfl, done⟩

/-- Work that was seen to give a value. -/
theorem run_eq_of_toOption {work : ExceptT ε (StateM σ) α} {value : α} {s : σ}
    (gives : (work.run s).1.toOption = some value) :
    work.run s = (.ok value, (work.run s).2) :=
  Prod.ext (eq_ok_of_toOption gives) rfl

theorem run_map (f : α → β) (work : ExceptT ε (StateM σ) α) (s : σ) :
    (f <$> work).run s = ((work.run s).1.map f, (work.run s).2) := by
  rw [map_eq_pure_bind, run_bind]
  rcases work.run s with ⟨result, later⟩
  cases result <;> rfl

theorem run_discard (work : ExceptT ε (StateM σ) α) (s : σ) :
    (discard work).run s = ((work.run s).1.map fun _ => ⟨⟩, (work.run s).2) :=
  run_map _ work s

@[simp] theorem run_pure (value : α) (s : σ) :
    (pure value : ExceptT ε (StateM σ) α).run s = (.ok value, s) := rfl

@[simp] theorem run_throw (failure : ε) (s : σ) :
    (throw failure : ExceptT ε (StateM σ) α).run s = (.error failure, s) := rfl

@[simp] theorem run_get (s : σ) : (get : ExceptT ε (StateM σ) σ).run s = (.ok s, s) := rfl

@[simp] theorem run_set (s later : σ) :
    (set later : ExceptT ε (StateM σ) PUnit).run s = (.ok ⟨⟩, later) := rfl

@[simp] theorem run_modify (f : σ → σ) (s : σ) :
    (modify f : ExceptT ε (StateM σ) PUnit).run s = (.ok ⟨⟩, f s) := rfl

@[simp] theorem run_ofExcept (result : Except ε α) (s : σ) :
    (MonadExcept.ofExcept result : ExceptT ε (StateM σ) α).run s = (result, s) := by
  cases result <;> rfl

@[simp] theorem run_modifyGet (f : σ → α × σ) (s : σ) :
    (modifyGet f : ExceptT ε (StateM σ) α).run s = (.ok (f s).1, (f s).2) := rfl

@[simp] theorem run_liftM (result : Except ε α) (s : σ) :
    (liftM result : ExceptT ε (StateM σ) α).run s = (result, s) := rfl

/-- Results that are looked at one after the other, up to the first failure. -/
theorem run_mapM_liftM (f : α → Except ε β) (items : List α) (s : σ) :
    (items.mapM fun item => (liftM (f item) : ExceptT ε (StateM σ) β)).run s =
      (items.mapM f, s) := by
  induction items with
  | nil => rfl
  | cons first rest ih =>
    rw [List.mapM_cons, List.mapM_cons, run_bind, run_liftM]
    cases f first with
    | error failure => rfl
    | ok result =>
      dsimp only
      rw [run_bind, ih]
      cases rest.mapM f with
      | error failure => rfl
      | ok results => rfl

theorem run_tryCatch (work : ExceptT ε (StateM σ) α) (rescue : ε → ExceptT ε (StateM σ) α)
    (s : σ) :
    (tryCatch work rescue).run s =
      match work.run s with
      | (.ok value, later) => (.ok value, later)
      | (.error failure, later) => (rescue failure).run later := by
  change (match (work.run s).1 with
    | .ok value => (pure (.ok value) : StateM σ (Except ε α))
    | .error failure => rescue failure) (work.run s).2 = _
  rcases work.run s with ⟨result, later⟩
  cases result <;> rfl

/-- The first item is gone through before the others. -/
theorem run_filterMapM_cons (f : α → ExceptT ε (StateM σ) (Option β)) (item : α) (rest : List α)
    (s : σ) :
    ((item :: rest).filterMapM f).run s =
      match (f item).run s with
      | (.error failure, later) => (.error failure, later)
      | (.ok none, later) => (rest.filterMapM f).run later
      | (.ok (some value), later) =>
        ((rest.filterMapM f).run later).map (·.map (value :: ·)) id := by
  rw [List.filterMapM_cons, run_bind]
  rcases (f item).run s with ⟨result, later⟩
  cases result with
  | error failure => rfl
  | ok found =>
    cases found with
    | none => rfl
    | some value =>
      dsimp only
      rw [run_bind]
      rcases (rest.filterMapM f).run later with ⟨result, last⟩
      cases result <;> rfl

/-! ### Views that are kept -/

/-- Work that leaves a view of the state as it was, whether or not it fails. -/
def Keeps (view : σ → γ) (work : ExceptT ε (StateM σ) α) : Prop :=
  ∀ s, view (work.run s).2 = view s

namespace Keeps

variable {view : σ → γ} {work : ExceptT ε (StateM σ) α}

/-- A view that can be seen in a view that is kept is kept. -/
theorem weaken {δ : Type} {other : σ → δ} (kept : Keeps view work)
    (seen : ∀ s later, view later = view s → other later = other s) : Keeps other work :=
  fun s => seen s _ (kept s)

theorem pure (value : α) : Keeps view (Pure.pure value : ExceptT ε (StateM σ) α) :=
  fun _ => rfl

theorem throw (failure : ε) : Keeps view (throw failure : ExceptT ε (StateM σ) α) :=
  fun _ => rfl

theorem get : Keeps view (get : ExceptT ε (StateM σ) σ) :=
  fun _ => rfl

theorem ofExcept (result : Except ε α) :
    Keeps view (MonadExcept.ofExcept result : ExceptT ε (StateM σ) α) := by
  intro s
  rw [run_ofExcept]

theorem modify {f : σ → σ} (same : ∀ s, view (f s) = view s) :
    Keeps view (modify f : ExceptT ε (StateM σ) PUnit) :=
  same

/-- Only the first of two pieces of work matters for a view that the second one keeps. -/
theorem after_bind (view : σ → γ) {next : α → ExceptT ε (StateM σ) β}
    (rest : ∀ value, Keeps view (next value)) (s : σ) :
    view ((work >>= next).run s).2 = view (work.run s).2 := by
  rw [run_bind]
  rcases work.run s with ⟨result, later⟩
  cases result with
  | error failure => rfl
  | ok value => exact rest value later

theorem after_tryCatch (view : σ → γ) {rescue : ε → ExceptT ε (StateM σ) α}
    (rescued : ∀ failure, Keeps view (rescue failure)) (s : σ) :
    view ((tryCatch work rescue).run s).2 = view (work.run s).2 := by
  rw [run_tryCatch]
  rcases work.run s with ⟨result, later⟩
  cases result with
  | error failure => exact rescued failure later
  | ok value => rfl

theorem bind {next : α → ExceptT ε (StateM σ) β} (first : Keeps view work)
    (rest : ∀ value, Keeps view (next value)) : Keeps view (work >>= next) := by
  intro s
  rw [after_bind view rest]
  exact first s

theorem ite {condition : Prop} [Decidable condition] {other : ExceptT ε (StateM σ) α}
    (kept : Keeps view work) (otherwise : Keeps view other) :
    Keeps view (if condition then work else other) := by
  split
  · exact kept
  · exact otherwise

theorem forM {next : β → ExceptT ε (StateM σ) PUnit} (items : List β)
    (kept : ∀ item ∈ items, Keeps view (next item)) : Keeps view (items.forM next) := by
  induction items with
  | nil => exact .pure _
  | cons item rest ih =>
    refine (kept item List.mem_cons_self).bind fun _ => ?_
    exact ih fun other member => kept other (List.mem_cons_of_mem item member)

theorem discard (kept : Keeps view work) : Keeps view (discard work) := by
  intro s
  rw [run_discard]
  exact kept s

theorem map (f : α → β) (kept : Keeps view work) : Keeps view (f <$> work) := by
  intro s
  rw [run_map]
  exact kept s

theorem tryCatch {rescue : ε → ExceptT ε (StateM σ) α} (kept : Keeps view work)
    (rescued : ∀ failure, Keeps view (rescue failure)) :
    Keeps view (tryCatch work rescue) := by
  intro s
  rw [after_tryCatch view rescued]
  exact kept s

theorem filterMapM {next : α → ExceptT ε (StateM σ) (Option β)} (items : List α)
    (kept : ∀ item, Keeps view (next item)) : Keeps view (items.filterMapM next) := by
  induction items with
  | nil => exact .pure _
  | cons item rest ih =>
    intro s
    have first := kept item s
    rw [run_filterMapM_cons]
    rcases ran : (next item).run s with ⟨result, later⟩
    rw [ran] at first
    cases result with
    | error failure => exact first
    | ok found =>
      have others := (ih later).trans first
      cases found with
      | none => exact others
      | some value => exact others

end Keeps

/-! ### Causes of failures -/

/-- Work that, in states with a property, fails for certain causes only and keeps the property. -/
def FailsOnly (holds : σ → Prop) (cause : ε → Prop) (work : ExceptT ε (StateM σ) α) : Prop :=
  ∀ s, holds s → holds (work.run s).2 ∧ ∀ failure, (work.run s).1 = .error failure → cause failure

namespace FailsOnly

variable {holds : σ → Prop} {cause : ε → Prop} {work : ExceptT ε (StateM σ) α}

theorem pure (value : α) : FailsOnly holds cause (Pure.pure value : ExceptT ε (StateM σ) α) :=
  fun _ kept => ⟨kept, fun _ failed => nomatch failed⟩

theorem throw {failure : ε} (caused : cause failure) :
    FailsOnly holds cause (throw failure : ExceptT ε (StateM σ) α) := by
  intro s kept
  refine ⟨kept, fun other failed => ?_⟩
  obtain rfl : failure = other := Except.error.inj failed
  exact caused

theorem get : FailsOnly holds cause (get : ExceptT ε (StateM σ) σ) :=
  fun _ kept => ⟨kept, fun _ failed => nomatch failed⟩

theorem modify {f : σ → σ} (kept : ∀ s, holds s → holds (f s)) :
    FailsOnly holds cause (modify f : ExceptT ε (StateM σ) PUnit) :=
  fun s before => ⟨kept s before, fun _ failed => nomatch failed⟩

theorem ofExcept {result : Except ε α}
    (caused : ∀ failure, result = .error failure → cause failure) :
    FailsOnly holds cause (MonadExcept.ofExcept result : ExceptT ε (StateM σ) α) := by
  intro s kept
  rw [run_ofExcept]
  exact ⟨kept, caused⟩

theorem bind {next : α → ExceptT ε (StateM σ) β} (first : FailsOnly holds cause work)
    (rest : ∀ value, FailsOnly holds cause (next value)) :
    FailsOnly holds cause (work >>= next) := by
  intro s before
  obtain ⟨kept, caused⟩ := first s before
  rw [run_bind]
  rcases done : work.run s with ⟨result, later⟩
  rw [done] at kept caused
  cases result with
  | error failure =>
    refine ⟨kept, fun other failed => ?_⟩
    obtain rfl : failure = other := Except.error.inj failed
    exact caused failure rfl
  | ok value => exact rest value later kept

theorem ite {condition : Prop} [Decidable condition] {other : ExceptT ε (StateM σ) α}
    (first : FailsOnly holds cause work) (otherwise : FailsOnly holds cause other) :
    FailsOnly holds cause (if condition then work else other) := by
  split
  · exact first
  · exact otherwise

end FailsOnly

/-- Work that keeps a property of states, in whatever way it ends. -/
abbrev Preserves (holds : σ → Prop) (work : ExceptT ε (StateM σ) α) : Prop :=
  FailsOnly holds (fun _ => True) work

theorem preserves_iff {holds : σ → Prop} {work : ExceptT ε (StateM σ) α} :
    Preserves holds work ↔ ∀ s, holds s → holds (work.run s).2 :=
  ⟨fun kept s before => (kept s before).1, fun kept s before => ⟨kept s before, fun _ _ => trivial⟩⟩

/-- What is kept is any value that a view can have. -/
theorem keeps_iff {view : σ → γ} {work : ExceptT ε (StateM σ) α} :
    Keeps view work ↔ ∀ value, Preserves (fun s => view s = value) work := by
  constructor
  · intro kept value s same
    exact ⟨(kept s).trans same, fun _ _ => trivial⟩
  · intro fails s
    exact (fails (view s) s rfl).1

/-! ### Where work leads -/

/-- Work that leads from states with one property to values and states with another, or fails in
states with a third. -/
def Leads (before : σ → Prop) (after : α → σ → Prop) (otherwise : σ → Prop)
    (work : ExceptT ε (StateM σ) α) : Prop :=
  ∀ s, before s →
    match work.run s with
    | (.ok value, later) => after value later
    | (.error _, later) => otherwise later

namespace Leads

variable {before : σ → Prop} {after : α → σ → Prop} {otherwise : σ → Prop}
  {work : ExceptT ε (StateM σ) α}

theorem pure {value : α} (holds : ∀ s, before s → after value s) :
    Leads before after otherwise (Pure.pure value : ExceptT ε (StateM σ) α) :=
  holds

theorem throw {failure : ε} (fails : ∀ s, before s → otherwise s) :
    Leads before after otherwise (throw failure : ExceptT ε (StateM σ) α) :=
  fails

theorem modify {after : PUnit → σ → Prop} {f : σ → σ} (holds : ∀ s, before s → after ⟨⟩ (f s)) :
    Leads before after otherwise (modify f : ExceptT ε (StateM σ) PUnit) :=
  holds

theorem modifyGet {f : σ → α × σ} (holds : ∀ s, before s → after (f s).1 (f s).2) :
    Leads before after otherwise (modifyGet f : ExceptT ε (StateM σ) α) :=
  holds

theorem bind {middle : α → σ → Prop} {after : β → σ → Prop} {next : α → ExceptT ε (StateM σ) β}
    (first : Leads before middle otherwise work)
    (rest : ∀ value, Leads (middle value) after otherwise (next value)) :
    Leads before after otherwise (work >>= next) := by
  intro s holds
  have led := first s holds
  rw [run_bind]
  rcases ran : work.run s with ⟨result, later⟩
  rw [ran] at led
  cases result with
  | error failure => exact led
  | ok value => exact rest value later led

/-- `bind` by way of a property that has to be told. -/
theorem via {after : β → σ → Prop} {next : α → ExceptT ε (StateM σ) β} (middle : α → σ → Prop)
    (first : Leads before middle otherwise work)
    (rest : ∀ value, Leads (middle value) after otherwise (next value)) :
    Leads before after otherwise (work >>= next) :=
  first.bind rest

/-- What is read from a state is known of that state. -/
theorem get_bind {next : σ → ExceptT ε (StateM σ) α}
    (rest : ∀ s, before s → Leads (· = s) after otherwise (next s)) :
    Leads before after otherwise (get >>= next) := by
  intro s holds
  rw [run_bind, run_get]
  exact rest s holds s rfl

theorem weaken {before' : σ → Prop} {after' : α → σ → Prop} {otherwise' : σ → Prop}
    (leads : Leads before after otherwise work) (stronger : ∀ s, before' s → before s)
    (weaker : ∀ value s, after value s → after' value s)
    (fails : ∀ s, otherwise s → otherwise' s) : Leads before' after' otherwise' work := by
  intro s holds
  have led := leads s (stronger s holds)
  rcases ran : work.run s with ⟨result, later⟩
  rw [ran] at led
  cases result with
  | error failure => exact fails later led
  | ok value => exact weaker value later led

/-- What holds after success and after failure holds in any case. -/
theorem snd {holds : σ → Prop} (leads : Leads before (fun _ => holds) holds work) {s : σ}
    (known : before s) : holds (work.run s).2 := by
  have led := leads s known
  rcases ran : work.run s with ⟨result, later⟩
  rw [ran] at led
  cases result with
  | error failure => exact led
  | ok value => exact led

theorem ofExcept {result : Except ε α} (holds : ∀ value s, before s → after value s)
    (fails : ∀ s, before s → otherwise s) :
    Leads before after otherwise (MonadExcept.ofExcept result : ExceptT ε (StateM σ) α) := by
  intro s known
  rw [run_ofExcept]
  cases result with
  | error failure => exact fails s known
  | ok value => exact holds value s known

theorem liftM {result : Except ε α}
    (holds : ∀ value s, result = .ok value → before s → after value s)
    (fails : ∀ s, before s → otherwise s) :
    Leads before after otherwise (liftM result : ExceptT ε (StateM σ) α) := by
  intro s known
  rw [run_liftM]
  cases result with
  | error failure => exact fails s known
  | ok value => exact holds value s rfl known

theorem discard (leads : Leads before after otherwise work) :
    Leads before (fun _ s => ∃ value, after value s) otherwise (discard work) := by
  intro s known
  have led := leads s known
  rw [run_discard]
  rcases ran : work.run s with ⟨result, later⟩
  rw [ran] at led
  cases result with
  | error failure => exact led
  | ok value => exact ⟨value, led⟩

/-- Values that are good one by one are good together. -/
theorem mapM {holds : σ → Prop} {good : β → Prop} {f : α → ExceptT ε (StateM σ) β} (items : List α)
    (each : ∀ item, Leads holds (fun value s => holds s ∧ good value) otherwise (f item)) :
    Leads holds (fun values s => holds s ∧ ∀ value ∈ values, good value) otherwise
      (items.mapM f) := by
  induction items with
  | nil => exact .pure fun s known => ⟨known, nofun⟩
  | cons item rest ih =>
    rw [List.mapM_cons]
    refine (each item).bind fun value => ?_
    intro s known
    refine (ih.bind fun values => ?_) s known.1
    refine .pure fun later led => ⟨led.1, fun other member => ?_⟩
    rcases List.mem_cons.mp member with rfl | old
    · exact known.2
    · exact led.2 other old

/-- What each item of a list keeps is kept by all of them. -/
theorem forM {holds : σ → Prop} {next : β → ExceptT ε (StateM σ) PUnit} (items : List β)
    (kept : ∀ item ∈ items, Leads holds (fun _ => holds) otherwise (next item)) :
    Leads holds (fun _ => holds) otherwise (items.forM next) := by
  induction items with
  | nil => exact .pure fun _ known => known
  | cons item rest ih =>
    refine (kept item List.mem_cons_self).bind fun _ => ?_
    exact ih fun other member => kept other (List.mem_cons_of_mem item member)

end Leads

end Switchboard.Work
