import Switchboard.Proofs.Dispatch

/-!
Two runs side by side. Work that starts in related states agrees if it comes to related values, or
to one failure, and leaves related states. Deciding about a line agrees wherever asking the tables
of its caller does.
-/
namespace Switchboard

namespace Work

variable {ε σ α β γ δ : Type}

/-- Results of two runs: values that are related, or one failure. -/
inductive Concur (results : α → β → Prop) : Except ε α → Except ε β → Prop
  | ok {a : α} {b : β} (same : results a b) : Concur results (.ok a) (.ok b)
  | error (failure : ε) : Concur results (.error failure) (.error failure)

theorem concur_eq_iff {result other : Except ε α} : Concur Eq result other ↔ result = other := by
  constructor
  · rintro (rfl | failure)
    · rfl
    · rfl
  · rintro rfl
    cases result with
    | ok value => exact .ok rfl
    | error failure => exact .error failure

theorem Concur.weaken {results wider : α → β → Prop} {result : Except ε α} {other : Except ε β}
    (concur : Concur results result other) (seen : ∀ a b, results a b → wider a b) :
    Concur wider result other := by
  cases concur with
  | ok same => exact .ok (seen _ _ same)
  | error failure => exact .error failure

theorem Concur.map {results : α → β → Prop} {others : γ → δ → Prop} {f : α → γ} {g : β → δ}
    {result : Except ε α} {other : Except ε β} (concur : Concur results result other)
    (gives : ∀ a b, results a b → others (f a) (g b)) :
    Concur others (result.map f) (other.map g) := by
  cases concur with
  | ok same => exact .ok (gives _ _ same)
  | error failure => exact .error failure

/-- Two pieces of work that come from related states to results that concur, and leave related
states. -/
def Agree (related : σ → σ → Prop) (results : α → β → Prop) (work : ExceptT ε (StateM σ) α)
    (other : ExceptT ε (StateM σ) β) : Prop :=
  ∀ s t, related s t →
    Concur results (work.run s).1 (other.run t).1 ∧ related (work.run s).2 (other.run t).2

namespace Agree

variable {related : σ → σ → Prop} {results : α → β → Prop} {work : ExceptT ε (StateM σ) α}
  {other : ExceptT ε (StateM σ) β}

theorem snd (agree : Agree related results work other) {s t : σ} (before : related s t) :
    related (work.run s).2 (other.run t).2 :=
  (agree s t before).2

theorem pure {a : α} {b : β} (same : results a b) :
    Agree related results (Pure.pure a : ExceptT ε (StateM σ) α) (Pure.pure b) :=
  fun _ _ still => ⟨.ok same, still⟩

theorem throw (failure : ε) :
    Agree related results (throw failure : ExceptT ε (StateM σ) α) (throw failure) :=
  fun _ _ still => ⟨.error failure, still⟩

theorem get : Agree related related (get : ExceptT ε (StateM σ) σ) get :=
  fun _ _ still => ⟨.ok still, still⟩

theorem modify {f g : σ → σ} (still : ∀ s t, related s t → related (f s) (g t)) :
    Agree related Eq (modify f : ExceptT ε (StateM σ) PUnit) (modify g) :=
  fun s t before => ⟨.ok rfl, still s t before⟩

theorem ofExcept {result : Except ε α} {otherResult : Except ε β}
    (concur : Concur results result otherResult) :
    Agree related results (MonadExcept.ofExcept result : ExceptT ε (StateM σ) α)
      (MonadExcept.ofExcept otherResult) := by
  intro s t still
  rw [run_ofExcept, run_ofExcept]
  exact ⟨concur, still⟩

theorem bind {finals : γ → δ → Prop} {next : α → ExceptT ε (StateM σ) γ}
    {otherNext : β → ExceptT ε (StateM σ) δ} (first : Agree related results work other)
    (rest : ∀ a b, results a b → Agree related finals (next a) (otherNext b)) :
    Agree related finals (work >>= next) (other >>= otherNext) := by
  intro s t before
  obtain ⟨concur, still⟩ := first s t before
  rw [run_bind, run_bind]
  rcases ran : work.run s with ⟨result, later⟩
  rcases otherRan : other.run t with ⟨otherResult, otherLater⟩
  rw [ran, otherRan] at concur still
  cases concur with
  | ok same => exact rest _ _ same later otherLater still
  | error failure => exact ⟨.error failure, still⟩

theorem ite {condition : Prop} [Decidable condition] {otherwise : ExceptT ε (StateM σ) α}
    {otherOtherwise : ExceptT ε (StateM σ) β} (first : Agree related results work other)
    (second : Agree related results otherwise otherOtherwise) :
    Agree related results (if condition then work else otherwise)
      (if condition then other else otherOtherwise) := by
  split
  · exact first
  · exact second

theorem weaken {wider : α → β → Prop} (agree : Agree related results work other)
    (seen : ∀ a b, results a b → wider a b) : Agree related wider work other := by
  intro s t before
  obtain ⟨concur, still⟩ := agree s t before
  exact ⟨concur.weaken seen, still⟩

theorem map (f : α → γ) {work other : ExceptT ε (StateM σ) α}
    (agree : Agree related Eq work other) : Agree related Eq (f <$> work) (f <$> other) := by
  intro s t before
  obtain ⟨concur, still⟩ := agree s t before
  rw [run_map, run_map]
  exact ⟨concur.map fun _ _ same => congrArg f same, still⟩

theorem discard (agree : Agree related Eq work work) :
    Agree related Eq (discard work) (discard work) := by
  intro s t before
  obtain ⟨concur, still⟩ := agree s t before
  rw [run_discard, run_discard, concur_eq_iff.mp concur]
  exact ⟨concur_eq_iff.mpr rfl, still⟩

theorem tryCatch {rescue : ε → ExceptT ε (StateM σ) α} {otherRescue : ε → ExceptT ε (StateM σ) β}
    (agree : Agree related results work other)
    (rescued : ∀ failure, Agree related results (rescue failure) (otherRescue failure)) :
    Agree related results (tryCatch work rescue) (tryCatch other otherRescue) := by
  intro s t before
  obtain ⟨concur, still⟩ := agree s t before
  rw [run_tryCatch, run_tryCatch]
  rcases ran : work.run s with ⟨result, later⟩
  rcases otherRan : other.run t with ⟨otherResult, otherLater⟩
  rw [ran, otherRan] at concur still
  cases concur with
  | ok same => exact ⟨.ok same, still⟩
  | error failure => exact rescued failure later otherLater still

theorem forM {next : γ → ExceptT ε (StateM σ) PUnit} (items : List γ)
    (each : ∀ item ∈ items, Agree related Eq (next item) (next item)) :
    Agree related Eq (items.forM next) (items.forM next) := by
  induction items with
  | nil => exact .pure rfl
  | cons item rest ih =>
    refine (each item List.mem_cons_self).bind fun _ _ _ => ?_
    exact ih fun other member => each other (List.mem_cons_of_mem item member)

theorem filterMapM {next : γ → ExceptT ε (StateM σ) (Option δ)} (items : List γ)
    (each : ∀ item, Agree related Eq (next item) (next item)) :
    Agree related Eq (items.filterMapM next) (items.filterMapM next) := by
  induction items with
  | nil => exact .pure rfl
  | cons item rest ih =>
    rw [List.filterMapM_cons]
    refine (each item).bind fun found _ same => ?_
    subst same
    cases found with
    | none => exact ih
    | some value => exact ih.bind fun values _ same => .pure (congrArg (value :: ·) same)

/-- Work that agrees and keeps a property leaves states that are related and have the property. -/
theorem and {holds : σ → Prop} (agree : Agree related results work other)
    (kept : Preserves holds work) (keptOther : Preserves holds other) :
    Agree (fun s t => related s t ∧ holds s ∧ holds t) results work other := by
  rintro s t ⟨before, here, there⟩
  obtain ⟨concur, still⟩ := agree s t before
  exact ⟨concur, still, (kept s here).1, (keptOther t there).1⟩

/-- Work that keeps what is to be seen agrees, where this is alike, if its results do. -/
theorem of_keeps_alike {view : σ → γ} {alike : γ → γ → Prop} (kept : Keeps view work)
    (keptOther : Keeps view other)
    (same : ∀ s t, alike (view s) (view t) → Concur results (work.run s).1 (other.run t).1) :
    Agree (fun s t => alike (view s) (view t)) results work other := by
  intro s t before
  refine ⟨same s t before, ?_⟩
  dsimp only
  rw [kept s, keptOther t]
  exact before

theorem of_keeps {view : σ → γ} (kept : Keeps view work) (keptOther : Keeps view other)
    (same : ∀ s t, view s = view t → Concur results (work.run s).1 (other.run t).1) :
    Agree (fun s t => view s = view t) results work other :=
  of_keeps_alike kept keptOther same

end Agree

end Work

open Work

namespace Bot

theorem agree_under {α : Type} {related : Bot → Bot → Prop} {results : α → α → Prop}
    {work other : BotM α} (agree : Agree related results work other) (command : String) :
    Agree related results (under command work) (under command other) := by
  intro bot twin before
  obtain ⟨concur, still⟩ := agree bot twin before
  rw [run_under, run_under]
  refine ⟨?_, still⟩
  generalize (work.run bot).1 = result at concur ⊢
  generalize (other.run twin).1 = otherResult at concur ⊢
  cases concur with
  | ok same => exact .ok same
  | error failure => exact .error _

theorem agree_onGraph {α : Type} {related : Bot → Bot → Prop}
    (graph : ∀ bot twin, related bot twin → bot.graph = twin.graph)
    (changed : ∀ bot twin graph, related bot twin → related { bot with graph } { twin with graph })
    (work : GraphM α) : Agree related Eq (onGraph work) (onGraph work) := by
  intro bot twin before
  unfold onGraph
  rw [run_bind_ok _ (run_get bot), run_bind_ok _ (run_get twin), graph bot twin before]
  rcases work.run twin.graph with ⟨result, later⟩
  cases result with
  | ok value => exact ⟨.ok rfl, changed bot twin later before⟩
  | error failure => exact ⟨.error failure, changed bot twin later before⟩

/-! ### Replies -/

/-- Bots that are related whatever they log, and that reply alike. -/
structure Heard (related : Bot → Bot → Prop) : Prop where
  config : ∀ bot twin, related bot twin → bot.config = twin.config
  record : ∀ event, Agree related Eq (record event) (record event)
  deliver : ∀ message segment, Agree related Eq (deliver message segment) (deliver message segment)

namespace Heard

variable {related : Bot → Bot → Prop}

theorem agree_replyError (heard : Heard related) (message : Message) (text : String) :
    Agree related Eq (replyError message text) (replyError message text) := by
  refine Agree.get.bind fun bot twin alike => ?_
  rw [heard.config bot twin alike]
  exact heard.deliver message _

theorem agree_report (heard : Heard related) (command : String) (message : Message)
    (text : String) (logged : Bool) :
    Agree related Eq (report command message text logged) (report command message text logged) := by
  unfold report
  split
  · exact (heard.record _).bind fun _ _ _ => heard.agree_replyError message text
  · exact heard.agree_replyError message text

theorem agree_settle (heard : Heard related) (message : Message) (fault : Fault) :
    Agree related Eq (settle message fault) (settle message fault) := by
  unfold settle
  split
  · exact heard.agree_replyError _ _
  · exact heard.agree_replyError _ _
  · exact heard.agree_report _ _ _ _
  · refine .ite (heard.agree_replyError _ _) ?_
    exact (heard.record _).bind fun _ _ _ => heard.agree_replyError _ _

theorem agree_deliverOutcome (heard : Heard related) (command : String) (message : Message)
    (outcome : Outcome) :
    Agree related Eq (deliverOutcome command message outcome)
      (deliverOutcome command message outcome) := by
  unfold deliverOutcome
  split
  · exact heard.agree_report _ _ _ _
  · split
    · exact .throw _
    · refine .forM _ fun segment _ => ?_
      refine (Agree.ofExcept (concur_eq_iff.mpr rfl)).bind fun part _ same => ?_
      exact same ▸ heard.deliver message part

theorem agree_passOn (heard : Heard related) (command : String) (message : Message)
    (failure : Failure) :
    Agree related Eq (passOn command message failure) (passOn command message failure) := by
  unfold passOn
  split
  · exact .throw _
  · exact .throw _
  · exact (heard.record _).bind fun _ _ _ => .throw _

/-- What handlers agree about is answered alike. -/
theorem agree_answer (heard : Heard related) (command : String) (message : Message)
    {work : BotM Outcome} (agree : Agree related Eq work work) :
    Agree related Eq (answer command message work) (answer command message work) := by
  have delivered : Agree related Eq (work >>= deliverOutcome command message)
      (work >>= deliverOutcome command message) := by
    refine agree.bind fun outcome _ same => ?_
    exact same ▸ heard.agree_deliverOutcome command message outcome
  refine Agree.tryCatch (delivered.tryCatch fun failure => ?_) fun failure => ?_
  · exact heard.agree_passOn command message failure
  · exact heard.agree_settle message _

end Heard

end Bot

namespace CallerTables

open Switchboard.Bot

/-- Bots that are alike in all that a line of a caller is decided by. -/
structure Comparable (tables : CallerTables) (caller : CallerId) (related : Bot → Bot → Prop) :
    Prop where
  config : ∀ bot twin, related bot twin → bot.config = twin.config
  graph : ∀ bot twin, related bot twin → bot.graph = twin.graph
  variablesOf : Agree related (fun known other => ∀ text, Line.tokenize known text =
    Line.tokenize other text) (tables.variablesOf caller) (tables.variablesOf caller)
  level? : Agree related Eq (tables.level? caller) (tables.level? caller)
  alias? : ∀ name, Agree related Eq (tables.alias? caller name) (tables.alias? caller name)
  scopes : Agree related Eq (tables.scopes caller) (tables.scopes caller)

variable {tables : CallerTables} {related : Bot → Bot → Prop} {caller : CallerId}

theorem Comparable.agree_levelOf (comparable : tables.Comparable caller related) :
    Agree related Eq (tables.levelOf caller) (tables.levelOf caller) := by
  refine Agree.get.bind fun bot twin alike => ?_
  rw [comparable.config bot twin alike]
  refine (Agree.ofExcept (concur_eq_iff.mpr rfl)).bind fun superuser _ same => ?_
  subst same
  refine .ite (.pure rfl) (comparable.level?.bind fun level _ same => ?_)
  exact .pure (congrArg (fun level : Option Int => Level.finite (level.getD 0)) same)

theorem Comparable.agree_readLine (comparable : tables.Comparable caller related)
    (text : String) :
    Agree related Eq (tables.readLine caller text)
      (tables.readLine caller text) := by
  refine comparable.variablesOf.bind fun known other tokenized => ?_
  refine comparable.agree_levelOf.bind fun level _ same => ?_
  subst same
  refine .ofExcept (concur_eq_iff.mpr ?_)
  unfold reading
  rw [tokenized]

/-- The same command is found where the scopes agree. -/
theorem agree_find?_of_scopes (graph : ∀ bot twin, related bot twin → bot.graph = twin.graph)
    (scopes : Agree related Eq (tables.scopes caller) (tables.scopes caller)) (name : String) :
    Agree related Eq (tables.find? name caller) (tables.find? name caller) := by
  refine Agree.get.bind fun bot twin alike => ?_
  rw [graph bot twin alike]
  split
  · exact .pure rfl
  · refine scopes.bind fun scopes _ same => ?_
    refine Agree.get.bind fun bot twin alike => .pure ?_
    rw [same, graph bot twin alike]

theorem Comparable.agree_find? (comparable : tables.Comparable caller related)
    (name : String) :
    Agree related Eq (tables.find? name caller) (tables.find? name caller) :=
  agree_find?_of_scopes comparable.graph comparable.scopes name

theorem agree_resolveAlias
    (alias? : ∀ name, Agree related Eq (tables.alias? caller name) (tables.alias? caller name))
    (name : String) :
    Agree related Eq (tables.resolveAlias caller name) (tables.resolveAlias caller name) :=
  (alias? _).bind fun _ _ same => .pure (same ▸ rfl)

/-- Comparable bots decide about a line in the same way. -/
theorem Comparable.agree_gate {message : Message}
    (comparable : tables.Comparable message.caller related) (text : String) :
    Agree related Eq (tables.gate message text) (tables.gate message text) := by
  refine (agree_under (comparable.agree_readLine text) _).bind fun reading _ same => ?_
  subst same
  have resolved := agree_resolveAlias comparable.alias? (reading.tokens.headD helpName)
  refine (agree_under resolved _).bind fun command _ same => ?_
  subst same
  refine agree_under ((comparable.agree_find? command).bind fun target _ same => ?_) _
  subst same
  cases target with
  | none => exact .throw _
  | some id =>
    refine Agree.get.bind fun bot twin alike => .ofExcept (concur_eq_iff.mpr ?_)
    rw [comparable.graph bot twin alike]

end CallerTables
end Switchboard
