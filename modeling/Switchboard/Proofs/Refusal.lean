import Switchboard.Proofs.Binding
import Switchboard.Proofs.Handler

/-!
What is decided about a line before a handler is called. Deciding only asks the tables of callers:
it leaves a bot as they leave it, it fails as they fail or for causes of its own, which are never
what a handler would report, and a line that is admitted has its arguments bound at its caller's
level.
-/
namespace Switchboard

open Work

theorem CallerId.unreported_of_written {id : CallerId} {failure : Failure}
    (unwritten : id.written = .error failure) : failure.isReported = false := by
  unfold CallerId.written Datum.written at unwritten
  split at unwritten
  · cases unwritten
  · obtain rfl := Except.error.inj unwritten
    rfl

theorem Config.unreported_of_isSuperuser {config : Config} {caller : CallerId} {failure : Failure}
    (undecided : config.isSuperuser caller = .error failure) : failure.isReported = false := by
  unfold isSuperuser at undecided
  cases own : caller.written with
  | error cause =>
    rw [own, error_bind] at undecided
    obtain rfl := Except.error.inj undecided
    exact CallerId.unreported_of_written own
  | ok text =>
    rw [own, ok_bind] at undecided
    cases others : config.superusers.mapM CallerId.written with
    | error cause =>
      rw [others, error_bind] at undecided
      obtain rfl := Except.error.inj undecided
      obtain ⟨id, -, unwritten⟩ := error_of_mapM others
      exact CallerId.unreported_of_written unwritten
    | ok texts =>
      rw [others] at undecided
      cases undecided

namespace Bot

/-! ### Readings and admissions -/

theorem level_of_reading {known : Table String} {level : Level} {text : String} {line : Reading}
    (accepted : reading known level text = .ok line) : line.level = level := by
  unfold reading at accepted
  dsimp only at accepted
  split at accepted
  · cases accepted
  · split at accepted <;> cases accepted
    rfl

theorem unreported_of_reading {known : Table String} {level : Level} {text : String}
    {failure : Failure} (refused : reading known level text = .error failure) :
    failure.isReported = false := by
  unfold reading at refused
  dsimp only at refused
  split at refused
  · obtain rfl := Except.error.inj refused
    rfl
  · split at refused <;> cases refused
    rfl

namespace Reading

variable {line : Reading} {command : String} {message : Message} {id : NodeId} {node : Node}

theorem admission_of_bare (bare : node.handler = none) :
    line.admission command message id node = .error .notExecutable := by
  unfold Reading.admission
  rw [bare]

theorem admission_of_below {handler : Handler} (handled : node.handler = some handler)
    (below : line.level.isBelow node.permission = true) :
    line.admission command message id node =
      .error (.permissionDenied (.int node.permission) none) := by
  unfold Reading.admission
  rw [handled]
  exact if_pos below

/-- The arguments of a command are bound for a caller who may call it. -/
theorem admission_of_above {handler : Handler} (handled : node.handler = some handler)
    (above : line.level.isBelow node.permission = false) :
    line.admission command message id node =
      (line.arguments message id node).map fun arguments => { command, handler, arguments } := by
  unfold Reading.admission
  rw [handled]
  exact if_neg (Bool.eq_false_iff.mp above)

theorem arguments_of_admission {admission : Admission}
    (accepted : line.admission command message id node = .ok admission) :
    line.arguments message id node = .ok admission.arguments := by
  cases handled : node.handler with
  | none =>
    rw [admission_of_bare handled] at accepted
    cases accepted
  | some handler =>
    cases below : line.level.isBelow node.permission with
    | true =>
      rw [admission_of_below handled below] at accepted
      cases accepted
    | false =>
      rw [admission_of_above handled below] at accepted
      cases bound : line.arguments message id node with
      | error failure =>
        rw [bound] at accepted
        cases accepted
      | ok arguments =>
        rw [bound] at accepted
        obtain rfl := Except.ok.inj accepted
        rfl

theorem unreported_of_admission {failure : Failure}
    (refused : line.admission command message id node = .error failure) :
    failure.isReported = false := by
  cases handled : node.handler with
  | none =>
    rw [admission_of_bare handled] at refused
    obtain rfl := Except.error.inj refused
    rfl
  | some handler =>
    cases below : line.level.isBelow node.permission with
    | true =>
      rw [admission_of_below handled below] at refused
      obtain rfl := Except.error.inj refused
      rfl
    | false =>
      rw [admission_of_above handled below] at refused
      cases bound : line.arguments message id node with
      | error cause =>
        rw [bound] at refused
        obtain rfl := Except.error.inj refused
        exact Binding.isReported_bindParameters bound
      | ok arguments =>
        rw [bound] at refused
        cases refused

end Reading

/-! ### Work under the name of a command -/

theorem run_under {α : Type} (command : String) (work : BotM α) (bot : Bot) :
    (under command work).run bot =
      ((work.run bot).1.mapError fun failure => { command, failure }, (work.run bot).2) := rfl

theorem run_under_ok {α : Type} {command : String} {work : BotM α} {value : α} {bot later : Bot}
    (done : (under command work).run bot = (.ok value, later)) :
    work.run bot = (.ok value, later) := by
  rw [run_under] at done
  rcases finished : work.run bot with ⟨result, last⟩
  rw [finished] at done
  cases result with
  | error failure => cases done
  | ok other =>
    cases done
    rfl

theorem failsOnly_under {α : Type} {holds : Bot → Prop} {cause : Failure → Prop}
    {work : BotM α} (fails : FailsOnly holds cause work) (command : String) :
    FailsOnly holds (fun fault => cause fault.failure) (under command work) := by
  intro bot before
  obtain ⟨kept, caused⟩ := fails bot before
  rw [run_under]
  refine ⟨kept, fun fault failed => ?_⟩
  cases done : (work.run bot).1 with
  | error failure =>
    rw [done] at failed
    obtain rfl := Except.error.inj failed
    exact caused failure done
  | ok value =>
    rw [done] at failed
    cases failed

end Bot

namespace CallerTables

/-- Variables are asked for unless they are remembered, and then they are remembered. -/
theorem run_variablesOf (tables : CallerTables) (caller : CallerId) (bot : Bot) :
    (tables.variablesOf caller).run bot =
      match caller.written with
      | .error failure => (.error failure, bot)
      | .ok text =>
        match bot.remembered.get? text with
        | some known => (.ok known, bot)
        | none =>
          match (tables.variables? caller).run bot with
          | (.error failure, later) => (.error failure, later)
          | (.ok stored, later) => (.ok (stored.getD []),
            { later with remembered := later.remembered.insert text (stored.getD []) }) := by
  unfold variablesOf
  rw [run_bind, run_ofExcept]
  cases caller.written with
  | error failure => rfl
  | ok text =>
    dsimp only
    rw [run_bind_ok _ (run_get bot)]
    cases bot.remembered.get? text with
    | some known => rfl
    | none =>
      dsimp only
      rw [run_bind]
      rcases (tables.variables? caller).run bot with ⟨result, later⟩
      cases result with
      | error failure => rfl
      | ok stored => rfl

/-! ### What tables do when they are asked -/

/-- Tables that, in bots with a property, fail for certain causes only and keep the property. -/
structure FailOnly (tables : CallerTables) (holds : Bot → Prop) (cause : Failure → Prop) :
    Prop where
  variables? : ∀ caller, FailsOnly holds cause (tables.variables? caller)
  level? : ∀ caller, FailsOnly holds cause (tables.level? caller)
  alias? : ∀ caller name, FailsOnly holds cause (tables.alias? caller name)
  scopes : ∀ caller, FailsOnly holds cause (tables.scopes caller)

namespace FailOnly

variable {tables : CallerTables} {holds : Bot → Prop} {cause : Failure → Prop}

theorem variablesOf (fails : tables.FailOnly holds cause)
    (own : ∀ failure : Failure, failure.isReported = false → cause failure)
    (remembered : ∀ (bot : Bot) (remembered : Table (Table String)), holds bot →
      holds { bot with remembered })
    (caller : CallerId) : FailsOnly holds cause (tables.variablesOf caller) := by
  have written : FailsOnly holds cause (MonadExcept.ofExcept caller.written : BotM String) :=
    .ofExcept fun failure unwritten => own failure (CallerId.unreported_of_written unwritten)
  refine written.bind fun key => FailsOnly.get.bind fun bot => ?_
  split
  · exact .pure _
  · refine (fails.variables? caller).bind fun _ => ?_
    exact FailsOnly.bind (.modify fun bot => remembered bot _) fun _ => .pure _

theorem levelOf (fails : tables.FailOnly holds cause)
    (own : ∀ failure : Failure, failure.isReported = false → cause failure) (caller : CallerId) :
    FailsOnly holds cause (tables.levelOf caller) := by
  refine FailsOnly.get.bind fun bot => ?_
  have decided : FailsOnly holds cause
      (MonadExcept.ofExcept (bot.config.isSuperuser caller) : BotM Bool) :=
    .ofExcept fun failure undecided => own failure (Config.unreported_of_isSuperuser undecided)
  refine decided.bind fun superuser => .ite (.pure _) ?_
  exact (fails.level? caller).bind fun _ => .pure _

theorem admission (fails : tables.FailOnly holds cause)
    (own : ∀ failure : Failure, failure.isReported = false → cause failure) (command : String)
    (message : Message) (reading : Bot.Reading) :
    FailsOnly holds cause (tables.admission command message reading) := by
  have found : FailsOnly holds cause (tables.find? command message.caller) := by
    refine FailsOnly.get.bind fun bot => ?_
    split
    · exact .pure _
    · exact (fails.scopes _).bind fun _ => FailsOnly.get.bind fun _ => .pure _
  refine found.bind fun target => ?_
  split
  · exact .throw (own _ rfl)
  · refine FailsOnly.get.bind fun bot => .ofExcept fun failure refused => ?_
    exact own failure (Bot.Reading.unreported_of_admission refused)

/-- Deciding about a line keeps what asking the tables keeps, and fails for their causes or for
one that no handler would report. -/
theorem gate_of_variablesOf (fails : tables.FailOnly holds cause)
    (own : ∀ failure : Failure, failure.isReported = false → cause failure) {message : Message}
    (known : FailsOnly holds cause (tables.variablesOf message.caller)) (text : String) :
    FailsOnly holds (fun fault => cause fault.failure) (tables.gate message text) := by
  have read : FailsOnly holds cause (tables.readLine message.caller text) := by
    refine known.bind fun known => ?_
    refine (fails.levelOf own _).bind fun level => .ofExcept fun failure refused => ?_
    exact own failure (Bot.unreported_of_reading refused)
  refine (Bot.failsOnly_under read _).bind fun reading => ?_
  have resolved : FailsOnly holds cause
      (tables.resolveAlias message.caller (reading.tokens.headD helpName)) :=
    (fails.alias? _ _).bind fun _ => .pure _
  refine (Bot.failsOnly_under resolved _).bind fun command => ?_
  exact Bot.failsOnly_under (fails.admission own command message reading) _

theorem gate (fails : tables.FailOnly holds cause)
    (own : ∀ failure : Failure, failure.isReported = false → cause failure)
    (remembered : ∀ (bot : Bot) (remembered : Table (Table String)), holds bot →
      holds { bot with remembered })
    (message : Message) (text : String) :
    FailsOnly holds (fun fault => cause fault.failure) (tables.gate message text) :=
  fails.gate_of_variablesOf own (fails.variablesOf own remembered message.caller) text

end FailOnly

/-- Tables that leave a view of the bot as it is when they are asked. -/
structure Keep {γ : Type} (tables : CallerTables) (view : Bot → γ) : Prop where
  variables? : ∀ caller, Keeps view (tables.variables? caller)
  level? : ∀ caller, Keeps view (tables.level? caller)
  alias? : ∀ caller name, Keeps view (tables.alias? caller name)
  scopes : ∀ caller, Keeps view (tables.scopes caller)

namespace Keep

variable {γ : Type} {view : Bot → γ} {tables : CallerTables}

theorem failOnly (kept : tables.Keep view) (value : γ) :
    tables.FailOnly (fun bot => view bot = value) fun _ => True where
  variables? caller := keeps_iff.mp (kept.variables? caller) value
  level? caller := keeps_iff.mp (kept.level? caller) value
  alias? caller name := keeps_iff.mp (kept.alias? caller name) value
  scopes caller := keeps_iff.mp (kept.scopes caller) value

theorem variablesOf (kept : tables.Keep view)
    (remembered : ∀ (bot : Bot) (remembered : Table (Table String)),
      view { bot with remembered } = view bot)
    (caller : CallerId) : Keeps view (tables.variablesOf caller) := by
  refine keeps_iff.mpr fun value => ?_
  exact (kept.failOnly value).variablesOf (fun _ _ => trivial)
    (fun bot known same => (remembered bot known).trans same) caller

theorem levelOf (kept : tables.Keep view) (caller : CallerId) :
    Keeps view (tables.levelOf caller) := by
  refine keeps_iff.mpr fun value => ?_
  exact (kept.failOnly value).levelOf (fun _ _ => trivial) caller

/-- What tables keep when they are asked is kept while a line is decided about. -/
theorem gate (kept : tables.Keep view)
    (remembered : ∀ (bot : Bot) (remembered : Table (Table String)),
      view { bot with remembered } = view bot)
    (message : Message) (text : String) : Keeps view (tables.gate message text) := by
  refine keeps_iff.mpr fun value => ?_
  exact (kept.failOnly value).gate (fun _ _ => trivial)
    (fun bot known same => (remembered bot known).trans same) message text

end Keep

/-! ### Lines that are admitted -/

variable {tables : CallerTables} {bot later : Bot}

/-- A line is read with the level that its caller is then found to have. -/
theorem level_of_readLine {caller : CallerId} {text : String} {reading : Bot.Reading}
    (read : (tables.readLine caller text).run bot = (.ok reading, later)) :
    ∃ known middle, (tables.variablesOf caller).run bot = (.ok known, middle) ∧
      (tables.levelOf caller).run middle = (.ok reading.level, later) := by
  obtain ⟨known, middle, found, rest⟩ := run_bind_eq_ok read
  obtain ⟨level, last, held, done⟩ := run_bind_eq_ok rest
  rw [run_ofExcept] at done
  obtain ⟨accepted, rfl⟩ := Prod.mk.inj done
  refine ⟨known, middle, found, ?_⟩
  rw [Bot.level_of_reading accepted]
  exact held

/-- The arguments that a line has for a handler are bound for the line as it was read. -/
theorem arguments_of_gate {message : Message} {text : String} {admission : Admission}
    (admitted : (tables.gate message text).run bot = (.ok admission, later)) :
    ∃ reading middle id node,
      (tables.readLine message.caller text).run bot = (.ok reading, middle) ∧
        reading.arguments message id node = .ok admission.arguments := by
  obtain ⟨reading, middle, read, rest⟩ := run_bind_eq_ok admitted
  obtain ⟨command, named, -, done⟩ := run_bind_eq_ok rest
  obtain ⟨target?, found, -, rest⟩ := run_bind_eq_ok (Bot.run_under_ok done)
  cases target? with
  | none => cases rest
  | some id =>
    obtain ⟨present, last, -, rest⟩ := run_bind_eq_ok rest
    rw [run_ofExcept] at rest
    obtain ⟨accepted, -⟩ := Prod.mk.inj rest
    exact ⟨reading, middle, _, _, Bot.run_under_ok read,
      Bot.Reading.arguments_of_admission accepted⟩

/-- A permission check that a line has for a handler holds the level that the line was read with. -/
theorem permissionCheck_of_gate {message : Message} {text : String} {admission : Admission}
    (admitted : (tables.gate message text).run bot = (.ok admission, later)) {held : Level}
    (member : .permissionCheck held ∈ admission.arguments) :
    ∃ reading middle, (tables.readLine message.caller text).run bot = (.ok reading, middle) ∧
      held = reading.level := by
  obtain ⟨reading, middle, id, node, read, bound⟩ := arguments_of_gate admitted
  exact ⟨reading, middle, read, Binding.permissionCheck_of_bindParameters bound member⟩

/-- The only caller that a line names to a handler is its own. -/
theorem caller_of_gate {message : Message} {text : String} {admission : Admission}
    (admitted : (tables.gate message text).run bot = (.ok admission, later)) {caller : CallerId}
    (member : .caller caller ∈ admission.arguments) : caller = message.caller := by
  obtain ⟨reading, middle, id, node, -, bound⟩ := arguments_of_gate admitted
  exact Binding.caller_of_bindParameters bound member

end CallerTables

namespace Bot

/-- The tables of the store do nothing but read it. -/
theorem storedTables_failOnly {holds : Bot → Prop} {cause : Failure → Prop}
    (reads : ∀ {α : Type} (operation : StoreOperation) (query : Users.Entries → α),
      FailsOnly holds cause (onStore operation (Store.read query))) :
    storedTables.FailOnly holds cause where
  variables? _ := reads _ _
  level? _ := reads _ _
  alias? _ _ := reads _ _
  scopes _ := reads _ _

theorem storedTables_keep {γ : Type} {view : Bot → γ}
    (reads : ∀ {α : Type} (operation : StoreOperation) (query : Users.Entries → α),
      Keeps view (onStore operation (Store.read query))) : storedTables.Keep view where
  variables? _ := reads _ _
  level? _ := reads _ _
  alias? _ _ := reads _ _
  scopes _ := reads _ _

theorem Withstands.storedTables {holds : Bot → Prop} {callers : CallerId → Prop}
    (withstands : Withstands holds callers) : storedTables.FailOnly holds fun _ => True :=
  storedTables_failOnly withstands.read

theorem Unmoved.storedTables {γ : Type} {view : Bot → γ} (unmoved : Unmoved view) :
    storedTables.Keep view :=
  storedTables_keep unmoved.read

end Bot
end Switchboard
