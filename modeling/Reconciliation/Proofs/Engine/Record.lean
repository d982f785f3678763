import Reconciliation.Proofs.Engine.Step
import Reconciliation.Reconciler

namespace Reconciliation

/-!
# Outcomes as records

A run can carry its outcomes as records of a code and of parts that may come along with it.  No type
says then which parts belong to which code, and whoever reads a record has to make up for a part that
is missing:

* `Outcome.Record`, `Outcome.record` — records, and the record of an outcome;
* `Outcome.Record.exhausted`, `Outcome.Record.toExcept`, `Outcome.Record.directive` — what is done with
  records, and what stands in for a missing part;
* `Action.report`, `Chain.report`, `Chain.reportRetrying` — runs that carry records;
* `Action.report_record`, `Chain.report_eq`, `Chain.reportRetrying_eq` — all their records are records
  of outcomes, those of the runs that carry outcomes.

The end of a chain changes the code of a record and keeps its parts.  That this makes the record of an
outcome is due to the code before, which let the chain go on and comes with a payload only.
-/

variable {σ : Type}

/-- An outcome as a record: a code, and what may come along with it. -/
structure Outcome.Record where
  code : Code
  cause? : Option EngineError
  delay? : Option RequeueDelay
  payload? : Option Payload
deriving DecidableEq

/-- The record of an outcome. -/
def Outcome.record (outcome : Outcome) : Outcome.Record :=
  ⟨outcome.code, outcome.cause?, outcome.delay?, outcome.payload?⟩

namespace Outcome.Record

/-- The record of a code with which nothing comes along. -/
def ofCode (code : Code) : Record := ⟨code, none, none, none⟩

/-- A record with which the chain goes on. -/
def proceed : Record := ofCode .proceed

/-- A record with which the chain goes on, and what was read. -/
def proceedWith (payload : Payload) : Record := { proceed with payload? := some payload }

/-- A required object is absent. -/
def notFound (cause : EngineError) : Record := { ofCode .notFound with cause? := some cause }

/-- The record of a failure. -/
def error (cause : EngineError) : Record := { ofCode .error with cause? := some cause }

/-- Come back after a while. -/
def requeueAfter (delay : RequeueDelay) : Record :=
  { ofCode .requeueAfter with delay? := some delay }

/-- The run was cancelled before the next action. -/
def cancelled (cause : EngineError) : Record := { ofCode .cancelled with cause? := some cause }

/-- The record of a call of the store that read. -/
def ofRead (kind : ActionKind) (target : String) (result : Except StoreError Payload) : Record :=
  match result with
  | .ok payload => proceedWith payload
  | .error failure =>
    if failure.isNotFound then notFound (.store kind target failure)
    else error (.store kind target failure)

/-- The record of a call of the store that wrote. -/
def ofWrite (kind : ActionKind) (target : String)
    (result : Except StoreError (Option Payload)) : Record :=
  match result with
  | .ok payload => payload.elim proceed proceedWith
  | .error failure => error (.store kind target failure)

/-- What stands in for the cause of a failure that has none. -/
def unexplained : EngineError := .internal "error outcome without cause"

/-- The end of a chain that went on to its end. -/
def exhausted (record : Record) : Record := { record with code := .done }

/-- Failures on one side, so that they can be retried, and all other records on the other. -/
def toExcept (record : Record) : Except EngineError Record :=
  if record.code = .error then .error (record.cause?.getD unexplained) else .ok record

/-- A record, or the record that stands for an error. -/
def ofExcept : Except EngineError Record → Record
  | .ok record => record
  | .error cause => error cause

/-- The directive that follows from a record. -/
def directive (target : Key) (record : Record) : Directive :=
  match record.code with
  | .proceed | .done => .stop .done
  | .notFound => .stop .notFound
  | .cancelled => .stop .cancelled
  | .requeue => .retryNow
  | .requeueAfter => record.delay?.elim .retryNow fun delay => .retryAfter delay.duration
  | .error => .failed target (record.cause?.getD unexplained)

/-- The outcome that a reader of a record takes it for. -/
def outcome (record : Record) : Outcome :=
  match record.code with
  | .proceed => .proceed record.payload?
  | .done => .done record.payload?
  | .notFound => .notFound (record.cause?.getD unexplained)
  | .error => .error (record.cause?.getD unexplained)
  | .cancelled => .cancelled (record.cause?.getD unexplained)
  | .requeue => .requeue
  | .requeueAfter => record.delay?.elim .requeue .requeueAfter

end Outcome.Record

/-! ### Runs that carry records -/

namespace Action

mutual

/-- Runs an action after a record. -/
def report (context : Context σ) (action : Action σ) (prior : Outcome.Record) (state : σ) :
    Outcome.Record × σ :=
  if context.cancelled state then (.cancelled (.cancelled context.target.display), state)
  else
    match action with
    | get type key =>
      mapAnswer (fun result => .ofRead .get key.display (result.map .object))
        (context.store.get type key state)
    | list type filter =>
      mapAnswer (fun result => .ofRead .list type.display (result.map .list))
        (context.store.list type filter state)
    | create object =>
      mapAnswer
        (fun result => .ofWrite .create object.key.display (result.map (some <| .object ·)))
        (context.store.create object state)
    | update object =>
      mapAnswer
        (fun result => .ofWrite .update object.key.display (result.map (some <| .object ·)))
        (context.store.update object state)
    | delete type key options =>
      mapAnswer (fun result => .ofWrite .delete key.display (result.map fun () => none))
        (context.store.delete type key options state)
    | call label thunk => reportAnswer context label prior (thunk prior.outcome state)
    | handleResult action handlers =>
      let (first, state) := action.report context prior state
      reportHandlers context handlers first state
    | requeue none => (.ofCode .requeue, state)
    | requeue (some delay) => (.requeueAfter delay, state)
    | finish => (.ofCode .done, state)

/-- Goes on with what a call handed back. -/
def reportAnswer (context : Context σ) (label : String) (prior : Outcome.Record) :
    Except EngineError (Option (Action σ)) × σ → Outcome.Record × σ
  | (.ok (some next), state) => next.report context prior state
  | (.ok none, state) => (prior.payload?.elim .proceed .proceedWith, state)
  | (.error failure, state) => (.error (.step .call label failure), state)

/-- Runs the first handler that covers the code of a record. -/
def reportHandlers (context : Context σ) :
    List (Handler (Action σ)) → Outcome.Record → σ → Outcome.Record × σ
  | [], first, state => (first, state)
  | ⟨on, action⟩ :: rest, first, state =>
    if on.covers first.code then action.report context first state
    else reportHandlers context rest first state

end

end Action

namespace Chain

/-- Runs actions after a record, up to the first that does not let the chain go on. -/
def reportSteps (context : Context σ) : List (Action σ) → Outcome.Record → σ → Outcome.Record × σ
  | [], prior, state => (prior.exhausted, state)
  | action :: rest, prior, state =>
    let (record, state) := action.report context prior state
    if record.code.isTerminal then (record, state) else reportSteps context rest record state

/-- Runs a chain. -/
def report (context : Context σ) (chain : Chain σ) (state : σ) : Outcome.Record × σ :=
  reportSteps context chain.steps .proceed state

/-- Runs a chain from its start until it does not fail, as often as the policy allows. -/
def reportRetrying (context : Context σ) (policy : RetryPolicy) (chain : Chain σ) (state : σ) :
    Outcome.Record × σ :=
  mapAnswer Outcome.Record.ofExcept
    (retry policy (fun state => mapAnswer Outcome.Record.toExcept (chain.report context state))
      state)

end Chain

/-! ### Records of outcomes -/

namespace Outcome

/-- Nothing is missing in the record of an outcome. -/
theorem outcome_record (outcome : Outcome) : outcome.record.outcome = outcome := by
  cases outcome <;> rfl

theorem record_ofRead (kind : ActionKind) (target : String) (result : Except StoreError Payload) :
    (ofRead kind target result).record = .ofRead kind target result := by
  cases result with
  | ok payload => rfl
  | error failure =>
    dsimp only [ofRead, Record.ofRead]
    split <;> rfl

theorem record_ofWrite (kind : ActionKind) (target : String)
    (result : Except StoreError (Option Payload)) :
    (ofWrite kind target result).record = .ofWrite kind target result := by
  rcases result with failure | _ | payload <;> rfl

theorem toExcept_record (outcome : Outcome) :
    outcome.record.toExcept = outcome.toExcept.map record := by
  cases outcome <;> rfl

theorem record_ofExcept (result : Except EngineError Outcome) :
    (ofExcept result).record = .ofExcept (result.map record) := by
  cases result <;> rfl

theorem directive_record (target : Key) (outcome : Outcome) :
    outcome.record.directive target = .ofOutcome target outcome := by
  cases outcome <;> rfl

/-- The record with which a chain goes on to its end. -/
theorem exhausted_record {outcome : Outcome} (h : outcome.code.isTerminal = false) :
    outcome.record.exhausted = outcome.exhausted.record := by
  cases outcome with
  | proceed payload => rfl
  | _ => cases h

end Outcome

theorem Action.report_record (context : Context σ) (action : Action σ) (prior : Outcome)
    (state : σ) :
    action.report context prior.record state =
      mapAnswer Outcome.record (action.run context prior state) := by
  induction action, prior, state using fun actions => Action.run.induct context actions
    (fun handlers first state => reportHandlers context handlers first.record state =
      mapAnswer Outcome.record (runHandlers context handlers first state))
    (fun label prior answer => reportAnswer context label prior.record answer =
      mapAnswer Outcome.record (runAnswer context label prior answer)) with
  | case1 action prior state set =>
    rw [run.eq_def, report.eq_def, if_pos set, if_pos set]
    rfl
  | case2 prior state free | case3 prior state free =>
    rw [run.eq_def, report.eq_def, if_neg free, if_neg free]
    simp [mapAnswer, Outcome.record_ofRead]
  | case4 prior state free | case5 prior state free | case6 prior state free =>
    rw [run.eq_def, report.eq_def, if_neg free, if_neg free]
    simp [mapAnswer, Outcome.record_ofWrite]
  | case7 prior state free label thunk ih =>
    rw [run, report, if_neg free, if_neg free, Outcome.outcome_record]
    exact ih
  | case8 prior state free guarded handlers first between hrun ih ihhandlers =>
    rw [hrun] at ih
    rw [run, report, if_neg free, if_neg free, ih, hrun]
    exact ihhandlers
  | case9 prior state free | case10 prior state free | case11 prior state free =>
    rw [run, report, if_neg free, if_neg free]
    rfl
  | case12 label prior next state ih =>
    rw [runAnswer, reportAnswer]
    exact ih
  | case13 label prior state =>
    rw [runAnswer, reportAnswer, Outcome.record]
    dsimp only
    cases prior.payload? <;> rfl
  | case14 label prior failure state =>
    rw [runAnswer, reportAnswer]
    rfl
  | case15 first state =>
    rw [runHandlers, reportHandlers]
    rfl
  | case16 on action rest first state covers ih =>
    rw [runHandlers, reportHandlers, Outcome.record, if_pos covers, if_pos covers]
    exact ih
  | case17 on action rest first state uncovered ih =>
    rw [runHandlers, reportHandlers, Outcome.record, if_neg uncovered, if_neg uncovered]
    exact ih

namespace Chain

theorem reportSteps_record (context : Context σ) (steps : List (Action σ)) {prior : Outcome}
    (goesOn : prior.code.isTerminal = false) (state : σ) :
    reportSteps context steps prior.record state =
      mapAnswer Outcome.record (runSteps context steps prior state) := by
  induction steps generalizing prior state with
  | nil =>
    rw [reportSteps, runSteps, Outcome.exhausted_record goesOn]
    rfl
  | cons action rest ih =>
    rw [reportSteps, runSteps, Action.report_record]
    dsimp only [mapAnswer, Outcome.record]
    split
    · rfl
    · rename_i hgoesOn
      rw [Bool.not_eq_true] at hgoesOn
      exact ih hgoesOn _

/-- The record of a chain is the record of its outcome. -/
theorem report_eq (context : Context σ) (chain : Chain σ) (state : σ) :
    chain.report context state = mapAnswer Outcome.record (chain.run context state) := by
  have goesOn : (Outcome.proceed none).code.isTerminal = false := rfl
  exact reportSteps_record context chain.steps goesOn state

end Chain

/-- Attempts do not depend on how the value of a success is given. -/
theorem retry_map {α β ε : Type} (f : α → β) (policy : RetryPolicy) (operation : σ → Except ε α × σ)
    (state : σ) :
    retry policy (fun state => mapAnswer (Except.map f) (operation state)) state =
      mapAnswer (Except.map f) (retry policy operation state) := by
  unfold retry
  generalize policy.attempts.toNat - 1 = left
  induction left generalizing state with
  | zero => rfl
  | succ left ih =>
    rw [attemptAgain, attemptAgain]
    rcases operation state with ⟨failure | value, after⟩
    · exact ih after
    · rfl

theorem Chain.reportRetrying_eq (context : Context σ) (policy : RetryPolicy) (chain : Chain σ)
    (state : σ) :
    chain.reportRetrying context policy state =
      mapAnswer Outcome.record (chain.runRetrying context policy state) := by
  have hattempt : (fun state => mapAnswer Outcome.Record.toExcept (chain.report context state)) =
      fun state => mapAnswer (Except.map Outcome.record)
        (mapAnswer Outcome.toExcept (chain.run context state)) := by
    funext state
    rw [chain.report_eq]
    exact congrArg (·, _) (Outcome.toExcept_record _)
  rw [reportRetrying, runRetrying, hattempt, retry_map]
  exact congrArg (·, _) (Outcome.record_ofExcept _).symm

end Reconciliation
