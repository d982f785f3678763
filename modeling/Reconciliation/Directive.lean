import Reconciliation.Outcome

namespace Reconciliation

/-!
# Directives

What the scheduler of a reconciliation is told:

* `StopReason`, `ReconcileError` — why to stop, and what failed;
* `Directive` — what to do with the target after a run;
* `Directive.ofOutcome` — the directive that follows from an outcome.
-/

/-- Why there is nothing more to do. -/
inductive StopReason where
  | done
  /-- A required object is absent; its appearance will start the next run. -/
  | notFound
  | cancelled
deriving DecidableEq, Repr

namespace StopReason

/-- The reason as words. -/
def words : StopReason → String
  | done => "done"
  | notFound => "not found"
  | cancelled => "cancelled"

/-- The reason as one word. -/
def name : StopReason → String
  | done => "done"
  | notFound => "not-found"
  | cancelled => "cancelled"

end StopReason

/-- A failed reconciliation. -/
structure ReconcileError where
  target : Key
  cause : EngineError
deriving DecidableEq

namespace ReconcileError

/-- The wording of a failed reconciliation. -/
def message (error : ReconcileError) : String :=
  "reconcile " ++ error.target.display ++ ": " ++ error.cause.message

/-- The kind of the action that failed, if one did. -/
def action? (error : ReconcileError) : Option ActionKind := error.cause.action?

end ReconcileError

/-- What to do with a target after a run. -/
inductive Directive where
  | stop (reason : StopReason)
  | retryNow
  | retryAfter (delay : Duration)
  | error (failure : ReconcileError)
deriving DecidableEq

namespace Directive

/-- The directive of a failure. -/
def failed (target : Key) (cause : EngineError) : Directive := error ⟨target, cause⟩

/-- The directive that follows from an outcome. -/
def ofOutcome (target : Key) : Outcome → Directive
  | .proceed _ | .done _ => stop .done
  | .notFound _ => stop .notFound
  | .cancelled _ => stop .cancelled
  | .requeue => retryNow
  | .requeueAfter delay => retryAfter delay.duration
  | .error cause => failed target cause

/-- Whether there is nothing more to do. -/
def isStop : Directive → Bool
  | stop _ => true
  | _ => false

/-- The failure, if it is one. -/
def error? : Directive → Option ReconcileError
  | error failure => some failure
  | _ => none

/-- Whether it is a failure. -/
def isError (directive : Directive) : Bool := directive.error?.isSome

/-- The directive as text. -/
def display : Directive → String
  | stop reason => "stop (" ++ reason.words ++ ")"
  | retryNow => "retry now"
  | retryAfter delay => "retry after " ++ delay.secondsText ++ "s"
  | error failure => "error: " ++ failure.message

end Directive

end Reconciliation
