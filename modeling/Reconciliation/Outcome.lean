import Reconciliation.Duration
import Reconciliation.EngineError
import Reconciliation.Object.Basic

namespace Reconciliation

/-!
# Outcomes

* `RequeueDelay` — a positive span of time after which to come back;
* `Payload` — what a read brought;
* `Outcome` — the result of an action;
* `Code` — the result without what comes along with it.

Only `proceed` lets a chain go on.
-/

/-- A positive span of time. -/
structure RequeueDelay where
  duration : Duration
  positive : duration.isZero = false
deriving DecidableEq

namespace RequeueDelay

/-- The delay of a span, unless the span is empty. -/
def ofDuration (duration : Duration) : Except EngineError RequeueDelay :=
  if h : duration.isZero = false then .ok ⟨duration, h⟩
  else .error (.invalidDelay "requeue delay must be positive, got 0s")

/-- The delay of some seconds, as they come from settings. -/
def ofSeconds (seconds : Int) : Except EngineError RequeueDelay :=
  match seconds with
  | .ofNat n => ofDuration (.ofSeconds n)
  | .negSucc _ =>
    .error (.invalidDelay ("requeue delay must be positive, got " ++ toString seconds ++ "s"))

end RequeueDelay

/-- What a read brought. -/
inductive Payload where
  | object (object : Object)
  | list (items : List Object)
deriving DecidableEq

/-- The result of an action, without what comes along with it. -/
inductive Code where
  | proceed | notFound | error | requeue | requeueAfter | done | cancelled
deriving DecidableEq, Repr, Inhabited

namespace Code

/-- The name of a code. -/
def name : Code → String
  | proceed => "continue"
  | notFound => "not-found"
  | error => "error"
  | requeue => "requeue"
  | requeueAfter => "requeue-after"
  | done => "done"
  | cancelled => "cancelled"

/-- The code with the name. -/
def ofName? (name : String) : Option Code :=
  [proceed, notFound, error, requeue, requeueAfter, done, cancelled].find? fun code =>
    code.name == name

/-- The name of a code as a word of an outline. -/
def word : Code → String
  | proceed => "Continue"
  | notFound => "NotFound"
  | error => "Error"
  | requeue => "Requeue"
  | requeueAfter => "RequeueAfter"
  | done => "Done"
  | cancelled => "Cancelled"

/-- Whether the code ends a chain. -/
def isTerminal (code : Code) : Bool := code ≠ proceed

end Code

/-- The result of an action. -/
inductive Outcome where
  /-- The chain goes on. -/
  | proceed (payload : Option Payload)
  /-- A required object is absent. -/
  | notFound (cause : EngineError)
  | error (cause : EngineError)
  /-- Come back at once. -/
  | requeue
  /-- Come back after a while. -/
  | requeueAfter (delay : RequeueDelay)
  /-- Nothing is left to do. -/
  | done (payload : Option Payload)
  /-- The run was cancelled before the next action. -/
  | cancelled (cause : EngineError)
deriving DecidableEq

namespace Outcome

instance : Inhabited Outcome := ⟨proceed none⟩

/-- The code of an outcome. -/
def code : Outcome → Code
  | proceed _ => .proceed
  | notFound _ => .notFound
  | error _ => .error
  | requeue => .requeue
  | requeueAfter _ => .requeueAfter
  | done _ => .done
  | cancelled _ => .cancelled

/-- The error that comes along. -/
def cause? : Outcome → Option EngineError
  | notFound cause | error cause | cancelled cause => some cause
  | _ => none

/-- The delay that comes along. -/
def delay? : Outcome → Option RequeueDelay
  | requeueAfter delay => some delay
  | _ => none

/-- What was read. -/
def payload? : Outcome → Option Payload
  | proceed payload | done payload => payload
  | _ => none

/-- The object that was read. -/
def object? (outcome : Outcome) : Option Object :=
  match outcome.payload? with
  | some (.object object) => some object
  | _ => none

/-- The list that was read. -/
def items? (outcome : Outcome) : Option (List Object) :=
  match outcome.payload? with
  | some (.list items) => some items
  | _ => none

/-- The end of a chain that went on to its end. -/
def exhausted : Outcome → Outcome
  | proceed payload => done payload
  | outcome => outcome

/-- Errors on one side, so that they can be retried, and all other outcomes on the other. -/
def toExcept : Outcome → Except EngineError Outcome
  | error cause => .error cause
  | outcome => .ok outcome

/-- The outcome as text. -/
def display (outcome : Outcome) : String :=
  outcome.code.name ++
    (outcome.delay?.elim "" fun delay => " after " ++ delay.duration.display) ++
    (outcome.cause?.elim "" fun cause => ": " ++ cause.message)

end Outcome

end Reconciliation
