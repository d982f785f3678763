import Reconciliation.Json.Decode
import Reconciliation.Run

namespace Reconciliation

/-!
# Retries

* `RetryPolicy` — how often something is attempted, at least once;
* `retry` — attempts something until it succeeds or the attempts are used up;
* `Chain.runRetrying` — runs a chain again, from its start, as long as it ends in an error.

Every attempt acts on the state that the one before it left.
-/

/-- A number of attempts. -/
structure RetryPolicy where
  attempts : UInt32
  positive : 0 < attempts.toNat
deriving DecidableEq

namespace RetryPolicy

/-- Three attempts. -/
def standard : RetryPolicy := ⟨3, by decide⟩

instance : Inhabited RetryPolicy := ⟨standard⟩

/-- The policy of some attempts, unless there are none. -/
def ofAttempts (attempts : UInt32) : Except EngineError RetryPolicy :=
  if h : 0 < attempts.toNat then .ok ⟨attempts, h⟩
  else .error (.invalidPolicy "retry policy needs at least one attempt")

/-- The policy as a value. -/
def toJson (policy : RetryPolicy) : Json := .ofNat policy.attempts.toNat

/-- How a policy is read. -/
def decoder : Json.Decoder RetryPolicy := fun room document => do
  let attempts ← Json.natural UInt32.size room document
  (ofAttempts attempts.toUInt32).mapError fun _ => .mismatched

end RetryPolicy

variable {α ε σ : Type}

/-- One attempt, and up to `retries` more as long as they fail.  The last error is the answer if all
    fail. -/
def attemptAgain (operation : σ → Except ε α × σ) : Nat → σ → Except ε α × σ
  | 0, state => operation state
  | retries + 1, state =>
    match operation state with
    | (.ok value, state) => (.ok value, state)
    | (.error _, state) => attemptAgain operation retries state

/-- Attempts an operation until it succeeds, as often as the policy allows. -/
def retry (policy : RetryPolicy) (operation : σ → Except ε α × σ) (state : σ) : Except ε α × σ :=
  attemptAgain operation (policy.attempts.toNat - 1) state

/-- An outcome, or the outcome that stands for an error. -/
def Outcome.ofExcept : Except EngineError Outcome → Outcome
  | .ok outcome => outcome
  | .error cause => .error cause

/-- Runs a chain from its start until it does not end in an error, as often as the policy allows. -/
def Chain.runRetrying (context : Context σ) (policy : RetryPolicy) (chain : Chain σ) (state : σ) :
    Outcome × σ :=
  mapAnswer Outcome.ofExcept
    (retry policy (fun state => mapAnswer Outcome.toExcept (chain.run context state)) state)

end Reconciliation
