import Reconciliation.Action

namespace Reconciliation

/-!
# Running actions

* `Context σ` — the store, the object being reconciled, and how to see whether to stop;
* `Action.run` — runs one action after an outcome;
* `Chain σ`, `Chain.run` — runs actions front to back, up to the first that does not let it go on.

The cancellation flag is looked at before every action, be it one of the chain, of a handler, or one
that a call hands back.
-/

/-- What a run needs to know. -/
structure Context (σ : Type) where
  store : Store σ
  target : Key
  cancelled : σ → Bool

/-- The context as it is shown in a state. -/
def Context.outline {σ : Type} (context : Context σ) (state : σ) : Text.Outline :=
  .excerpt "ExecutionContext"
    [("store", .word (Text.quoted context.store.name)), ("target", context.target.outline),
      ("cancelled", .word (if context.cancelled state then "true" else "false"))]

/-- The outcome of a call of the store that read. -/
def Outcome.ofRead (kind : ActionKind) (target : String) (result : Except StoreError Payload) :
    Outcome :=
  match result with
  | .ok payload => .proceed (some payload)
  | .error failure =>
    if failure.isNotFound then .notFound (.store kind target failure)
    else .error (.store kind target failure)

/-- The outcome of a call of the store that wrote. -/
def Outcome.ofWrite (kind : ActionKind) (target : String)
    (result : Except StoreError (Option Payload)) : Outcome :=
  match result with
  | .ok payload => .proceed payload
  | .error failure => .error (.store kind target failure)

/-- The outcome of a run that is cancelled. -/
def Outcome.ofCancellation (target : Key) : Outcome :=
  .cancelled (.cancelled target.display)

/-- Changes the answer that comes with a state. -/
def mapAnswer {α β σ : Type} (f : α → β) (answer : α × σ) : β × σ := (f answer.1, answer.2)

variable {σ : Type}

namespace Action

mutual

/-- Runs an action.  `prior` is the outcome that a call gets to see. -/
def run (context : Context σ) (action : Action σ) (prior : Outcome) (state : σ) : Outcome × σ :=
  if context.cancelled state then (.ofCancellation context.target, state)
  else
    match action with
    | get type key =>
      mapAnswer (fun result => .ofRead .get key.display (result.map .object))
        (context.store.get type key state)
    | list type filter =>
      mapAnswer (fun result => .ofRead .list type.display (result.map .list))
        (context.store.list type filter state)
    | create object =>
      mapAnswer
        (fun result => .ofWrite .create object.key.display (result.map (some <| .object ·)))
        (context.store.create object state)
    | update object =>
      mapAnswer
        (fun result => .ofWrite .update object.key.display (result.map (some <| .object ·)))
        (context.store.update object state)
    | delete type key options =>
      mapAnswer (fun result => .ofWrite .delete key.display (result.map fun () => none))
        (context.store.delete type key options state)
    | call label thunk => runAnswer context label prior (thunk prior state)
    | handleResult action handlers =>
      -- A handler's action sees the outcome that it handles, not the one before.
      let (first, state) := action.run context prior state
      runHandlers context handlers first state
    | requeue none => (.requeue, state)
    | requeue (some delay) => (.requeueAfter delay, state)
    | finish => (.done none, state)

/-- Goes on with what a call handed back.  A call that hands nothing back passes the payload on. -/
def runAnswer (context : Context σ) (label : String) (prior : Outcome) :
    Except EngineError (Option (Action σ)) × σ → Outcome × σ
  | (.ok (some next), state) => next.run context prior state
  | (.ok none, state) => (.proceed prior.payload?, state)
  | (.error failure, state) => (.error (.step .call label failure), state)

/-- Runs the first handler that covers the outcome; without one the outcome stays. -/
def runHandlers (context : Context σ) :
    List (Handler (Action σ)) → Outcome → σ → Outcome × σ
  | [], first, state => (first, state)
  | ⟨on, action⟩ :: rest, first, state =>
    if on.covers first.code then action.run context first state
    else runHandlers context rest first state

end

end Action

/-! ### Chains -/

/-- Actions that are run front to back. -/
structure Chain (σ : Type) where
  steps : List (Action σ)

namespace Chain

instance : Inhabited (Chain σ) := ⟨⟨[]⟩⟩

/-- The chain with one more action at its end. -/
def push (chain : Chain σ) (action : Action σ) : Chain σ := ⟨chain.steps ++ [action]⟩

/-- Number of actions. -/
def size (chain : Chain σ) : Nat := chain.steps.length

/-- The chain as it is shown. -/
def outline (chain : Chain σ) : Text.Outline :=
  .record "Chain" [("steps", .list (chain.steps.map Action.outline))]

/-- Runs actions after an outcome, each after the outcome of the one before it.  The first that does
    not let the chain go on is the last one run. -/
def runSteps (context : Context σ) : List (Action σ) → Outcome → σ → Outcome × σ
  | [], prior, state => (prior.exhausted, state)
  | action :: rest, prior, state =>
    let (outcome, state) := action.run context prior state
    if outcome.code.isTerminal then (outcome, state) else runSteps context rest outcome state

/-- Runs a chain.  At its end it is done, with the payload of its last action. -/
def run (context : Context σ) (chain : Chain σ) (state : σ) : Outcome × σ :=
  runSteps context chain.steps (.proceed none) state

end Chain

end Reconciliation
