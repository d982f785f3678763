import Reconciliation.Outcome
import Reconciliation.Store.Basic
import Reconciliation.Text.Quoted

namespace Reconciliation

/-!
# Actions

* `Predicate`, `Handler` — which outcomes are handled, and how;
* `Action σ` — a step of a reconciliation in a world with states of type `σ`;
* `Action.kind`, `Action.outline` — what an action is, and how it is shown.

An action is built before it runs and can run any number of times.  A `call` runs a computation of
the caller, which sees the outcome before it, may change the world, and may return an action to run
in its place.
-/

/-- Which outcomes a handler is for. -/
inductive Predicate where
  | proceed
  | notFound
  | error
  /-- With a delay or without. -/
  | requeue
  | code (wanted : Code)
  /-- Every outcome that is not cancelled. -/
  | any
deriving DecidableEq, Repr, Inhabited

namespace Predicate

/-- Whether the predicate covers a code.  None covers `cancelled`. -/
def covers (predicate : Predicate) (code : Code) : Bool :=
  code ≠ .cancelled &&
    match predicate with
    | proceed => code = .proceed
    | notFound => code = .notFound
    | error => code = .error
    | requeue => code = .requeue || code = .requeueAfter
    | .code wanted => code = wanted
    | any => true

/-- The predicate as it is shown. -/
def outline : Predicate → Text.Outline
  | proceed => .word "Continue"
  | notFound => .word "NotFound"
  | error => .word "Error"
  | requeue => .word "Requeue"
  | code wanted => .tagged "Code" (.word wanted.word)
  | any => .word "Any"

end Predicate

/-- A predicate, and what to do when it covers an outcome. -/
structure Handler (α : Type) where
  on : Predicate
  action : α

/-- A step of a reconciliation. -/
inductive Action (σ : Type) where
  | get (type : ResourceType) (key : Key)
  | list (type : ResourceType) (filter : Filter)
  | create (object : Object)
  | update (object : Object)
  | delete (type : ResourceType) (key : Key) (options : DeleteOptions)
  /-- A computation of the caller. -/
  | call (label : String) (thunk : Outcome → σ → Except EngineError (Option (Action σ)) × σ)
  /-- An action, and after it the first handler whose predicate covers the outcome. -/
  | handleResult (action : Action σ) (handlers : List (Handler (Action σ)))
  /-- Asks to come back, at once or after a delay. -/
  | requeue (after : Option RequeueDelay)
  /-- Ends the run with success. -/
  | finish

namespace Action

variable {σ : Type}

instance : Inhabited (Action σ) := ⟨finish⟩

/-- The kind of an action. -/
def kind : Action σ → ActionKind
  | get _ _ => .get
  | list _ _ => .list
  | create _ => .create
  | update _ => .update
  | delete _ _ _ => .delete
  | call _ _ => .call
  | handleResult _ _ => .handleResult
  | requeue _ => .requeue
  | finish => .finish

/-- A call that does nothing. -/
def noop : Action σ :=
  call "noop" fun _ state => (.ok none, state)

/-- The action that asks to come back after a span of time. -/
def requeueAfter (duration : Duration) : Except EngineError (Action σ) :=
  (RequeueDelay.ofDuration duration).map fun delay => requeue (some delay)

/-- A type and a key as they are shown. -/
def addressText (type : ResourceType) (key : Key) : String :=
  type.display ++ " " ++ key.display

/-- A list as it is shown. -/
def listText (type : ResourceType) (filter : Filter) : String :=
  type.display ++ (filter.scope.elim "" fun scope => " in " ++ scope.text) ++
    if filter.labels.isEmpty then "" else " labels=" ++ Selector.display filter.labels

mutual

/-- The action as it is shown. -/
def outline : Action σ → Text.Outline
  | get type key => .word ("Get(" ++ addressText type key ++ ")")
  | list type filter => .word ("List(" ++ listText type filter ++ ")")
  | create object => .word ("Create(" ++ object.kind ++ " " ++ object.key.display ++ ")")
  | update object => .word ("Update(" ++ object.kind ++ " " ++ object.key.display ++ ")")
  | delete type key _ => .word ("Delete(" ++ addressText type key ++ ")")
  | call label _ => .word ("Call(" ++ label ++ ")")
  | handleResult action handlers =>
    .record "HandleResult"
      [("action", action.outline), ("handlers", .list (outlineHandlers handlers))]
  | requeue none => .word "Requeue"
  | requeue (some delay) => .word ("RequeueAfter(" ++ delay.duration.display ++ ")")
  | finish => .word "Finish"

/-- Handlers as they are shown. -/
def outlineHandlers : List (Handler (Action σ)) → List Text.Outline
  | [] => []
  | ⟨on, action⟩ :: rest =>
    .record "Handler" [("on", on.outline), ("then", action.outline)] :: outlineHandlers rest

end

end Action

end Reconciliation
