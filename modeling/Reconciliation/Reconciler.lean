import Reconciliation.Directive
import Reconciliation.EngineConfig

namespace Reconciliation

/-!
# The reconciler

* `Reconciler σ` — a store, the registered types, and the settings;
* `Reconciler.run`, `Reconciler.runRetrying` — runs a chain for a target, once or with retries;
* `Reconciler.reconcile` — runs the chain that a controller builds for a target;
* `Reconciler.findOwner`, `Reconciler.rootOwner` — who controls an object.
-/

/-- Everything that a reconciliation needs besides its target. -/
structure Reconciler (σ : Type) where
  store : Store σ
  types : TypeTable
  config : EngineConfig
  cancelled : σ → Bool

namespace Reconciler

variable {σ : Type}

/-- The context of a target. -/
def context (reconciler : Reconciler σ) (target : Key) : Context σ :=
  ⟨reconciler.store, target, reconciler.cancelled⟩

/-- Where owners are looked up. -/
def owners (reconciler : Reconciler σ) : Owners σ := ⟨reconciler.types.resolveGvk, reconciler.store⟩

/-- Runs a chain once. -/
def run (reconciler : Reconciler σ) (target : Key) (chain : Chain σ) (state : σ) :
    Directive × σ :=
  mapAnswer (.ofOutcome target) (chain.run (reconciler.context target) state)

/-- Runs a chain, again from its start after an error, as often as the settings allow. -/
def runRetrying (reconciler : Reconciler σ) (target : Key) (chain : Chain σ) (state : σ) :
    Directive × σ :=
  mapAnswer (.ofOutcome target)
    (chain.runRetrying (reconciler.context target) reconciler.config.retry state)

/-- Runs the chain that a controller builds for a target, with retries. -/
def reconcile (reconciler : Reconciler σ) (controller : Key → Except EngineError (Chain σ))
    (target : Key) (state : σ) : Directive × σ :=
  match controller target with
  | .ok chain => reconciler.runRetrying target chain state
  | .error cause => (.failed target cause, state)

/-- The controller of the controller of an object. -/
def findOwner (reconciler : Reconciler σ) (object : Object) (state : σ) :
    Except EngineError (Option OwnerReference) × σ :=
  match object.controller? with
  | some reference => reconciler.owners.find object.metadata.scope reference state
  | none => (.ok none, state)

/-- The topmost controller above an object, within the limit of the settings. -/
def rootOwner (reconciler : Reconciler σ) (object : Object) (state : σ) :
    Except EngineError (Option OwnerReference) × σ :=
  reconciler.owners.root object reconciler.config.maxOwnerDepth state

end Reconciler

end Reconciliation
