import Reconciliation.EngineError
import Reconciliation.Store.Basic

namespace Reconciliation

/-!
# Ownership

* `Owners σ` — where owners are looked up;
* `Owners.find` — the controller of the object that a reference points at;
* `Owners.root` — the topmost controller above an object.

A walk towards the top stops with an error when a kind and name come again, or when it takes too
many steps.
-/

/-- Where owners are looked up: how the type that a reference declares is resolved, and the store that
    holds them. -/
structure Owners (σ : Type) where
  resolve : GroupVersionKind → Except MappingError ResourceType
  store : Store σ

/-- How many steps a walk to the topmost controller may take. -/
def defaultOwnerDepth : Nat := 8

namespace Owners

variable {σ : Type}

/-- The type that a reference points at. -/
def typeOf (owners : Owners σ) (reference : OwnerReference) : Except EngineError ResourceType := do
  let gvk ← reference.gvk.mapError fun error => EngineError.mapping (.schema error)
  (owners.resolve gvk).mapError .mapping

/-- The key that a reference in a namespace points at; the namespace does not count for types of the
    whole cluster. -/
def keyOf (type : ResourceType) (scope : Option Namespace) (reference : OwnerReference) : Key :=
  ⟨if type.namespaced then scope else none, reference.name⟩

/-- The controller of the object that a reference points at.  `scope` is the namespace of the object
    that holds the reference.  A type that is not resolved fails before any call. -/
def find (owners : Owners σ) (scope : Option Namespace) (reference : OwnerReference) (state : σ) :
    Except EngineError (Option OwnerReference) × σ :=
  match owners.typeOf reference with
  | .error error => (.error error, state)
  | .ok type =>
    let key := keyOf type scope reference
    match owners.store.get type key state with
    | (.ok owner, state) => (.ok owner.controller?, state)
    | (.error error, state) => (.error (.store .get key.display error), state)

/-- Walks on from a reference, at most the given number of steps.  `seen` are the kinds and names
    met so far. -/
def walk (owners : Owners σ) (origin : Key) (depth : Nat) (seen : List (String × Name)) :
    Nat → OwnerReference → σ → Except EngineError (Option OwnerReference) × σ
  | 0, _, state => (.error (.ownerDepthExceeded origin.display depth), state)
  | steps + 1, current, state =>
    match owners.find origin.scope current state with
    | (.error error, state) => (.error error, state)
    | (.ok none, state) => (.ok (some current), state)
    | (.ok (some next), state) =>
      -- Kind and name stand for the object, whatever its group and its namespace.
      if seen.contains (next.kind, next.name) then
        (.error (.ownerCycle origin.display), state)
      else walk owners origin depth ((next.kind, next.name) :: seen) steps next state

/-- The topmost controller above an object, at most `depth` steps away; `none` if the object has no
    controller. -/
def root (owners : Owners σ) (object : Object) (depth : Nat) (state : σ) :
    Except EngineError (Option OwnerReference) × σ :=
  match object.controller? with
  | none => (.ok none, state)
  | some first =>
    walk owners object.key depth [(first.kind, first.name)] depth first state

end Owners

end Reconciliation
