import Reconciliation.Filter
import Reconciliation.Store.Error

namespace Reconciliation

/-!
# Stores

* `Operation` — the five calls of a store;
* `PropagationPolicy`, `DeleteOptions` — how a delete treats dependents, and what guards it;
* `Store σ` — a store whose calls act on states of type `σ`;
* `Store.within` — a store whose state is a part of a larger one.

Writes are checked against the version token that the given object carries.
-/

/-- The five calls of a store. -/
inductive Operation where
  | get | list | create | update | delete
deriving DecidableEq, Repr, Inhabited

/-- The name of a call. -/
def Operation.name : Operation → String
  | get => "get"
  | list => "list"
  | create => "create"
  | update => "update"
  | delete => "delete"

/-- The call with the name. -/
def Operation.ofName? (name : String) : Option Operation :=
  [get, list, create, update, delete].find? fun op => op.name == name

/-- What happens to the dependents of an object that is deleted. -/
inductive PropagationPolicy where
  /-- They are deleted before the owner. -/
  | foreground
  /-- They are deleted after the owner. -/
  | background
  /-- They are kept, without their reference to the owner. -/
  | orphan
deriving DecidableEq, Repr, Inhabited

namespace PropagationPolicy

/-- The name of a policy. -/
def name : PropagationPolicy → String
  | foreground => "Foreground"
  | background => "Background"
  | orphan => "Orphan"

/-- The policy with the name. -/
def ofName? (name : String) : Option PropagationPolicy :=
  [foreground, background, orphan].find? fun policy => policy.name == name

/-- The policy that a text names. -/
def parse (text : String) : Except StoreError PropagationPolicy :=
  (ofName? text).elim (.error (.invalid ("unknown propagation policy '" ++ text ++ "'"))) .ok

end PropagationPolicy

/-- Options of a delete.  With a `precondition` only an object that still carries the version is
    deleted. -/
structure DeleteOptions where
  precondition : Option ResourceVersion
  propagation : Option PropagationPolicy
deriving DecidableEq, Repr, Inhabited

namespace DeleteOptions

/-- An unguarded delete without a policy of its own. -/
def plain : DeleteOptions := ⟨none, none⟩

/-- The options, guarded by the version of an object that was read. -/
def guardedBy (options : DeleteOptions) (object : Object) : DeleteOptions :=
  { options with precondition := object.metadata.version }

/-- The options as a value. -/
def toJson (options : DeleteOptions) : Json :=
  .object <|
    optionalField "precondition" (options.precondition.map fun version => .string version.text) ++
    optionalField "propagation" (options.propagation.map fun policy => .string policy.name)

/-- How options are read. -/
def decoder : Json.Decoder DeleteOptions :=
  Json.record [
    .optional "precondition" (Json.nullable Json.text) fun value o =>
      { o with precondition := value.map ResourceVersion.mk },
    .optional "propagation" (Json.nullable (Json.tagged PropagationPolicy.ofName?)) fun value o =>
      { o with propagation := value }] plain

end DeleteOptions

/-- A store: how each call answers in a state, and the state it leaves. -/
structure Store (σ : Type) where
  name : String
  get : ResourceType → Key → σ → Except StoreError Object × σ
  list : ResourceType → Filter → σ → Except StoreError (List Object) × σ
  /-- Adds an object; the answer is the stored copy with its version. -/
  create : Object → σ → Except StoreError Object × σ
  /-- Replaces an object whose version is the one that the given object carries. -/
  update : Object → σ → Except StoreError Object × σ
  delete : ResourceType → Key → DeleteOptions → σ → Except StoreError Unit × σ

namespace Store

/-- A store that keeps its state in a part of a larger state. -/
def within {σ τ : Type} (store : Store σ) (part : τ → σ) (replace : σ → τ → τ) : Store τ :=
  let lift {α : Type} (call : σ → α × σ) (state : τ) : α × τ :=
    let (answer, inner) := call (part state)
    (answer, replace inner state)
  { name := store.name
    get := fun type key => lift (store.get type key)
    list := fun type filter => lift (store.list type filter)
    create := fun object => lift (store.create object)
    update := fun object => lift (store.update object)
    delete := fun type key options => lift (store.delete type key options) }

end Store

end Reconciliation
