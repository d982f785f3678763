import Reconciliation.Run

namespace Reconciliation

/-!
# Calls as data

The five calls of a store, so that runs of calls can be listed and compared:

* `Store.Call` — a call with all that it is given;
* `Store.Call.operation` — the operation that is called;
* `Store.Call.kind`, `Store.Call.target`, `Store.Call.reads` — how an error names a call, and whether the
  call only reads;
* `Store.Answer` — what comes back from a call;
* `Store.perform` — the answer of a store to a call, and the state that the call leaves.
-/

namespace Store

/-- A call of a store with all that it is given. -/
inductive Call where
  | get (type : ResourceType) (key : Key)
  | list (type : ResourceType) (filter : Filter)
  | create (object : Object)
  | update (object : Object)
  | delete (type : ResourceType) (key : Key) (options : DeleteOptions)
deriving DecidableEq, Inhabited

namespace Call

/-- The operation that is called. -/
def operation : Call → Operation
  | get _ _ => .get
  | list _ _ => .list
  | create _ => .create
  | update _ => .update
  | delete _ _ _ => .delete

/-- The kind of the action that makes the call. -/
def kind : Call → ActionKind
  | get _ _ => .get
  | list _ _ => .list
  | create _ => .create
  | update _ => .update
  | delete _ _ _ => .delete

/-- What the call is about, as errors name it. -/
def target : Call → String
  | get _ key | delete _ key _ => key.display
  | list type _ => type.display
  | create object | update object => object.key.display

/-- Whether the call only reads, so that a missing object is no error. -/
def reads : Call → Bool
  | get _ _ | list _ _ => true
  | create _ | update _ | delete _ _ _ => false

end Call

/-- What comes back from a call: a failure, or what the call brought, if it brings anything. -/
abbrev Answer := Except StoreError (Option Payload)

/-- The failure of a call that failed. -/
def Answer.failure? : Answer → Option StoreError
  | .ok _ => none
  | .error failure => some failure

variable {σ : Type}

/-- Makes a call. -/
def perform (store : Store σ) (call : Call) (state : σ) : Answer × σ :=
  match call with
  | .get type key =>
    mapAnswer (Except.map fun object => some (.object object)) (store.get type key state)
  | .list type filter =>
    mapAnswer (Except.map fun items => some (.list items)) (store.list type filter state)
  | .create object =>
    mapAnswer (Except.map fun stored => some (.object stored)) (store.create object state)
  | .update object =>
    mapAnswer (Except.map fun stored => some (.object stored)) (store.update object state)
  | .delete type key options =>
    mapAnswer (Except.map fun () => none) (store.delete type key options state)

end Store

end Reconciliation
