import Reconciliation.Discovery
import Reconciliation.Store.Error

namespace Reconciliation

/-!
# Engine errors

* `ActionKind` — the kinds of action;
* `EngineError` — what can go wrong in a reconciliation;
* `EngineError.tag` — the error in one word;
* `EngineError.message`, `EngineError.causes` — its wording, and that of everything beneath it;
* `EngineError.innermost` — the error beneath the tags of the actions that raised it.
-/

/-- The kinds of action. -/
inductive ActionKind where
  | get | list | create | update | delete | call | handleResult | requeue | finish
deriving DecidableEq, Repr, Inhabited

/-- The name of a kind of action. -/
def ActionKind.name : ActionKind → String
  | get => "get"
  | list => "list"
  | create => "create"
  | update => "update"
  | delete => "delete"
  | call => "call"
  | handleResult => "handle-result"
  | requeue => "requeue"
  | finish => "finish"

/-- The kind of action with the name. -/
def ActionKind.ofName? (name : String) : Option ActionKind :=
  [get, list, create, update, delete, call, handleResult, requeue, finish].find? fun kind =>
    kind.name == name

/-- What went wrong in a reconciliation. -/
inductive EngineError where
  /-- A call of the store, made by an action, failed. -/
  | store (kind : ActionKind) (target : String) (source : StoreError)
  /-- An action failed for another reason. -/
  | step (kind : ActionKind) (label : String) (source : EngineError)
  | mapping (source : MappingError)
  | schema (source : SchemaError)
  | missingField (object field : String)
  | call (label reason : String)
  | invalidDelay (reason : String)
  | invalidPolicy (reason : String)
  | ownerCycle (object : String)
  | ownerDepthExceeded (object : String) (depth : Nat)
  | cancelled (target : String)
  | signal (detail : String)
  | config (detail : String)
  | internal (detail : String)
  | io (detail : String)
  | serialization (problem : Json.Problem)
deriving DecidableEq, Repr

namespace EngineError

/-- What went wrong, in one word. -/
def tag : EngineError → String
  | store _ _ _ => "Store"
  | step _ _ _ => "Step"
  | mapping _ => "Mapping"
  | schema _ => "Schema"
  | missingField _ _ => "MissingField"
  | call _ _ => "Call"
  | invalidDelay _ => "InvalidDelay"
  | invalidPolicy _ => "InvalidPolicy"
  | ownerCycle _ => "OwnerCycle"
  | ownerDepthExceeded _ _ => "OwnerDepthExceeded"
  | cancelled _ => "Cancelled"
  | signal _ => "Signal"
  | config _ => "Config"
  | internal _ => "Internal"
  | io _ => "Io"
  | serialization _ => "Serialization"

/-- The wording of an engine error. -/
def message : EngineError → String
  | store kind target source => kind.name ++ " " ++ target ++ " failed: " ++ source.message
  | step kind label source => kind.name ++ " '" ++ label ++ "': " ++ source.message
  | mapping source => "mapping error: " ++ source.message
  | schema source => "schema error: " ++ source.message
  | missingField object field => "missing field '" ++ field ++ "' in " ++ object
  | call label reason => "call '" ++ label ++ "' failed: " ++ reason
  | invalidDelay reason => "invalid requeue delay: " ++ reason
  | invalidPolicy reason => "invalid retry policy: " ++ reason
  | ownerCycle object => "owner chain of " ++ object ++ " loops back on itself"
  | ownerDepthExceeded object depth =>
    "owner chain of " ++ object ++ " exceeds " ++ toString depth ++ " levels"
  | cancelled target => "reconciliation of " ++ target ++ " cancelled"
  | signal detail => "signal handler error: " ++ detail
  | config detail => "config error: " ++ detail
  | internal detail => "internal error: " ++ detail
  | io detail => "I/O error: " ++ detail
  | serialization problem => "serialization error: " ++ problem.detail

/-- The kind of the action that raised the error, if one did. -/
def action? : EngineError → Option ActionKind
  | store kind _ _ | step kind _ _ => some kind
  | _ => none

/-- The error beneath all tags of actions. -/
def innermost : EngineError → EngineError
  | step _ _ source => source.innermost
  | error => error

/-- Whether the store did not have the object. -/
def isNotFound (error : EngineError) : Bool :=
  match error.innermost with
  | store _ _ source => source.isNotFound
  | _ => false

/-- Whether the store had another version of the object. -/
def isConflict (error : EngineError) : Bool :=
  match error.innermost with
  | store _ _ source => source.isConflict
  | _ => false

end EngineError

/-! ### Everything beneath an error -/

/-- The wordings of what lies beneath a schema error. -/
def SchemaError.causes : SchemaError → List String
  | serialization problem => [problem.detail]
  | _ => []

/-- The wordings of what lies beneath a store error, outermost first. -/
def StoreError.causes : StoreError → List String
  | io detail => [detail]
  | serialization problem => [problem.detail]
  | schema error => error.message :: error.causes
  | _ => []

/-- The wordings of what lies beneath a mapping error, outermost first. -/
def MappingError.causes : MappingError → List String
  | schema error => error.message :: error.causes
  | noMatch _ _ _ => []

/-- The wordings of what lies beneath an engine error, outermost first. -/
def EngineError.causes : EngineError → List String
  | store _ _ source => source.message :: source.causes
  | step _ _ source => source.message :: source.causes
  | mapping source => source.message :: source.causes
  | schema source => source.message :: source.causes
  | io detail => [detail]
  | serialization problem => [problem.detail]
  | _ => []

end Reconciliation
