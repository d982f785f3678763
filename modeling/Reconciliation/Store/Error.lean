import Reconciliation.Key

namespace Reconciliation

/-!
# Store errors

* `StoreError` — why a store refused or failed a call;
* `StoreError.tag`, `StoreError.message` — the error in one word, and its wording;
* `StoreError.isNotFound`, `StoreError.isConflict` — the two failures that callers act upon.
-/

/-- Why a call of a store failed. -/
inductive StoreError where
  | notFound (kind key : String)
  | alreadyExists (kind key : String)
  | conflict (key reason : String)
  | unauthorized (detail : String)
  | http (detail : String)
  | invalid (detail : String)
  | internal (detail : String)
  | io (detail : String)
  | serialization (problem : Json.Problem)
  | schema (error : SchemaError)
deriving DecidableEq, Repr

namespace StoreError

/-- What went wrong, in one word. -/
def tag : StoreError → String
  | notFound _ _ => "NotFound"
  | alreadyExists _ _ => "AlreadyExists"
  | conflict _ _ => "Conflict"
  | unauthorized _ => "Unauthorized"
  | http _ => "Http"
  | invalid _ => "Invalid"
  | internal _ => "Internal"
  | io _ => "Io"
  | serialization _ => "Serialization"
  | schema _ => "Schema"

/-- The wording of a store error. -/
def message : StoreError → String
  | notFound kind key => kind ++ " '" ++ key ++ "' not found"
  | alreadyExists kind key => kind ++ " '" ++ key ++ "' already exists"
  | conflict key reason => "conflict on '" ++ key ++ "': " ++ reason
  | unauthorized detail => "unauthorized: " ++ detail
  | http detail => "HTTP error: " ++ detail
  | invalid detail => "invalid request: " ++ detail
  | internal detail => "internal store error: " ++ detail
  | io detail => "store I/O error: " ++ detail
  | serialization problem => "serialization error: " ++ problem.detail
  | schema error => "schema error: " ++ error.message

/-- The object of a key is absent. -/
def absent (kind : String) (key : Key) : StoreError := notFound kind key.display

/-- Whether an object, or its type, is absent. -/
def isNotFound : StoreError → Bool
  | notFound _ _ => true
  | _ => false

/-- Whether the object has changed in the meantime. -/
def isConflict : StoreError → Bool
  | conflict _ _ => true
  | _ => false

end StoreError

end Reconciliation
