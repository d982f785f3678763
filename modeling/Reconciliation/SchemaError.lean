import Reconciliation.Json.Basic

namespace Reconciliation

/-!
# Schema errors

* `SchemaError` — what can be wrong with a piece of an object description;
* `SchemaError.tag`, `SchemaError.message` — the error in one word, and its wording.
-/

/-- What is wrong with a name, a version, a selector, a path or an object. -/
inductive SchemaError where
  | invalidApiVersion (apiVersion : String)
  | invalidName (reason : String)
  | invalidSelector (term : String)
  | invalidPath (path : String)
  | missingField (field : String)
  | serialization (problem : Json.Problem)
deriving DecidableEq, Repr

namespace SchemaError

/-- What is wrong, in one word. -/
def tag : SchemaError → String
  | invalidApiVersion _ => "InvalidApiVersion"
  | invalidName _ => "InvalidName"
  | invalidSelector _ => "InvalidSelector"
  | invalidPath _ => "InvalidPath"
  | missingField _ => "MissingField"
  | serialization _ => "Serialization"

/-- The wording of a schema error. -/
def message : SchemaError → String
  | invalidApiVersion apiVersion => "invalid apiVersion '" ++ apiVersion ++ "'"
  | invalidName reason => "invalid name: " ++ reason
  | invalidSelector term => "invalid label selector term '" ++ term ++ "'"
  | invalidPath path => "invalid field path '" ++ path ++ "'"
  | missingField field => "missing field: " ++ field
  | serialization problem => "serialization error: " ++ problem.detail

end SchemaError

end Reconciliation
