import Reconciliation.Object.Basic

namespace Reconciliation

/-!
# Fields of an object

* `Json.at?` — the value at a path inside a value;
* `Json.setAt?` — a value with another value at a path inside it;
* `Object.field?`, `Object.textField?`, `Object.setField` — the same for the body of an object.

Setting a value creates the objects that its path leads through, but never replaces one.
-/

namespace Json

/-- The value at the path. -/
def at? : List String → Json → Option Json
  | [], value => some value
  | name :: path, value => (value.field? name).bind (at? path)

/-- The value that has `value` at the path, made from what was there before.  There is none if the
    path leads through something that is no object. -/
def setAt? (value : Json) : List String → Option Json → Option Json
  | [], _ => some value
  | name :: path, none => (setAt? value path none).map fun inner => object [(name, inner)]
  | name :: path, some (object fields) =>
    (setAt? value path (Entries.find? name fields)).map fun inner =>
      object (Entries.insert name inner fields)
  | _ :: _, some _ => none

end Json

namespace Object

/-- The value at a path in the body. -/
def field? (object : Object) : List String → Option Json
  | [] => none
  | name :: path => (object.body.find? name).bind (Json.at? path)

/-- The text at a path in the body. -/
def textField? (object : Object) (path : List String) : Option String :=
  (object.field? path).bind Json.text?

/-- The object with `value` at a path in the body. -/
def setField (object : Object) (path : List String) (value : Json) : Except SchemaError Object :=
  match path with
  | [] => .error (.invalidPath "")
  | name :: rest =>
    match Json.setAt? value rest (object.body.find? name) with
    | some inner => .ok (object.withField name inner)
    | none => .error (.invalidPath (".".intercalate path))

end Object

end Reconciliation
