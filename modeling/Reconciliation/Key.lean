import Reconciliation.Identifier
import Reconciliation.SchemaError
import Reconciliation.Text.Blank

namespace Reconciliation

/-!
# Keys of objects

* `validateName` — checks a name of an object or namespace;
* `Key` — a name, and the namespace it is in unless the object belongs to the whole cluster;
* `Key.display`, `Key.outline` — the key as text, and as it is shown;
* `Key.parse` — the key that a text names.

Keys are ordered by namespace first, with the keys of no namespace before all others.
-/

/-- Characters allowed at the ends of a name. -/
def isNameEnd (c : Char) : Bool :=
  c.isLower || c.isDigit

/-- Characters allowed in a name. -/
def isNameChar (c : Char) : Bool :=
  isNameEnd c || c == '-' || c == '.'

/-- The first rule that the text breaks as a name of an object or namespace. -/
def validateName (name : String) : Except SchemaError Unit :=
  if name.isEmpty || 253 < name.utf8ByteSize then
    .error (.invalidName "name must be 1-253 characters")
  else if !name.toList.all isNameChar then
    .error (.invalidName ("'" ++ name ++ "' must match [a-z0-9.-]"))
  else if name.toList.head?.any isNameEnd && name.toList.getLast?.any isNameEnd then .ok ()
  else
    .error (.invalidName ("'" ++ name ++ "' must start and end with an alphanumeric character"))

/-- The name of an object together with its namespace; an object of the whole cluster has none. -/
structure Key where
  scope : Option Namespace
  name : Name
deriving DecidableEq, Repr, Inhabited

namespace Key

instance : Ord Key := ⟨compareLex (compareOn Key.scope) (compareOn Key.name)⟩

instance : Std.TransOrd Key :=
  inferInstanceAs (Std.TransCmp (compareLex (compareOn Key.scope) (compareOn Key.name)))

instance : Std.LawfulEqOrd Key where
  eq_of_compare {a b} h := by
    have ⟨hs, hn⟩ := Ordering.then_eq_eq.mp h
    cases a; cases b
    exact congr (congrArg Key.mk (Std.LawfulEqOrd.eq_of_compare hs))
      (Std.LawfulEqOrd.eq_of_compare hn)

/-- The key of a name in a namespace. -/
def namespaced (scope name : String) : Key := ⟨some ⟨scope⟩, ⟨name⟩⟩

/-- The key of a name that belongs to the whole cluster. -/
def cluster (name : String) : Key := ⟨none, ⟨name⟩⟩

/-- `namespace/name`, or the bare name. -/
def display (key : Key) : String :=
  match key.scope with
  | some scope => scope.text ++ "/" ++ key.name.text
  | none => key.name.text

/-- The key as it is shown. -/
def outline (key : Key) : Text.Outline :=
  .record "ObjectKey"
    [("namespace", key.scope.elim (.word "None") fun scope => .tagged "Some" scope.outline),
      ("name", key.name.outline)]

/-- The key named by `namespace/name` or by a bare name. -/
def parse (text : String) : Except SchemaError Key := do
  match Text.cutFirst? '/' text with
  | some (scope, name) =>
    validateName scope
    validateName name
    return namespaced scope name
  | none =>
    validateName text
    return cluster text

end Key

end Reconciliation
