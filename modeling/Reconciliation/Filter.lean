import Reconciliation.Object.Codec

namespace Reconciliation

/-!
# Filters

* `Selector.parse`, `Selector.display` — label selectors such as `app=web,tier=front`;
* `Filter` — the objects of one namespace, or of all, that carry the given labels;
* `Filter.admits` — whether an object passes a filter.
-/

namespace Selector

/-- The label that a term `name=value` asks for. -/
def parseTerm (term : String) : Except SchemaError (String × String) :=
  match Text.cutFirst? '=' term with
  | some (name, value) =>
    if name.isEmpty then .error (.invalidSelector term) else .ok (name, value)
  | none => .error (.invalidSelector term)

/-- The terms of a selector: what stands between commas, without blanks around it; empty ones do
    not count. -/
def terms (selector : String) : List String :=
  ((Text.cutAll ',' selector).map Text.trim).filter fun term => !term.isEmpty

/-- The labels that a selector asks for; the last term of a name counts. -/
def parse (selector : String) : Except SchemaError (Table String String) :=
  ((terms selector).mapM parseTerm).map .ofList

/-- The selector that asks for the labels, in the order of their names. -/
def display (labels : Table String String) : String :=
  ",".intercalate (labels.entries.map fun (name, value) => name ++ "=" ++ value)

end Selector

/-- What objects have to satisfy to be listed.  Without a namespace all namespaces count. -/
structure Filter where
  scope : Option Namespace
  labels : Table String String
deriving DecidableEq, Inhabited

namespace Filter

/-- The filter that every object passes. -/
def all : Filter := ⟨none, .empty⟩

/-- Whether an object passes the filter. -/
def admits (filter : Filter) (object : Object) : Bool :=
  filter.scope.all (fun scope => object.metadata.scope == some scope) &&
    filter.labels.entries.all fun (name, value) =>
      object.metadata.labels.find? name == some value

/-- The filter as a value. -/
def toJson (filter : Filter) : Json :=
  .object <| optionalField "namespace" (filter.scope.map fun scope => .string scope.text) ++
    optionalField "labels"
      (if filter.labels.isEmpty then none else some (Json.ofTexts filter.labels))

/-- How a filter is read. -/
def decoder : Json.Decoder Filter :=
  Json.record [
    .optional "namespace" (Json.nullable Json.text) fun value f =>
      { f with scope := value.map Namespace.mk },
    .optional "labels" (Json.table Json.text) fun value f => { f with labels := value }] all

end Filter

end Reconciliation
