import Reconciliation.Filter
import Reconciliation.Text.Lowercase
import Reconciliation.Text.Percent

namespace Reconciliation.Wire

/-!
# Paths and routes

How the objects of a store are addressed over HTTP:

* `collectionPath`, `objectPath` — the paths of a type in a namespace and of one object;
* `splitQuery` — an address cut into its path and the pairs of its query;
* `Route`, `Route.parse` — what a path addresses.

The core group is written `core`, no namespace `_`, and all namespaces together `*`.
-/

/-- The segment that stands for the core group. -/
def coreGroup : String := "core"

/-- The segment that stands for no namespace. -/
def noNamespace : String := "_"

/-- The segment that stands for all namespaces. -/
def allNamespaces : String := "*"

/-- The path of a type within the namespaces that a segment stands for. -/
def collectionPath (group version kind segment : String) : String :=
  "/".intercalate
    ["/resources", if group.isEmpty then coreGroup else group, version, kind, segment]

/-- The path of one object. -/
def objectPath (group version kind : String) (key : Key) : String :=
  collectionPath group version kind (key.scope.elim noNamespace (·.text)) ++ "/" ++ key.name.text

/-- The path of an address, and the names and values of its query. -/
def splitQuery (address : String) : String × List (String × String) :=
  match Text.cutFirst? '?' address with
  | some (path, query) => (path, Text.formPairs query)
  | none => (address, [])

/-- What a path addresses: a type in a namespace, and one object of it if there is a name. -/
structure Route where
  group : String
  version : String
  kind : String
  /-- A namespace, or the segment that stands for none or for all. -/
  segment : String
  name : Option String
deriving DecidableEq, Repr, Inhabited

namespace Route

/-- The addressed type. -/
def type (route : Route) : ResourceType :=
  ⟨route.group, route.version, route.kind, Text.lowercase route.kind,
    route.segment != noNamespace⟩

/-- The addressed namespace, if the segment names one. -/
def scope (route : Route) : Option Namespace :=
  if route.segment = noNamespace ∨ route.segment = allNamespaces then none
  else some ⟨route.segment⟩

/-- The key of a name in the addressed namespace. -/
def key (route : Route) (name : String) : Key := ⟨route.scope, ⟨name⟩⟩

/-- The route of a path.  No segment may be empty. -/
def parse (path : String) : Option Route := do
  let rest ← Text.after? "/resources/" path
  let segments := (Text.cutAll '/' rest).map Text.percentDecode
  if segments.any (·.isEmpty) then none
  else
    match segments with
    | [group, version, kind, segment] => route group version kind segment none
    | [group, version, kind, segment, name] => route group version kind segment (some name)
    | _ => none
where
  /-- The route of decoded segments. -/
  route (group version kind segment : String) (name : Option String) : Option Route :=
    some ⟨if group = coreGroup then "" else group, version, kind, segment, name⟩

end Route

end Reconciliation.Wire
