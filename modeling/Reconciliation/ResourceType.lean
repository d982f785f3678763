import Reconciliation.SchemaError
import Reconciliation.Text.Blank

namespace Reconciliation

/-!
# Types of objects

* `parseApiVersion` — the group and version written as `group/version` or as a bare version;
* `GroupVersionKind` — the type that an object declares;
* `ResourceType` — a type as a store addresses it.
-/

/-- The group and version of an `apiVersion`; the core group is empty and not written. -/
def parseApiVersion (apiVersion : String) : Except SchemaError (String × String) :=
  match Text.cutFirst? '/' apiVersion with
  | some (group, version) =>
    if group.isEmpty || version.isEmpty || version.toList.contains '/' then
      .error (.invalidApiVersion apiVersion)
    else .ok (group, version)
  | none =>
    if apiVersion.isEmpty then .error (.invalidApiVersion apiVersion) else .ok ("", apiVersion)

/-- The type that an object declares.  The group is empty for the core group. -/
structure GroupVersionKind where
  group : String
  version : String
  kind : String
deriving DecidableEq, Repr, Inhabited

namespace GroupVersionKind

/-- The type declared by an `apiVersion` and a kind. -/
def ofApiVersion (apiVersion kind : String) : Except SchemaError GroupVersionKind := do
  let (group, version) ← parseApiVersion apiVersion
  if kind.isEmpty then .error (.missingField "kind") else return ⟨group, version, kind⟩

/-- The `apiVersion` that declares group and version. -/
def apiVersion (gvk : GroupVersionKind) : String :=
  if gvk.group.isEmpty then gvk.version else gvk.group ++ "/" ++ gvk.version

/-- The type as text. -/
def display (gvk : GroupVersionKind) : String :=
  gvk.apiVersion ++ ", Kind=" ++ gvk.kind

end GroupVersionKind

/-- A type as a store addresses it.  `plural` is its lowercase plural name. -/
structure ResourceType where
  group : String
  version : String
  kind : String
  plural : String
  namespaced : Bool
deriving DecidableEq, Repr, Inhabited

namespace ResourceType

/-- The declared type. -/
def gvk (type : ResourceType) : GroupVersionKind := ⟨type.group, type.version, type.kind⟩

/-- Whether objects that declare `gvk` are stored under the type.  Versions do not count: a store
    keeps one copy for all of them. -/
def holds (type : ResourceType) (gvk : GroupVersionKind) : Bool :=
  type.group == gvk.group && type.kind == gvk.kind

/-- The type as text. -/
def display (type : ResourceType) : String :=
  if type.group.isEmpty then type.plural ++ "/" ++ type.version
  else type.plural ++ "." ++ type.group ++ "/" ++ type.version

end ResourceType

end Reconciliation
