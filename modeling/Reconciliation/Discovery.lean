import Reconciliation.ResourceType

namespace Reconciliation

/-!
# Discovery

The table that turns declared types into types a store can address:

* `MappingError` — why a declared type has no such type;
* `TypeTable` — the registered types, in the order they were registered;
* `TypeTable.register`, `TypeTable.ofList`, `TypeTable.builtin` — how tables are made;
* `TypeTable.resolve` — the type for a group, a kind and a version.

Of each group and kind the version registered first is the preferred one, and each version is
registered once.
-/

/-- Why a declared type could not be resolved. -/
inductive MappingError where
  | noMatch (group kind version : String)
  | schema (error : SchemaError)
deriving DecidableEq, Repr

namespace MappingError

/-- What is missing or wrong, in one word. -/
def tag : MappingError → String
  | noMatch _ _ _ => "NoMatch"
  | schema _ => "Schema"

/-- The wording of a mapping error. -/
def message : MappingError → String
  | noMatch group kind version =>
    "no resource type registered for group '" ++ group ++ "', kind '" ++ kind ++ "', version '" ++
      version ++ "'"
  | schema error => "invalid type coordinates: " ++ error.message

end MappingError

/-- The registered types, each group, kind and version at most once. -/
structure TypeTable where
  types : List ResourceType
  distinct : types.Pairwise fun a b => a.gvk ≠ b.gvk

namespace TypeTable

/-- The table without types. -/
def empty : TypeTable := ⟨[], List.Pairwise.nil⟩

instance : Inhabited TypeTable := ⟨empty⟩

/-- The table with one more type, unless its group, kind and version are registered already. -/
def register (table : TypeTable) (type : ResourceType) : TypeTable :=
  if h : ∃ other ∈ table.types, other.gvk = type.gvk then table
  else
    { types := table.types ++ [type]
      distinct := by
        refine List.pairwise_append.mpr ⟨table.distinct, by simp, ?_⟩
        intro a ha b hb heq
        rw [List.mem_singleton.mp hb] at heq
        exact h ⟨a, ha, heq⟩ }

/-- The table of the listed types. -/
def ofList (types : List ResourceType) : TypeTable :=
  types.foldl register empty

/-- Number of registered types. -/
def size (table : TypeTable) : Nat := table.types.length

/-- Whether no type is registered. -/
def isEmpty (table : TypeTable) : Bool := table.types.isEmpty

/-- The registered type with the group, the kind and the version.  The empty version stands for the
    preferred one. -/
def resolve (table : TypeTable) (group kind version : String) :
    Except MappingError ResourceType :=
  let found := table.types.find? fun type =>
    type.group == group && type.kind == kind && (version.isEmpty || type.version == version)
  match found with
  | some type => .ok type
  | none => .error (.noMatch group kind version)

/-- The registered type that an object declares. -/
def resolveGvk (table : TypeTable) (gvk : GroupVersionKind) : Except MappingError ResourceType :=
  table.resolve gvk.group gvk.kind gvk.version

/-- The types every table of the program starts from. -/
def builtin : TypeTable := ofList [
  ⟨"", "v1", "Secret", "secrets", true⟩,
  ⟨"", "v1", "ConfigMap", "configmaps", true⟩,
  ⟨"", "v1", "Service", "services", true⟩,
  ⟨"", "v1", "Pod", "pods", true⟩,
  ⟨"", "v1", "ServiceAccount", "serviceaccounts", true⟩,
  ⟨"", "v1", "Namespace", "namespaces", false⟩,
  ⟨"apps", "v1", "Deployment", "deployments", true⟩,
  ⟨"apps", "v1", "ReplicaSet", "replicasets", true⟩,
  ⟨"apps", "v1", "StatefulSet", "statefulsets", true⟩,
  ⟨"batch", "v1", "Job", "jobs", true⟩]

end TypeTable

end Reconciliation
