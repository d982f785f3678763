import Reconciliation.Json.Basic
import Reconciliation.Key
import Reconciliation.ResourceType

namespace Reconciliation

/-!
# Objects

* `OwnerReference` — a reference from an object to one that owns it;
* `Metadata` — what every object carries besides its type;
* `Object` — declared type, metadata, and all other fields as they are;
* `Object.controller?` — the reference to the owner that controls the object.
-/

/-- A reference to an object that owns another one. -/
structure OwnerReference where
  apiVersion : String
  kind : String
  name : Name
  uid : Uid
  controller : Option Bool
  blockOwnerDeletion : Option Bool
deriving DecidableEq, Repr, Inhabited

namespace OwnerReference

/-- Whether the owner controls the object. -/
def isController (reference : OwnerReference) : Bool :=
  reference.controller == some true

/-- The declared type of the owner. -/
def gvk (reference : OwnerReference) : Except SchemaError GroupVersionKind :=
  GroupVersionKind.ofApiVersion reference.apiVersion reference.kind

end OwnerReference

/-- What every object carries besides its type. -/
structure Metadata where
  name : Name
  scope : Option Namespace
  version : Option ResourceVersion
  uid : Option Uid
  labels : Table String String
  annotations : Table String String
  owners : List OwnerReference
  created : Option String
  deleted : Option String
deriving DecidableEq, Inhabited

/-- Metadata in which nothing is set. -/
def Metadata.empty : Metadata :=
  ⟨⟨""⟩, none, none, none, .empty, .empty, [], none, none⟩

/-- An object of any type: the type it declares, its metadata, and its other fields. -/
structure Object where
  apiVersion : String
  kind : String
  metadata : Metadata
  body : Table String Json
deriving DecidableEq, Inhabited

namespace Object

/-- An object with type and key only. -/
def ofKey (gvk : GroupVersionKind) (key : Key) : Object :=
  { apiVersion := gvk.apiVersion
    kind := gvk.kind
    metadata := { Metadata.empty with name := key.name, scope := key.scope }
    body := .empty }

/-- The declared type. -/
def gvk (object : Object) : Except SchemaError GroupVersionKind :=
  GroupVersionKind.ofApiVersion object.apiVersion object.kind

/-- The key. -/
def key (object : Object) : Key := ⟨object.metadata.scope, object.metadata.name⟩

/-- The first reference to an owner that controls the object. -/
def controller? (object : Object) : Option OwnerReference :=
  object.metadata.owners.find? (·.isController)

/-- The object with a field in its body. -/
def withField (object : Object) (name : String) (value : Json) : Object :=
  { object with body := object.body.insert name value }

/-- The object with a label. -/
def withLabel (object : Object) (name value : String) : Object :=
  { object with
    metadata := { object.metadata with labels := object.metadata.labels.insert name value } }

/-- The object with one more owner. -/
def withOwner (object : Object) (owner : OwnerReference) : Object :=
  { object with metadata := { object.metadata with owners := object.metadata.owners ++ [owner] } }

/-- The object under another key. -/
def withKey (object : Object) (key : Key) : Object :=
  { object with metadata := { object.metadata with scope := key.scope, name := key.name } }

end Object

/-- The reference with which an object is controlled by `owner`. -/
def OwnerReference.controllerFor (owner : Object) : Except SchemaError OwnerReference := do
  let gvk ← owner.gvk
  return {
    apiVersion := gvk.apiVersion
    kind := gvk.kind
    name := owner.metadata.name
    uid := owner.metadata.uid.getD ⟨""⟩
    controller := some true
    blockOwnerDeletion := some true }

end Reconciliation
