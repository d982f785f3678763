import Reconciliation.Json.Decode
import Reconciliation.Json.Printer
import Reconciliation.Object.Basic

namespace Reconciliation

/-!
# Objects as JSON

* `Object.toFields` — the fields of an object in the order they are written: type, metadata, body;
* `Object.toText`, `Object.toJson` — the object as a text and as a value;
* `Object.decoder` — how an object is read;
* `Object.ofJson`, `Object.toTyped` — objects from values, and values of other types from objects.

Whatever is absent or empty is not written, the `uid` of an owner reference apart.  A text repeats a
body field that is named like a part of the envelope, and in a value the body field replaces it.
-/

/-- A field that is written only if it has a value. -/
def optionalField (name : String) (value : Option Json) : List (String × Json) :=
  match value with
  | some value => [(name, value)]
  | none => []

/-- A table of texts as an object. -/
def Json.ofTexts (texts : Table String String) : Json :=
  .object (texts.map .string).entries

namespace Key

/-- The key as a value. -/
def toJson (key : Key) : Json :=
  .object <| optionalField "namespace" (key.scope.map fun scope => .string scope.text) ++
    [("name", .string key.name.text)]

end Key

namespace GroupVersionKind

/-- The declared type as a value. -/
def toJson (gvk : GroupVersionKind) : Json :=
  .object [("group", .string gvk.group), ("version", .string gvk.version),
    ("kind", .string gvk.kind)]

end GroupVersionKind

namespace ResourceType

/-- The type as a value. -/
def toJson (type : ResourceType) : Json :=
  .object [("group", .string type.group), ("version", .string type.version),
    ("kind", .string type.kind), ("plural", .string type.plural),
    ("namespaced", .bool type.namespaced)]

end ResourceType

namespace OwnerReference

/-- The reference as a value. -/
def toJson (reference : OwnerReference) : Json :=
  .object <|
    [("apiVersion", .string reference.apiVersion), ("kind", .string reference.kind),
      ("name", .string reference.name.text), ("uid", .string reference.uid.text)] ++
    optionalField "controller" (reference.controller.map .bool) ++
    optionalField "blockOwnerDeletion" (reference.blockOwnerDeletion.map .bool)

/-- The members of a reference in order. -/
def members : List (Json.Member OwnerReference) := [
  .needed "apiVersion" Json.text fun value r => { r with apiVersion := value },
  .needed "kind" Json.text fun value r => { r with kind := value },
  .needed "name" Json.text fun value r => { r with name := ⟨value⟩ },
  .optional "uid" Json.text fun value r => { r with uid := ⟨value⟩ },
  .optional "controller" (Json.nullable Json.boolean) fun value r => { r with controller := value },
  .optional "blockOwnerDeletion" (Json.nullable Json.boolean) fun value r =>
    { r with blockOwnerDeletion := value }]

/-- How a reference is read. -/
def decoder : Json.Decoder OwnerReference :=
  Json.record members ⟨"", "", ⟨""⟩, ⟨""⟩, none, none⟩

end OwnerReference

namespace Metadata

/-- The metadata as a value. -/
def toJson (m : Metadata) : Json :=
  .object <|
    [("name", .string m.name.text)] ++
    optionalField "namespace" (m.scope.map fun scope => .string scope.text) ++
    optionalField "resourceVersion" (m.version.map fun version => .string version.text) ++
    optionalField "uid" (m.uid.map fun uid => .string uid.text) ++
    optionalField "labels" (if m.labels.isEmpty then none else some (Json.ofTexts m.labels)) ++
    optionalField "annotations"
      (if m.annotations.isEmpty then none else some (Json.ofTexts m.annotations)) ++
    optionalField "ownerReferences"
      (if m.owners.isEmpty then none else some (.array (m.owners.map OwnerReference.toJson))) ++
    optionalField "creationTimestamp" (m.created.map .string) ++
    optionalField "deletionTimestamp" (m.deleted.map .string)

/-- The members of metadata in order. -/
def members : List (Json.Member Metadata) := [
  .needed "name" Json.text fun value m => { m with name := ⟨value⟩ },
  .optional "namespace" (Json.nullable Json.text) fun value m =>
    { m with scope := value.map Namespace.mk },
  .optional "resourceVersion" (Json.nullable Json.text) fun value m =>
    { m with version := value.map ResourceVersion.mk },
  .optional "uid" (Json.nullable Json.text) fun value m => { m with uid := value.map Uid.mk },
  .optional "labels" (Json.table Json.text) fun value m => { m with labels := value },
  .optional "annotations" (Json.table Json.text) fun value m => { m with annotations := value },
  .optional "ownerReferences" (Json.list OwnerReference.decoder) fun value m =>
    { m with owners := value },
  .optional "creationTimestamp" (Json.nullable Json.text) fun value m =>
    { m with created := value },
  .optional "deletionTimestamp" (Json.nullable Json.text) fun value m =>
    { m with deleted := value }]

/-- How metadata is read. -/
def decoder : Json.Decoder Metadata :=
  Json.record members .empty

end Metadata

namespace Object

/-- The fields in the order they are written. -/
def toFields (object : Object) : List (String × Json) :=
  [("apiVersion", .string object.apiVersion), ("kind", .string object.kind),
    ("metadata", object.metadata.toJson)] ++ object.body.entries

/-- The object as a text on one line. -/
def toText (object : Object) : String :=
  (Json.object object.toFields).compact

/-- The object as a value. -/
def toJson (object : Object) : Json :=
  .ofFields object.toFields

/-- The members of the envelope. -/
def members : List (Json.Member Object) := [
  .needed "apiVersion" Json.text fun value o => { o with apiVersion := value },
  .needed "kind" Json.text fun value o => { o with kind := value },
  .optional "metadata" Metadata.decoder fun value o => { o with metadata := value }]

/-- Every other field goes into the body as it is. -/
def bodyField : Json.Other Object := fun name room document =>
  (Json.any room document).map fun value object => object.withField name value

/-- How an object is read. -/
def decoder : Json.Decoder Object :=
  Json.recordOfFields members bodyField ⟨"", "", .empty, .empty⟩

/-- The object that a value describes. -/
def ofJson (value : Json) : Except SchemaError Object :=
  (Json.ofValue decoder value).mapError .serialization

/-- The value of another type that the object describes. -/
def toTyped {α : Type} (decode : Json.Decoder α) (object : Object) : Except SchemaError α :=
  (Json.ofValue decode object.toJson).mapError .serialization

end Object

end Reconciliation
