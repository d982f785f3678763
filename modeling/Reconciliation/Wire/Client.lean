import Reconciliation.Store.Config
import Reconciliation.Wire.Carrier

namespace Reconciliation.Wire

/-!
# The client

A store that is reached over HTTP:

* `failureOf` — the failure that an error status stands for;
* `requestFor` — the request for a path below the configured address;
* `exchange` — a request is sent, and what comes back is read;
* `client` — the store at an address, over a carrier.

An answer with a status of 400 or more is a failure, and its body the detail.
-/

/-- The failure that an error status stands for.  `detail` may be empty. -/
def failureOf (op : Operation) (status : Nat) (kind key detail : String) : StoreError :=
  let heading := "HTTP " ++ toString status ++ " for " ++ op.name ++ " " ++ kind ++ " '" ++ key ++
    "'"
  let message := if detail.isEmpty then heading else heading ++ ": " ++ detail
  if status = 404 then .notFound kind key
  else if status = 409 then
    if op = .create then .alreadyExists kind key
    else
      .conflict key
        (if detail.isEmpty then op.name ++ " rejected by store (HTTP 409)" else detail)
  else if status = 401 ∨ status = 403 then .unauthorized message
  else if status = 400 ∨ status = 422 then .invalid message
  else .http message

/-- The address up to its fragment, with pairs added to its query. -/
def addressWith (url : String) (query : List (String × String)) : String :=
  let url := (Text.cutFirst? '#' url).elim url (·.1)
  match query with
  | [] => url
  | _ =>
    url ++ (if url.toList.contains '?' then "&" else "?") ++
      "&".intercalate (query.map fun (name, value) => name ++ "=" ++ Text.percentEncode value)

/-- The request for a path below the configured address. -/
def requestFor (config : StoreConfig) (method path : String) (query : List (String × String))
    (object : Option Object) : Request :=
  let authorization := config.authToken.map fun token => "Bearer " ++ token
  { method
    address := addressWith (config.url ++ path) query
    headers := [(protocolHeader, protocolVersion)] ++
      (authorization.toList.map fun value => ("Authorization", value)) ++
      (object.toList.map fun _ => ("Content-Type", "application/json"))
    body := object.elim [] fun object => Text.bytes object.toText }

/-- The body of an answer, or the failure that its status stands for. -/
def contentOf (op : Operation) (kind key : String) (response : Response) :
    Except StoreError (List UInt8) :=
  if 400 ≤ response.status then
    .error (failureOf op response.status kind key (Text.trim (Text.decodeLossy response.body)))
  else .ok response.body

variable {σ : Type}

/-- Sends a request and reads what comes back. -/
def exchange {α : Type} (carrier : Carrier σ) (op : Operation) (kind key : String)
    (request : Request) (read : List UInt8 → Except StoreError α) (state : σ) :
    Except StoreError α × σ :=
  match carrier request state with
  | (.error reason, state) => (.error (.http reason), state)
  | (.ok response, state) => (contentOf op kind key response >>= read, state)

/-- Reads the body of an answer as what `decode` reads. -/
def readAs {α : Type} (decode : Json.Decoder α) (body : List UInt8) : Except StoreError α :=
  (Json.ofBytes decode body).mapError .serialization

/-- Makes a call for the declared type of an object. -/
def withGvk (object : Object)
    (call : GroupVersionKind → σ → Except StoreError Object × σ) (state : σ) :
    Except StoreError Object × σ :=
  match object.gvk with
  | .ok gvk => call gvk state
  | .error error => (.error (.schema error), state)

/-- The store at the configured address. -/
def client (config : StoreConfig) (carrier : Carrier σ) : Store σ :=
  let path (type : ResourceType) (key : Key) := objectPath type.group type.version type.kind key
  { name := "http"
    get := fun type key =>
      exchange carrier .get type.kind key.display
        (requestFor config "GET" (path type key) [] none) (readAs Object.decoder)
    list := fun type filter =>
      let segment := filter.scope.elim allNamespaces (·.text)
      exchange carrier .list type.kind segment
        (requestFor config "GET" (collectionPath type.group type.version type.kind segment)
          (if filter.labels.isEmpty then [] else [("labels", Selector.display filter.labels)]) none)
        (readAs (Json.list Object.decoder))
    create := fun object => withGvk object fun gvk =>
      let segment := object.key.scope.elim noNamespace (·.text)
      exchange carrier .create gvk.kind object.key.display
        (requestFor config "POST" (collectionPath gvk.group gvk.version gvk.kind segment) []
          (some object))
        (readAs Object.decoder)
    update := fun object => withGvk object fun gvk =>
      exchange carrier .update gvk.kind object.key.display
        (requestFor config "PUT" (objectPath gvk.group gvk.version gvk.kind object.key) []
          (some object))
        (readAs Object.decoder)
    delete := fun type key options =>
      exchange carrier .delete type.kind key.display
        (requestFor config "DELETE" (path type key)
          ((options.precondition.toList.map fun version => ("precondition", version.text)) ++
            (options.propagation.toList.map fun policy => ("propagation", policy.name))) none)
        (fun _ => .ok ()) }

end Reconciliation.Wire
