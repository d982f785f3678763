import Reconciliation.Store.Basic
import Reconciliation.Text.Quoted
import Reconciliation.Wire.Path

namespace Reconciliation.Wire

/-!
# The service

A store behind HTTP:

* `Request`, `Response` — what is asked and what is answered;
* `statusOf` — the status that stands for a failure of the store;
* `Request.admission` — whether a request is let in;
* `handle` — the answer to a request, in a state of the store.

Requests are looked at in this order: health checks, paths that address nothing, admission, and then
the method together with the kind of path.
-/

/-- A request: its address is a path, with a query if there is one. -/
structure Request where
  method : String
  address : String
  headers : List (String × String)
  body : List UInt8
deriving DecidableEq, Repr, Inhabited

/-- An answer. -/
structure Response where
  status : Nat
  contentType : Option String
  body : List UInt8
deriving DecidableEq, Repr, Inhabited

/-- The version of the protocol, sent along with every request. -/
def protocolVersion : String := "1"

/-- The header that holds the version of the protocol. -/
def protocolHeader : String := "X-Rekon-Protocol"

/-- The status that stands for a failure of the store. -/
def statusOf : StoreError → Nat
  | .notFound _ _ => 404
  | .alreadyExists _ _ | .conflict _ _ => 409
  | .unauthorized _ => 403
  | .invalid _ | .schema _ | .serialization _ => 400
  | .http _ | .internal _ | .io _ => 500

namespace Response

/-- An answer that holds a message. -/
def plain (status : Nat) (message : String) : Response := ⟨status, none, Text.bytes message⟩

/-- An answer that holds JSON text. -/
def json (status : Nat) (text : String) : Response :=
  ⟨status, some "application/json", Text.bytes text⟩

/-- The answer to a failure of the store. -/
def failure (error : StoreError) : Response := plain (statusOf error) error.message

end Response

namespace Request

/-- The value of the first header of a name, without blanks around it.  Upper and lower case of the
    name do not matter. -/
def header? (request : Request) (name : String) : Option String :=
  (request.headers.find? fun header => header.1.toLower == name.toLower).map fun header =>
    Text.trim header.2

/-- Refuses requests of another version of the protocol, and those without the token if one is
    asked for. -/
def admission (token : Option String) (request : Request) : Except Response Unit := do
  match request.header? protocolHeader with
  | some version =>
    if version ≠ protocolVersion then
      .error (.plain 400 ("unsupported protocol version '" ++ version ++ "'"))
  | none => pure ()
  match token with
  | some token =>
    if request.header? "Authorization" ≠ some ("Bearer " ++ token) then
      .error (.plain 401 "missing or invalid bearer token")
  | none => pure ()

/-- The object in the body of a request. -/
def object (request : Request) : Except Response Object :=
  (Json.ofBytes Object.decoder request.body).mapError fun problem =>
    .failure (.invalid ("bad object body: " ++ problem.detail))

end Request

/-- The first value of a name in a query. -/
def queryValue? (query : List (String × String)) (name : String) : Option String :=
  (query.find? fun pair => pair.1 == name).map (·.2)

/-- The object in the body has to have the type and the namespace that the path addresses. -/
def Route.checkBody (route : Route) (object : Object) : Except Response Unit := do
  let gvk ← object.gvk.mapError fun error => Response.plain 400 error.message
  if !route.type.holds gvk then
    .error (.plain 400
      ("body is " ++ gvk.display ++ ", path addresses " ++ route.type.gvk.display))
  if object.metadata.scope ≠ route.scope then
    let shown := object.metadata.scope.elim "None" fun scope =>
      "Some(" ++ Text.quoted scope.text ++ ")"
    .error (.plain 400
      ("body namespace " ++ shown ++ " does not match path segment '" ++ route.segment ++ "'"))

/-- The object has to have the name that the path addresses. -/
def checkName (name : String) (object : Object) : Except Response Unit :=
  if object.metadata.name.text = name then .ok ()
  else
    .error (.plain 400
      ("body names '" ++ object.metadata.name.text ++ "', path names '" ++ name ++ "'"))

/-- The options of a delete that a query gives. -/
def deleteOptions (query : List (String × String)) : Except Response DeleteOptions := do
  let precondition := (queryValue? query "precondition").map ResourceVersion.mk
  match queryValue? query "propagation" with
  | some name =>
    let policy ← (PropagationPolicy.parse name).mapError Response.failure
    return ⟨precondition, some policy⟩
  | none => return ⟨precondition, none⟩

/-- The filter that a path and a query give. -/
def listFilter (route : Route) (query : List (String × String)) : Except Response Filter := do
  match queryValue? query "labels" with
  | some selector =>
    let labels ← (Selector.parse selector).mapError fun error => Response.plain 400 error.message
    return ⟨route.scope, labels⟩
  | none => return ⟨route.scope, .empty⟩

/-- Objects as the text of an array. -/
def listText (objects : List Object) : String :=
  (Json.array (objects.map fun object => .object object.toFields)).compact

/-- The answer to a call of the store. -/
def answer {α σ : Type} (success : α → Response) (result : Except StoreError α × σ) :
    Response × σ :=
  match result with
  | (.ok value, state) => (success value, state)
  | (.error error, state) => (.failure error, state)

variable {σ : Type}

/-- Makes a call once everything it needs is there. -/
def attempt {α : Type} (prepared : Except Response α) (call : α → σ → Response × σ) (state : σ) :
    Response × σ :=
  match prepared with
  | .ok value => call value state
  | .error response => (response, state)

/-- The answer to a request that has been let in. -/
def respond (store : Store σ) (route : Route) (query : List (String × String))
    (request : Request) : σ → Response × σ :=
  match request.method, route.name with
  | "GET", some name => fun state =>
    answer (fun object => .json 200 object.toText) (store.get route.type (route.key name) state)
  | "GET", none =>
    attempt (listFilter route query) fun filter state =>
      answer (fun objects => .json 200 (listText objects)) (store.list route.type filter state)
  | "POST", none =>
    attempt
      (do let object ← request.object
          route.checkBody object
          return object)
      fun object state =>
        answer (fun stored => .json 201 stored.toText) (store.create object state)
  | "PUT", some name =>
    attempt
      (do let object ← request.object
          route.checkBody object
          checkName name object
          return object)
      fun object state =>
        answer (fun stored => .json 200 stored.toText) (store.update object state)
  | "DELETE", some name =>
    attempt (deleteOptions query) fun options state =>
      answer (fun () => .json 200 "\x7b\x7d")
        (store.delete route.type (route.key name) options state)
  | _, _ => fun state => (.plain 405 "method not allowed", state)

/-- The answer to any request.  `token` is what requests have to present, if anything. -/
def handle (store : Store σ) (token : Option String) (request : Request) (state : σ) :
    Response × σ :=
  let (path, query) := splitQuery request.address
  if path = "/health" ∧ request.method = "GET" then
    (.json 200 "\x7b\"status\":\"ok\"\x7d", state)
  else
    match Route.parse path with
    | none => (.plain 404 "not found", state)
    -- Only from here on does it matter who asks.
    | some route =>
      attempt (request.admission token) (fun () => respond store route query request) state

end Reconciliation.Wire
