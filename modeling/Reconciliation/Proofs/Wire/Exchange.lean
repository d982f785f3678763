import Reconciliation.Proofs.Store.Call
import Reconciliation.Proofs.Wire.Address

namespace Reconciliation.Wire

/-!
# Requests that a service answers

* `Origin` — the start of an address, up to its path;
* `outgoing?` — the request that a client sends for a call;
* `Request.Relays` — a request as it arrives, with headers that a carrier adds;
* `Carrier.Delivers`, `Carrier.Conveys` — a carrier brings a request to the service at an origin, and its
  answer back, and so for the request of a call;
* `Request.Carried`, `Carrier.conveys_toService` — what `Carrier.toService` delivers;
* `Deployed` — a configuration with which a client can present itself to the service at an origin;
* `requestFor_eq` — the request that is sent for a path at the origin;
* `handle_relayed` — how the service treats such a request;
* `exchange_of_delivered` — what comes back.

Which requests it brings to a service is the carrier's own affair: what is said of an exchange is said of
the carriers that deliver its request.
-/

/-! ### Origins -/

/-- The start of an address, up to its path. -/
structure Origin where
  /-- Whether the connection is encrypted. -/
  secure : Bool
  authority : String
  slash : '/' ∉ authority.toList
  query : '?' ∉ authority.toList
  fragment : '#' ∉ authority.toList

/-- The text of an origin. -/
def Origin.text (origin : Origin) : String :=
  (if origin.secure then "https" else "http") ++ "://" ++ origin.authority

/-- What is neither in the scheme nor in the authority is not in an origin. -/
theorem Origin.not_mem_text (origin : Origin) {c : Char} (hscheme : c ∉ "https://".toList)
    (hauthority : c ∉ origin.authority.toList) : c ∉ origin.text.toList := by
  simp only [String.reduceToList, List.mem_cons, List.not_mem_nil, or_false, not_or] at hscheme
  cases hsecure : origin.secure <;> simp [Origin.text, hsecure, hauthority, hscheme]

/-! ### Carriers that deliver -/

/-- A request as it arrives at an address.  A carrier may add headers of its own, but none that stands in
    front of one of the request. -/
structure Request.Relays (request : Request) (address : String) (arrived : Request) : Prop where
  method : arrived.method = request.method
  address : arrived.address = address
  headers : ∀ header ∈ request.headers, arrived.header? header.1 = request.header? header.1
  body : arrived.body = request.body

/-- A request may arrive with the headers that it has. -/
theorem Request.relays_at (request : Request) (address : String) :
    request.Relays address { request with address } :=
  ⟨rfl, rfl, fun _ _ => rfl, rfl⟩

/-- A request to an origin is relayed to the service there, with the path and the query behind the origin,
    and the answer is brought back. -/
def Carrier.Delivers {σ : Type} (carrier : Carrier σ) (origin : Origin)
    (serve : Request → σ → Response × σ) (request : Request) : Prop :=
  ∀ tail state, request.address = origin.text ++ ("/" ++ tail) →
    ∃ arrived, request.Relays ("/" ++ tail) arrived ∧
      carrier request state = mapAnswer .ok (serve arrived state)

/-- A carrier that only notes what it is given. -/
def Carrier.noting : Carrier (Option Request) := fun request _ => (.error "", some request)

/-- The request that a client sends for a call, if it sends one. -/
def outgoing? (config : StoreConfig) (call : Store.Call) : Option Request :=
  ((client config .noting).perform call none).2

/-- The request of a call is delivered, if there is one. -/
def Carrier.Conveys {σ : Type} (carrier : Carrier σ) (origin : Origin)
    (serve : Request → σ → Response × σ) (config : StoreConfig) (call : Store.Call) : Prop :=
  ∀ request, outgoing? config call = some request → carrier.Delivers origin serve request

/-! ### A carrier to a service -/

/-- A request that a service takes in once it has been sent. -/
structure Request.Carried (request : Request) : Prop where
  sendable : request.unsendable? = none
  ascii : request.isAscii = true

instance (request : Request) : Decidable request.Carried :=
  decidable_of_iff (request.unsendable? = none ∧ request.isAscii = true)
    ⟨fun h => ⟨h.1, h.2⟩, fun h => ⟨h.sendable, h.ascii⟩⟩

/-- What an address asks for behind its origin, if this begins like a path. -/
theorem target?_append (origin tail : String) :
    target? origin (origin ++ ("/" ++ tail)) = some ("/" ++ tail) := by
  rw [target?, Text.after?_append, Option.bind_some]
  simp

/-- A request that is taken in arrives with what stands behind the origin, and no other one arrives. -/
theorem Request.arrive_eq_ok_iff {request arrived : Request} {origin : String} :
    request.arrive origin = .ok arrived ↔
      request.Carried ∧
        ∃ address, target? origin request.address = some address ∧
          arrived = { request with address } := by
  unfold Request.arrive
  constructor
  · intro h
    split at h
    · cases h
    · cases h
    · rename_i address sendable target
      split at h
      · rename_i ascii
        cases h
        exact ⟨⟨sendable, ascii⟩, address, target, rfl⟩
      · cases h
  · rintro ⟨⟨sendable, ascii⟩, address, target, rfl⟩
    simp only [sendable, target, ascii, if_true]

/-- A carrier to a service delivers whatever this takes in. -/
theorem Request.Carried.delivers {request : Request} (carried : request.Carried) {σ : Type}
    (origin : Origin) (serve : Request → σ → Response × σ) :
    (Carrier.toService origin.text serve).Delivers origin serve request := by
  intro tail state haddress
  have htarget : target? origin.text request.address = some ("/" ++ tail) := by
    rw [haddress, target?_append]
  refine ⟨_, request.relays_at ("/" ++ tail), ?_⟩
  unfold Carrier.toService
  rw [Request.arrive_eq_ok_iff.mpr ⟨carried, _, htarget, rfl⟩]
  rfl

/-- A carrier to a service conveys the request of a call if the service takes it in. -/
theorem Carrier.conveys_toService {σ : Type} (origin : Origin) (serve : Request → σ → Response × σ)
    {config : StoreConfig} {call : Store.Call}
    (carried : ∀ request, outgoing? config call = some request → request.Carried) :
    (toService origin.text serve).Conveys origin serve config call :=
  fun request h => (carried request h).delivers origin serve

/-! ### Clients and services that fit -/

/-- A token that arrives as it was sent. -/
structure Presentable (token : String) : Prop where
  nonempty : token ≠ ""
  finish : token.toList.getLast?.all fun c => !Text.isBlank c

/-- A configuration with which a client can present itself to the service at an origin. -/
structure Deployed (origin : Origin) (config : StoreConfig) : Prop where
  url : config.url = origin.text
  token : ∀ token, config.authToken = some token → Presentable token

/-- A path that may be added to an origin. -/
structure Addressable (path : String) : Prop where
  rooted : ∃ tail, path = "/" ++ tail
  query : '?' ∉ path.toList
  fragment : '#' ∉ path.toList

/-- The headers of a request. -/
def headersOf (config : StoreConfig) (object : Option Object) : List (String × String) :=
  [(protocolHeader, protocolVersion)] ++
    ((config.authToken.map fun token => "Bearer " ++ token).toList.map fun value =>
      ("Authorization", value)) ++
    (object.toList.map fun _ => ("Content-Type", "application/json"))

/-- A request as it reaches the service. -/
def received (config : StoreConfig) (method path : String) (query : List (String × String))
    (object : Option Object) : Request where
  method := method
  address := target path query
  headers := headersOf config object
  body := object.elim [] fun object => Text.bytes object.toText

variable {origin : Origin} {config : StoreConfig}

/-- The request that is sent for a path at the origin. -/
theorem requestFor_eq (hconfig : Deployed origin config) (method : String) {path : String}
    (hpath : Addressable path) (query : List (String × String)) (object : Option Object) :
    requestFor config method path query object =
      { received config method path query object with
        address := origin.text ++ target path query } := by
  unfold requestFor
  rw [hconfig.url,
    addressWith_append ⟨origin.not_mem_text (by decide) origin.query, hpath.query⟩
      ⟨origin.not_mem_text (by decide) origin.fragment, hpath.fragment⟩]
  rfl

/-- What is asked for begins like a path. -/
theorem Addressable.target_rooted {path : String} (hpath : Addressable path)
    (query : List (String × String)) : ∃ tail, target path query = "/" ++ tail := by
  obtain ⟨tail, rfl⟩ := hpath.rooted
  cases query with
  | nil => exact ⟨tail, rfl⟩
  | cons pair rest =>
    exact ⟨tail ++ "?" ++ queryText (pair :: rest), by simp only [target, String.append_assoc]⟩

/-! ### Admission -/

/-- A presented token is what the service asks for. -/
theorem Presentable.trim {token : String} (h : Presentable token) :
    Text.trim ("Bearer " ++ token) = "Bearer " ++ token := by
  apply Text.trim_eq_self
  · rw [String.toList_append]
    rfl
  -- Without a token the header would end in the blank before it.
  · rw [String.toList_append, List.getLast?_append]
    cases htoken : token.toList with
    | nil => exact absurd (String.toList_eq_nil_iff.mp htoken) h.nonempty
    | cons c rest =>
      have hfinish := h.finish
      rw [htoken] at hfinish
      rw [Option.or_of_isSome (by simp)]
      exact hfinish

/-- The service reads the version of the protocol that the client sends. -/
theorem header_protocol (config : StoreConfig) (method path : String)
    (query : List (String × String)) (object : Option Object) :
    (received config method path query object).header? protocolHeader = some protocolVersion := by
  have htrim : Text.trim protocolVersion = protocolVersion := by decide
  unfold Request.header? received headersOf
  rw [List.cons_append, List.cons_append, List.find?_cons_of_pos (by simp), Option.map_some, htrim]

/-- The service reads the token that the client presents. -/
theorem header_authorization {token : String} (hconfig : config.authToken = some token)
    (hpresentable : Presentable token) (method path : String) (query : List (String × String))
    (object : Option Object) :
    (received config method path query object).header? "Authorization" =
      some ("Bearer " ++ token) := by
  unfold Request.header? received headersOf
  rw [hconfig, List.cons_append, List.cons_append, List.find?_cons_of_neg (by decide +kernel)]
  simp only [Option.map_some, Option.toList_some, List.map_cons, List.map_nil, List.nil_append,
    List.cons_append]
  rw [List.find?_cons_of_pos (by simp), Option.map_some, hpresentable.trim]

/-- What is relayed of a request is let in by a service with the token of the client. -/
theorem admission_relayed (hconfig : Deployed origin config) {method path : String}
    {query : List (String × String)} {object : Option Object} {address : String} {arrived : Request}
    (relayed : (received config method path query object).Relays address arrived) :
    arrived.admission config.authToken = .ok () := by
  -- Admission reads two headers, and what a carrier adds does not hide either of them.
  have hprotocol : arrived.header? protocolHeader = some protocolVersion := by
    rw [← header_protocol config method path query object]
    exact relayed.headers (protocolHeader, protocolVersion) List.mem_cons_self
  unfold Request.admission
  rw [hprotocol]
  cases htoken : config.authToken with
  | none => rfl
  | some token =>
    have hauthorization : arrived.header? "Authorization" = some ("Bearer " ++ token) := by
      rw [← header_authorization htoken (hconfig.token token htoken) method path query object]
      apply relayed.headers ("Authorization", "Bearer " ++ token)
      simp [received, headersOf, htoken]
    dsimp only
    rw [hauthorization]
    simp
    rfl

/-! ### What comes back -/

variable {σ : Type}

/-- A request for a path that addresses something is answered as its route says. -/
theorem handle_relayed (hconfig : Deployed origin config) (store : Store σ) {method path : String}
    (hpath : Addressable path) {route : Route} (hroute : Route.parse path = some route)
    {query : List (String × String)} (hnamed : Named query) {object : Option Object}
    {arrived : Request}
    (relayed : (received config method path query object).Relays (target path query) arrived)
    (state : σ) :
    handle store config.authToken arrived state =
      respond store route query (received config method path query object) state := by
  have hsplit : splitQuery arrived.address = (path, query) := by
    rw [relayed.address]
    exact splitQuery_target hpath.query hnamed
  -- Health checks have a path of their own, which is no route.
  have hhealth : path ≠ "/health" := by
    rintro rfl
    have hnone : Route.parse "/health" = none := by decide
    rw [hnone] at hroute
    cases hroute
  have hrespond : respond store route query arrived =
      respond store route query (received config method path query object) := by
    unfold respond Request.object
    rw [relayed.method, relayed.body]
  unfold handle
  rw [hsplit]
  dsimp only
  rw [if_neg (fun h => hhealth h.1), hroute]
  dsimp only
  rw [admission_relayed hconfig relayed, ← hrespond]
  rfl

/-- What comes back for a path that addresses something, from a service that gets the request. -/
theorem exchange_of_delivered {α : Type} (hconfig : Deployed origin config) (store : Store σ)
    (op : Operation) (kind key method : String) {path : String} (hpath : Addressable path)
    {route : Route} (hroute : Route.parse path = some route) {query : List (String × String)}
    (hnamed : Named query) (object : Option Object) {carrier : Carrier σ}
    (delivered : carrier.Delivers origin (handle store config.authToken)
      (requestFor config method path query object))
    (read : List UInt8 → Except StoreError α) (state : σ) :
    exchange carrier op kind key (requestFor config method path query object) read state =
      mapAnswer (fun response => contentOf op kind key response >>= read)
        (respond store route query (received config method path query object) state) := by
  obtain ⟨tail, htail⟩ := hpath.target_rooted query
  have haddress : (requestFor config method path query object).address =
      origin.text ++ ("/" ++ tail) := by
    rw [requestFor_eq hconfig method hpath query object, htail]
  obtain ⟨arrived, ⟨hmethod, htarget, hheaders, hbody⟩, hcarried⟩ := delivered tail state haddress
  have hrelayed : (received config method path query object).Relays (target path query) arrived :=
    ⟨hmethod, htarget.trans htail.symm, hheaders, hbody⟩
  rw [handle_relayed hconfig store hpath hroute hnamed hrelayed state] at hcarried
  unfold exchange
  rw [hcarried]
  rfl

end Reconciliation.Wire
