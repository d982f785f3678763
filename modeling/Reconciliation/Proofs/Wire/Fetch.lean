import Reconciliation.Proofs.Wire.Effect
import Reconciliation.Proofs.Wire.Refinement

namespace Reconciliation

/-!
# What clients fetch

How the reads of a client come back over HTTP:

* `Payload.toJson` — what a call brings, as a value;
* `Wire.Unreadable` — answers of a service that the client could not read;
* `Wire.arriving?`, `Wire.ReachesHealth`, `Wire.fetched?` — the request of a call as it reaches the service
  at an origin, whether it does so as a health check, and what the call brings that it asks for there;
* `Wire.unreadable_exchange_iff` — an exchange ends unreadable exactly if it reaches the health check, or if
  what is fetched cannot be read;
* `Wire.fetched_get`, `Wire.fetched_list` — a read that has an address fetches what the store brings.

A client writes namespaces and names into its addresses as they are, and behind whatever address it is
configured with, so that a request can arrive at something else than what was asked for.
-/

namespace Payload

/-- What a call brings, as a value. -/
def toJson : Payload → Json
  | .object single => .object single.toFields
  | .list items => .array (items.map fun item => .object item.toFields)

end Payload

/-- Whatever a read brings is one object or a list. -/
theorem Memory.brought_of_reads {stamp : Stamp} {m : Memory} {call : Store.Call}
    (reads : call.reads = true) {brought : Option Payload}
    (h : ((store stamp).perform call m).1 = .ok brought) : ∃ payload, brought = some payload := by
  cases call with
  | get type key =>
    obtain ⟨object, _, rfl⟩ := map_eq_ok.mp h
    exact ⟨.object object, rfl⟩
  | list type filter =>
    obtain ⟨items, _, rfl⟩ := map_eq_ok.mp h
    exact ⟨.list items, rfl⟩
  | create | update | delete => cases reads

namespace Wire

/-! ### Answers that cannot be read -/

/-- Whether an answer of a service could not be read. -/
def Unreadable {α : Type} (answer : Except StoreError α) : Prop :=
  ∃ problem, answer = .error (.serialization problem)

theorem not_unreadable_ok {α : Type} (value : α) : ¬ Unreadable (.ok value) := by
  rintro ⟨_, h⟩
  cases h

theorem not_unreadable_http {α : Type} (reason : String) :
    ¬ Unreadable (.error (.http reason) : Except StoreError α) := by
  rintro ⟨_, h⟩
  cases h

/-- The status of a refusal stands for a failure of the store, and not for one of reading. -/
theorem not_unreadable_failureOf {α : Type} (op : Operation) (status : Nat)
    (kind key detail : String) :
    ¬ Unreadable (.error (failureOf op status kind key detail) : Except StoreError α) := by
  rintro ⟨problem, h⟩
  have hfailure : failureOf op status kind key detail = .serialization problem := Except.error.inj h
  unfold failureOf at hfailure
  dsimp only at hfailure
  repeat' split at hfailure
  all_goals cases hfailure

/-- An answer is unreadable if it is no refusal and its body cannot be read. -/
theorem unreadable_content_iff {α : Type} {op : Operation} {kind key : String}
    {response : Response} {read : List UInt8 → Except StoreError α} :
    Unreadable (contentOf op kind key response >>= read) ↔
      response.status < 400 ∧ Unreadable (read response.body) := by
  unfold contentOf
  by_cases hstatus : 400 ≤ response.status
  · rw [if_pos hstatus]
    constructor
    · exact fun h => absurd h (not_unreadable_failureOf _ _ _ _ _)
    · rintro ⟨hlow, _⟩
      omega
  · rw [if_neg hstatus]
    constructor
    · exact fun h => ⟨by omega, h⟩
    · exact fun h => h.2

/-! ### Requests as they arrive -/

section

variable (origin : Origin) (config : StoreConfig) (token : Option String) (stamp : Stamp)
  (call : Store.Call) (m : Memory)

/-- The request of a call as it reaches the service at an origin, if it does. -/
def arriving? : Option Request := do
  let request ← outgoing? config call
  (request.arrive origin.text).toOption

/-- Whether the request of a call reaches the service as a health check. -/
def ReachesHealth : Prop :=
  ∃ arrived, arriving? origin config call = some arrived ∧ arrived.checksHealth

/-- What the call brings that a request asks for, if it asks for one and the call succeeds. -/
def Request.brings? (request : Request) : Option Payload := do
  let call ← (request.asks token).toOption
  let brought ← ((Memory.store stamp).perform call m).1.toOption
  brought

/-- What the request of a call brings. -/
def fetched? : Option Payload := do
  let request ← arriving? origin config call
  request.brings? token stamp m

end

variable {origin : Origin} {config : StoreConfig} {token : Option String} {stamp : Stamp}
  {call : Store.Call} {m : Memory}

/-- What is sent, and arrives. -/
theorem arriving?_of_outgoing {request : Request} (sent : outgoing? config call = some request) :
    arriving? origin config call = (request.arrive origin.text).toOption := by
  rw [arriving?, sent]
  rfl

/-- On its way a request keeps its method. -/
theorem method_of_arrive {request arrived : Request} {origin : String}
    (h : request.arrive origin = .ok arrived) : arrived.method = request.method := by
  obtain ⟨_, _, _, rfl⟩ := Request.arrive_eq_ok_iff.mp h
  rfl

/-- A call that reads is sent by `GET`. -/
theorem method_of_arriving (reads : call.reads = true) {arrived : Request}
    (h : arriving? origin config call = some arrived) : arrived.method = "GET" := by
  obtain ⟨sent, hsent, harrives⟩ := Option.bind_eq_some_iff.mp h
  rw [method_of_arrive (eq_ok_of_toOption harrives)]
  cases call with
  | get type key =>
    cases hsent
    rfl
  | list type filter =>
    cases hsent
    rfl
  | create | update | delete => cases reads

/-- What a request by `GET` brings has been brought by a call that reads. -/
theorem call_of_brings {request : Request} (method : request.method = "GET") {payload : Payload}
    (h : request.brings? token stamp m = some payload) :
    ∃ call, call.reads = true ∧ ((Memory.store stamp).perform call m).1 = .ok (some payload) := by
  obtain ⟨call, hasks, h⟩ := Option.bind_eq_some_iff.mp h
  obtain ⟨brought, hbrought, rfl⟩ := Option.bind_eq_some_iff.mp h
  exact ⟨call, reads_of_asks (eq_ok_of_toOption hasks) method, eq_ok_of_toOption hbrought⟩

/-- What a call fetches that reads has been brought by a call that reads. -/
theorem call_of_fetched (reads : call.reads = true) {payload : Payload}
    (h : fetched? origin config token stamp call m = some payload) :
    ∃ call, call.reads = true ∧ ((Memory.store stamp).perform call m).1 = .ok (some payload) := by
  obtain ⟨arrived, harriving, hbrings⟩ := Option.bind_eq_some_iff.mp h
  exact call_of_brings (method_of_arriving reads harriving) hbrings

/-! ### What comes back -/

/-- The response to a request by `GET` either refuses it or holds what it brings. -/
theorem response_cases {request : Request} (method : request.method = "GET")
    (health : ¬ request.checksHealth) :
    (400 ≤ (handle (Memory.store stamp) token request m).1.status ∧
      request.brings? token stamp m = none) ∨
    ∃ payload, request.brings? token stamp m = some payload ∧
      (handle (Memory.store stamp) token request m).1.status < 400 ∧
      (handle (Memory.store stamp) token request m).1.body = Text.bytes payload.toJson.compact := by
  rw [handle_eq]
  cases hasks : request.asks token with
  | error refusal =>
    have hhigh : 400 ≤ refusal.status := refusing_asks token health refusal hasks
    exact .inl ⟨hhigh, by simp [Request.brings?, hasks, Except.toOption]⟩
  | ok call =>
    have hresponse : (attempt (.ok call) (exchangeCall (Memory.store stamp)) m).1 =
        .ofAnswer call ((Memory.store stamp).perform call m).1 := rfl
    rw [hresponse]
    cases hanswer : ((Memory.store stamp).perform call m).1 with
    | error failure =>
      have hhigh : 400 ≤ statusOf failure := statusOf_ge failure
      exact .inl ⟨hhigh, by simp [Request.brings?, hasks, hanswer, Except.toOption]⟩
    | ok brought =>
      obtain ⟨payload, rfl⟩ := Memory.brought_of_reads (reads_of_asks hasks method) hanswer
      have hsucceeds : (Response.ofAnswer call (.ok (some payload))).Succeeds :=
        succeeds_ofAnswer_iff.mpr ⟨some payload, rfl⟩
      have hlow := hsucceeds.2
      refine .inr ⟨payload, by simp [Request.brings?, hasks, hanswer, Except.toOption], by omega, ?_⟩
      cases payload <;> rfl

/-- A health check is answered as such. -/
theorem handle_of_checksHealth {request : Request} (health : request.checksHealth) :
    handle (Memory.store stamp) token request m = (.healthy, m) := by
  have hasks : request.asks token = .error .healthy := if_pos health
  rw [handle_eq, hasks]
  rfl

/-- The response to what arrives is what comes back. -/
theorem exchange_of_arrive {α : Type} {request arrived : Request}
    (h : request.arrive origin.text = .ok arrived) (op : Operation) (kind key : String)
    (serve : Request → Memory → Response × Memory) (read : List UInt8 → Except StoreError α) :
    (exchange (Carrier.toService origin.text serve) op kind key request read m).1 =
      (contentOf op kind key (serve arrived m).1 >>= read) := by
  unfold exchange Carrier.toService
  rw [h]

/-- What does not arrive is not answered. -/
theorem exchange_of_lost {α : Type} {request : Request} {reason : String}
    (h : request.arrive origin.text = .error reason) (op : Operation) (kind key : String)
    (serve : Request → Memory → Response × Memory) (read : List UInt8 → Except StoreError α) :
    (exchange (Carrier.toService origin.text serve) op kind key request read m).1 =
      .error (.http reason) := by
  unfold exchange Carrier.toService
  rw [h]

/-- **Fetching.**  An exchange that reads ends unreadable exactly if it reaches the health check, or if what
    it fetches cannot be read. -/
theorem unreadable_exchange_iff {α : Type} (op : Operation) (kind key : String) {request : Request}
    (sent : outgoing? config call = some request) (method : request.method = "GET")
    {read : List UInt8 → Except StoreError α} (healthy : Unreadable (read Response.healthy.body)) :
    Unreadable (exchange (Carrier.toService origin.text (handle (Memory.store stamp) token)) op kind key
      request read m).1 ↔
    ReachesHealth origin config call ∨
      ∃ payload, fetched? origin config token stamp call m = some payload ∧
        Unreadable (read (Text.bytes payload.toJson.compact)) := by
  have harriving : arriving? origin config call = (request.arrive origin.text).toOption :=
    arriving?_of_outgoing sent
  cases harrive : request.arrive origin.text with
  | error reason =>
    have hnone : arriving? origin config call = none := by rw [harriving, harrive]; rfl
    rw [exchange_of_lost harrive]
    constructor
    · exact fun h => absurd h (not_unreadable_http reason)
    · rintro (⟨arrived, h, _⟩ | ⟨payload, h, _⟩)
      · cases hnone.symm.trans h
      · simp [fetched?, hnone] at h
  | ok arrived =>
    have hsome : arriving? origin config call = some arrived := by rw [harriving, harrive]; rfl
    have hfetched : fetched? origin config token stamp call m = arrived.brings? token stamp m := by
      simp [fetched?, hsome]
    have hhealth : ReachesHealth origin config call ↔ arrived.checksHealth := by
      simp [ReachesHealth, hsome]
    rw [exchange_of_arrive harrive, unreadable_content_iff, hfetched, hhealth]
    -- A health check brings nothing, but its answer has a body; every other answer with a body is that of
    -- a call that brought it.
    by_cases health : arrived.checksHealth
    · rw [handle_of_checksHealth health]
      exact ⟨fun _ => .inl health, fun _ => ⟨show 200 < 400 by decide, healthy⟩⟩
    · have hmethod : arrived.method = "GET" := (method_of_arrive harrive).trans method
      rcases response_cases hmethod health with ⟨hhigh, hnone⟩ | ⟨payload, hbrings, hlow, hbody⟩
      · rw [hnone]
        constructor
        · rintro ⟨hlow, _⟩
          omega
        · rintro (h | ⟨payload, h, _⟩)
          · exact absurd h health
          · cases h
      · rw [hbrings, hbody]
        constructor
        · exact fun h => .inr ⟨payload, rfl, h.2⟩
        · rintro (h | ⟨found, h, hread⟩)
          · exact absurd h health
          · cases h
            exact ⟨hlow, hread⟩

/-! ### Reads that have an address -/

theorem callAt_get {request : Request} {route : Route} {key : Key} {name : String}
    (method : request.method = "GET") (named : route.name = some name)
    (hkey : route.key name = key) (query : List (String × String)) :
    request.callAt route query = .ok (.get route.type key) := by
  unfold Request.callAt
  rw [method, named, ← hkey]
  rfl

theorem callAt_list {request : Request} {route : Route} {filter : Filter}
    (method : request.method = "GET") (unnamed : route.name = none)
    (hfilter : listFilter route query = .ok filter) :
    request.callAt route query = .ok (.list route.type filter) := by
  unfold Request.callAt
  rw [method, unnamed, hfilter]
  rfl

section

variable (hconfig : Deployed origin config)

include hconfig

/-- Where a client can present itself, what arrives of its request is no health check, and brings what the
    call brings that is asked for at its path. -/
theorem fetched_eq (stamp : Stamp) (m : Memory) (call : Store.Call) {path : String}
    (hpath : Addressable path) {route : Route} (hroute : Route.parse path = some route)
    {query : List (String × String)} (hnamed : Named query)
    (sent : outgoing? config call = some (requestFor config "GET" path query none))
    {asked : Store.Call}
    (hasked : (received config "GET" path query none).callAt route query = .ok asked) :
    ¬ ReachesHealth origin config call ∧
      fetched? origin config config.authToken stamp call m =
        (arriving? origin config call).bind fun _ =>
          ((Memory.store stamp).perform asked m).1.toOption.join := by
  -- What stands behind the origin is the path and the query as they were written.
  have harrived : ∀ arrived, arriving? origin config call = some arrived →
      arrived = received config "GET" path query none := by
    intro arrived h
    rw [arriving?_of_outgoing sent, requestFor_eq hconfig "GET" hpath query none] at h
    obtain ⟨_, address, htarget, rfl⟩ := Request.arrive_eq_ok_iff.mp (eq_ok_of_toOption h)
    obtain ⟨tail, htail⟩ := hpath.target_rooted query
    rw [htail, target?_append, ← htail] at htarget
    cases htarget
    rfl
  have hsplit : splitQuery (received config "GET" path query none).address = (path, query) :=
    splitQuery_target hpath.query hnamed
  have health : ¬ (received config "GET" path query none).checksHealth := by
    apply not_checksHealth_of_parse
    rw [hsplit]
    exact hroute
  have hasks : (received config "GET" path query none).asks config.authToken = .ok asked := by
    unfold Request.asks
    rw [if_neg health, hsplit]
    dsimp only
    rw [hroute]
    dsimp only
    rw [admission_relayed hconfig (Request.relays_at _ _)]
    exact hasked
  constructor
  · rintro ⟨arrived, h, hchecks⟩
    rw [harrived arrived h] at hchecks
    exact health hchecks
  · rw [fetched?]
    cases h : arriving? origin config call with
    | none => rfl
    | some arrived =>
      rw [harrived arrived h]
      simp only [Request.brings?, hasks, Except.toOption, Option.bind_eq_bind, Option.bind_some]
      exact Option.bind_id_eq_join

/-- A client that gets an object fetches the one that the store brings. -/
theorem fetched_get {type : ResourceType} {key : Key} (haddressed : Addressed (.get type key)) :
    ¬ ReachesHealth origin config (.get type key) ∧
      fetched? origin config config.authToken stamp (.get type key) m =
        (arriving? origin config (.get type key)).bind fun _ =>
          (Memory.get type key m).1.toOption.map .object := by
  obtain ⟨htype, hscope, hname⟩ := haddressed
  have hroute := parse_objectPath (htype.routable (hscope.segment part_noNamespace)) hname.toSegment
  obtain ⟨health, hfetched⟩ := fetched_eq hconfig stamp m (.get type key) (htype.object hscope hname)
    hroute named_nil rfl (callAt_get rfl rfl (hscope.key_route _ _ _) [])
  refine ⟨health, hfetched.trans (congrArg _ (funext fun _ => ?_))⟩
  show ((Memory.get type key m).1.map fun object => some (Payload.object object)).toOption.join = _
  cases (Memory.get type key m).1 <;> rfl

/-- A client that lists objects fetches the list that the store brings. -/
theorem fetched_list {type : ResourceType} {filter : Filter}
    (haddressed : Addressed (.list type filter)) :
    ¬ ReachesHealth origin config (.list type filter) ∧
      fetched? origin config config.authToken stamp (.list type filter) m =
        (arriving? origin config (.list type filter)).bind fun _ =>
          (Memory.list type filter m).1.toOption.map .list := by
  obtain ⟨htype, hscope, hlabels⟩ := haddressed
  have hsegment := hscope.segment part_allNamespaces
  have hroute := parse_collectionPath (htype.routable hsegment)
  have hfilter := listFilter_labelPairs hscope hlabels type.group type.version type.kind
  obtain ⟨health, hfetched⟩ := fetched_eq hconfig stamp m (.list type filter)
    (htype.collection hsegment) hroute (named_labelPairs filter.labels) rfl
    (callAt_list rfl rfl hfilter)
  refine ⟨health, hfetched.trans (congrArg _ (funext fun _ => ?_))⟩
  show ((Memory.list type filter m).1.map fun items => some (Payload.list items)).toOption.join = _
  cases (Memory.list type filter m).1 <;> rfl

end

end Wire

end Reconciliation
