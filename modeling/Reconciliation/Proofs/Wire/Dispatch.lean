import Reconciliation.Proofs.Fallible
import Reconciliation.Proofs.Store.Call
import Reconciliation.Wire.Service

namespace Reconciliation.Wire

/-!
# Requests as calls

What a service does with a request is one call of its store, or none:

* `Request.callAt` — the call that a request asks for at the route of its path, or why it is refused;
* `Request.asks` — the call that a request asks for, or the answer that it gets without one;
* `Response.ofAnswer` — how the answer to a call is sent back;
* `handle_eq` — the service makes the call that a request asks for and sends back its answer.

Which call it is, and every answer that comes without a call, is decided before the store is looked at.
-/

/-! ### The call that a request asks for -/

/-- The answer to a health check. -/
def Response.healthy : Response := .json 200 "\x7b\"status\":\"ok\"\x7d"

/-- Whether a request is a health check. -/
def Request.checksHealth (request : Request) : Prop :=
  (splitQuery request.address).1 = "/health" ∧ request.method = "GET"

instance (request : Request) : Decidable request.checksHealth :=
  inferInstanceAs (Decidable (_ ∧ _))

/-- The object that a request wants to create at a route. -/
def Request.created (request : Request) (route : Route) : Except Response Object := do
  let object ← request.object
  route.checkBody object
  return object

/-- The object that a request wants to update at a route, under the name there. -/
def Request.updated (request : Request) (route : Route) (name : String) :
    Except Response Object := do
  let object ← request.object
  route.checkBody object
  checkName name object
  return object

/-- The call that a request asks for at the route of its path, or why it is refused. -/
def Request.callAt (request : Request) (route : Route) (query : List (String × String)) :
    Except Response Store.Call :=
  match request.method, route.name with
  | "GET", some name => .ok (.get route.type (route.key name))
  | "GET", none => (listFilter route query).map (.list route.type)
  | "POST", none => (request.created route).map .create
  | "PUT", some name => (request.updated route name).map .update
  | "DELETE", some name => (deleteOptions query).map (.delete route.type (route.key name))
  | _, _ => .error (.plain 405 "method not allowed")

/-- Refuses requests of another version of the protocol. -/
def Request.speaks (request : Request) : Except Response Unit :=
  match request.header? protocolHeader with
  | some version =>
    if version ≠ protocolVersion then
      .error (.plain 400 ("unsupported protocol version '" ++ version ++ "'"))
    else .ok ()
  | none => .ok ()

/-- Refuses requests without the token, if one is asked for. -/
def Request.identifies (token : Option String) (request : Request) : Except Response Unit :=
  match token with
  | some token =>
    if request.header? "Authorization" ≠ some ("Bearer " ++ token) then
      .error (.plain 401 "missing or invalid bearer token")
    else .ok ()
  | none => .ok ()

/-- Admission looks at the version first, and then at the token. -/
theorem admission_eq (token : Option String) (request : Request) :
    request.admission token = (request.speaks >>= fun () => request.identifies token) := by
  unfold Request.admission Request.speaks
  cases request.header? protocolHeader with
  | none => rfl
  | some version =>
    by_cases hversion : version ≠ protocolVersion
    · simp only [if_pos hversion]
      rfl
    · simp only [if_neg hversion]
      rfl

/-- The call that a request asks for, or the answer that it gets without one. -/
def Request.asks (token : Option String) (request : Request) : Except Response Store.Call :=
  if request.checksHealth then .error .healthy
  else
    match Route.parse (splitQuery request.address).1 with
    | none => .error (.plain 404 "not found")
    | some route => do
      request.admission token
      request.callAt route (splitQuery request.address).2

/-! ### The answer to a call -/

/-- The status with which the answer to a call is sent back if it succeeds. -/
def successOf : Store.Call → Nat
  | .create _ => 201
  | .get _ _ | .list _ _ | .update _ | .delete _ _ _ => 200

/-- How the answer to a call is sent back. -/
def Response.ofAnswer (call : Store.Call) : Store.Answer → Response
  | .ok (some (.object object)) => .json (successOf call) object.toText
  | .ok (some (.list items)) => .json (successOf call) (listText items)
  | .ok none => .json (successOf call) "\x7b\x7d"
  | .error failure => .failure failure

variable {σ : Type}

/-- Makes a call and sends back its answer. -/
def exchangeCall (store : Store σ) (call : Store.Call) (state : σ) : Response × σ :=
  mapAnswer (.ofAnswer call) (store.perform call state)

/-- Answering what a call brings is sending back the answer to the call. -/
theorem answer_eq {β : Type} (store : Store σ) (call : Store.Call) {state : σ}
    {made : Except StoreError β × σ} {success : β → Response} (bring : β → Option Payload)
    (hmade : store.perform call state = mapAnswer (Except.map bring) made)
    (hsuccess : ∀ brought, success brought = .ofAnswer call (.ok (bring brought))) :
    answer success made = exchangeCall store call state := by
  rw [exchangeCall, hmade]
  rcases made with ⟨failure | brought, after⟩
  · rfl
  · exact congrArg (·, after) (hsuccess brought)

/-- A call that is made of what is prepared. -/
theorem attempt_map {α : Type} (prepared : Except Response α) (asks : α → Store.Call)
    {made : α → σ → Response × σ} {store : Store σ} (state : σ)
    (hmade : ∀ value, made value state = exchangeCall store (asks value) state) :
    attempt prepared made state = attempt (prepared.map asks) (exchangeCall store) state := by
  cases prepared with
  | error response => rfl
  | ok value => exact hmade value

/-- The answer to a request that has been let in is the answer to the call that it asks for. -/
theorem respond_eq (store : Store σ) (route : Route) (query : List (String × String))
    (request : Request) (state : σ) :
    respond store route query request state =
      attempt (request.callAt route query) (exchangeCall store) state := by
  unfold respond Request.callAt
  generalize request.method = method, route.name = name
  split
  case h_1 name =>
    exact answer_eq store (.get route.type (route.key name)) (some ∘ .object) rfl fun _ => rfl
  case h_2 =>
    refine attempt_map _ (.list route.type) state fun filter => ?_
    exact answer_eq store _ (some ∘ .list) rfl fun _ => rfl
  case h_3 =>
    refine attempt_map _ .create state fun object => ?_
    exact answer_eq store _ (some ∘ .object) rfl fun _ => rfl
  case h_4 name =>
    refine attempt_map _ .update state fun object => ?_
    exact answer_eq store _ (some ∘ .object) rfl fun _ => rfl
  case h_5 name =>
    refine attempt_map _ (.delete route.type (route.key name)) state fun options => ?_
    exact answer_eq store _ (fun _ => none) rfl fun _ => rfl
  case h_6 =>
    -- the five calls are ruled out on both sides, and only the refusal of the method is left
    simp_all [attempt]

/-- **Dispatch.**  A service makes the call that a request asks for and sends back its answer.  A
    request that asks for none is answered without the store. -/
theorem handle_eq (store : Store σ) (token : Option String) (request : Request) (state : σ) :
    handle store token request state =
      attempt (request.asks token) (exchangeCall store) state := by
  show (if request.checksHealth then (Response.healthy, state)
    else match Route.parse (splitQuery request.address).1 with
      | none => (Response.plain 404 "not found", state)
      | some route =>
        attempt (request.admission token)
          (fun () => respond store route (splitQuery request.address).2 request) state) = _
  unfold Request.asks
  by_cases health : request.checksHealth
  · rw [if_pos health, if_pos health]
    rfl
  · rw [if_neg health, if_neg health]
    cases Route.parse (splitQuery request.address).1 with
    | none => rfl
    | some route =>
      cases request.admission token with
      | error response => rfl
      | ok _ => exact respond_eq store route _ request state

/-! ### What can be asked for -/

/-- An object that may be written at a route: it declares the type and has the namespace that the
    path addresses. -/
structure Route.Fits (route : Route) (object : Object) : Prop where
  typed : ∃ gvk, object.gvk = .ok gvk ∧ gvk.group = route.group ∧ gvk.kind = route.kind
  placed : object.metadata.scope = route.scope

/-- The calls that a request can ask for at a route. -/
inductive Request.MayAsk (request : Request) (route : Route) : Store.Call → Prop
  | get {name : String} (method : request.method = "GET") (named : route.name = some name) :
      MayAsk request route (.get route.type (route.key name))
  | list (labels : Table String String) (method : request.method = "GET")
      (unnamed : route.name = none) :
      MayAsk request route (.list route.type ⟨route.scope, labels⟩)
  | create {object : Object} (method : request.method = "POST") (unnamed : route.name = none)
      (fits : route.Fits object) :
      MayAsk request route (.create object)
  | update {object : Object} (method : request.method = "PUT")
      (named : route.name = some object.metadata.name.text) (fits : route.Fits object) :
      MayAsk request route (.update object)
  | delete {name : String} (options : DeleteOptions) (method : request.method = "DELETE")
      (named : route.name = some name) :
      MayAsk request route (.delete route.type (route.key name) options)

theorem fits_of_checkBody {route : Route} {object : Object}
    (h : route.checkBody object = .ok ()) : route.Fits object := by
  obtain ⟨gvk, hgvk, hrest⟩ := bind_eq_ok.mp h
  have hgvk : object.gvk = .ok gvk := mapError_eq_ok.mp hgvk
  dsimp only at hrest
  split at hrest
  · obtain ⟨_, hfalse, _⟩ := bind_eq_ok.mp hrest
    cases hfalse
  · rename_i hholds
    split at hrest
    · cases hrest
    · rename_i hscope
      have htype : route.group = gvk.group ∧ route.kind = gvk.kind := by
        simpa [ResourceType.holds, Route.type] using hholds
      exact ⟨⟨gvk, hgvk, htype.1.symm, htype.2.symm⟩, Decidable.not_not.mp hscope⟩

theorem fits_of_created {request : Request} {route : Route} {object : Object}
    (h : request.created route = .ok object) : route.Fits object := by
  obtain ⟨sent, _, hrest⟩ := bind_eq_ok.mp h
  obtain ⟨_, hbody, hsame⟩ := bind_eq_ok.mp hrest
  cases hsame
  exact fits_of_checkBody hbody

theorem fits_of_updated {request : Request} {route : Route} {name : String} {object : Object}
    (h : request.updated route name = .ok object) :
    route.Fits object ∧ object.metadata.name.text = name := by
  obtain ⟨sent, _, hrest⟩ := bind_eq_ok.mp h
  obtain ⟨_, hbody, hrest⟩ := bind_eq_ok.mp hrest
  obtain ⟨_, hname, hsame⟩ := bind_eq_ok.mp hrest
  cases hsame
  refine ⟨fits_of_checkBody hbody, ?_⟩
  unfold checkName at hname
  split at hname
  · assumption
  · cases hname

theorem scope_of_listFilter {route : Route} {query : List (String × String)} {filter : Filter}
    (h : listFilter route query = .ok filter) : filter = ⟨route.scope, filter.labels⟩ := by
  unfold listFilter at h
  split at h
  · obtain ⟨labels, _, hfilter⟩ := bind_eq_ok.mp h
    cases hfilter
    rfl
  · cases h
    rfl

/-- A call that a request asks for at a route is one that it can ask for. -/
theorem mayAsk_of_callAt {request : Request} {route : Route} {query : List (String × String)}
    {call : Store.Call} (h : request.callAt route query = .ok call) :
    request.MayAsk route call := by
  unfold Request.callAt at h
  split at h
  case h_1 method name hmethod hname =>
    cases h
    exact .get hmethod hname
  case h_2 method hmethod hname =>
    obtain ⟨filter, hfilter, rfl⟩ := map_eq_ok.mp h
    rw [scope_of_listFilter hfilter]
    exact .list filter.labels hmethod hname
  case h_3 method hmethod hname =>
    obtain ⟨object, hobject, rfl⟩ := map_eq_ok.mp h
    exact .create hmethod hname (fits_of_created hobject)
  case h_4 method name hmethod hname =>
    obtain ⟨object, hobject, rfl⟩ := map_eq_ok.mp h
    obtain ⟨hfits, hnamed⟩ := fits_of_updated hobject
    rw [← hnamed] at hname
    exact .update hmethod hname hfits
  case h_5 method name hmethod hname =>
    obtain ⟨options, _, rfl⟩ := map_eq_ok.mp h
    exact .delete options hmethod hname
  case h_6 => cases h

/-- A request asks for a call only at a route, and only for one that it can ask for there. -/
theorem mayAsk_of_asks {token : Option String} {request : Request} {call : Store.Call}
    (h : request.asks token = .ok call) :
    ∃ route, Route.parse (splitQuery request.address).1 = some route ∧
      request.MayAsk route call := by
  unfold Request.asks at h
  split at h
  · cases h
  · split at h
    · cases h
    · rename_i route hroute
      obtain ⟨_, _, hcall⟩ := bind_eq_ok.mp h
      exact ⟨route, hroute, mayAsk_of_callAt hcall⟩

/-! ### Answers that report a success -/

/-- Whether an answer reports a success. -/
def Response.Succeeds (response : Response) : Prop :=
  200 ≤ response.status ∧ response.status < 300

instance (response : Response) : Decidable response.Succeeds :=
  inferInstanceAs (Decidable (_ ∧ _))

/-- Whatever stands in the way of a call, its answer refuses. -/
def Refusing {α : Type} (prepared : Except Response α) : Prop :=
  ∀ response, prepared = .error response → 400 ≤ response.status

theorem refusing_ok {α : Type} (value : α) : Refusing (.ok value) := by
  intro response h
  cases h

theorem refusing_plain {α : Type} {status : Nat} (message : String) (h : 400 ≤ status) :
    Refusing (.error (.plain status message) : Except Response α) := by
  intro response hresponse
  cases hresponse
  exact h

theorem statusOf_ge (failure : StoreError) : 400 ≤ statusOf failure := by
  cases failure <;> simp [statusOf]

theorem Refusing.bind {α β : Type} {prepared : Except Response α} {next : α → Except Response β}
    (h : Refusing prepared) (hnext : ∀ value, Refusing (next value)) :
    Refusing (prepared >>= next) := by
  cases prepared with
  | error response =>
    intro other hother
    cases hother
    exact h response rfl
  | ok value => exact hnext value

theorem Refusing.map {α β : Type} {prepared : Except Response α} (f : α → β)
    (h : Refusing prepared) : Refusing (prepared.map f) := by
  cases prepared with
  | error response =>
    intro other hother
    cases hother
    exact h response rfl
  | ok value => exact refusing_ok (f value)

theorem refusing_mapError {ε α : Type} (step : Except ε α) {f : ε → Response}
    (h : ∀ cause, 400 ≤ (f cause).status) : Refusing (step.mapError f) := by
  intro response hresponse
  obtain ⟨cause, _, rfl⟩ := mapError_eq_error.mp hresponse
  exact h cause

theorem refusing_admission (token : Option String) (request : Request) :
    Refusing (request.admission token) := by
  rw [admission_eq]
  have hspeaks : Refusing request.speaks := by
    unfold Request.speaks
    split
    · split
      · exact refusing_plain _ (by omega)
      · exact refusing_ok ()
    · exact refusing_ok ()
  have hidentifies : Refusing (request.identifies token) := by
    unfold Request.identifies
    split
    · split
      · exact refusing_plain _ (by omega)
      · exact refusing_ok ()
    · exact refusing_ok ()
  exact hspeaks.bind fun _ => hidentifies

theorem refusing_object (request : Request) : Refusing request.object :=
  refusing_mapError _ fun problem => statusOf_ge (.invalid ("bad object body: " ++ problem.detail))

theorem refusing_checkBody (route : Route) (object : Object) :
    Refusing (route.checkBody object) := by
  unfold Route.checkBody
  refine (refusing_mapError _ fun _ => ?_).bind fun gvk => ?_
  · exact Nat.le_refl 400
  · dsimp only
    split
    · exact refusing_plain _ (Nat.le_refl 400)
    · split
      · exact refusing_plain _ (Nat.le_refl 400)
      · exact refusing_ok ()

theorem refusing_checkName (name : String) (object : Object) :
    Refusing (checkName name object) := by
  unfold checkName
  split
  · exact refusing_ok ()
  · exact refusing_plain _ (Nat.le_refl 400)

theorem refusing_listFilter (route : Route) (query : List (String × String)) :
    Refusing (listFilter route query) := by
  unfold listFilter
  split
  · refine (refusing_mapError _ fun _ => ?_).bind fun labels => refusing_ok _
    exact Nat.le_refl 400
  · exact refusing_ok _

theorem refusing_deleteOptions (query : List (String × String)) :
    Refusing (deleteOptions query) := by
  unfold deleteOptions
  dsimp only
  split
  · exact (refusing_mapError _ fun _ => statusOf_ge _).bind fun policy => refusing_ok _
  · exact refusing_ok _

theorem refusing_callAt (request : Request) (route : Route) (query : List (String × String)) :
    Refusing (request.callAt route query) := by
  unfold Request.callAt
  split
  case h_1 => exact refusing_ok _
  case h_2 => exact (refusing_listFilter route query).map _
  case h_3 =>
    refine Refusing.map _ ((refusing_object request).bind fun object => ?_)
    exact (refusing_checkBody route object).bind fun _ => refusing_ok _
  case h_4 method name hmethod hname =>
    refine Refusing.map _ ((refusing_object request).bind fun object => ?_)
    refine (refusing_checkBody route object).bind fun _ => ?_
    exact (refusing_checkName name object).bind fun _ => refusing_ok _
  case h_5 => exact (refusing_deleteOptions query).map _
  case h_6 => exact refusing_plain _ (by omega)

/-- A request that asks for no call is refused, unless it is a health check. -/
theorem refusing_asks (token : Option String) {request : Request}
    (health : ¬ request.checksHealth) : Refusing (request.asks token) := by
  unfold Request.asks
  rw [if_neg health]
  split
  · exact refusing_plain _ (by omega)
  · exact (refusing_admission token request).bind fun _ => refusing_callAt request _ _

/-- The answer to a call is sent back as a success exactly when the call has succeeded. -/
theorem succeeds_ofAnswer_iff {call : Store.Call} {answer : Store.Answer} :
    (Response.ofAnswer call answer).Succeeds ↔ ∃ brought, answer = .ok brought := by
  constructor
  · intro h
    cases answer with
    | ok brought => exact ⟨brought, rfl⟩
    | error failure =>
      have hlow : statusOf failure < 300 := h.2
      have hhigh := statusOf_ge failure
      omega
  · rintro ⟨brought, rfl⟩
    have hstatus : (Response.ofAnswer call (.ok brought)).status = successOf call := by
      unfold Response.ofAnswer
      split <;> simp_all <;> rfl
    unfold Response.Succeeds
    rw [hstatus]
    cases call <;> simp [successOf]

/-- A path that addresses something is not that of the health check. -/
theorem not_checksHealth_of_parse {request : Request} {route : Route}
    (addressed : Route.parse (splitQuery request.address).1 = some route) :
    ¬ request.checksHealth := by
  intro health
  have hnone : Route.parse "/health" = none := by decide
  rw [health.1, hnone] at addressed
  cases addressed

/-- **Inversion.**  Where a service reports a success at a route, it has made a call that the request
    can ask for there, and the call has succeeded. -/
theorem call_of_succeeds {store : Store σ} {token : Option String} {request : Request} {state : σ}
    {route : Route} (addressed : Route.parse (splitQuery request.address).1 = some route)
    (succeeds : (handle store token request state).1.Succeeds) :
    ∃ call brought, request.asks token = .ok call ∧ request.MayAsk route call ∧
      (store.perform call state).1 = .ok brought ∧
      handle store token request state =
        (.ofAnswer call (.ok brought), (store.perform call state).2) := by
  have hhandle := handle_eq store token request state
  cases hasks : request.asks token with
  | error response =>
    rw [hasks] at hhandle
    have hhigh := refusing_asks token (not_checksHealth_of_parse addressed) response hasks
    have hlow : response.status < 300 := by
      rw [hhandle] at succeeds
      exact succeeds.2
    omega
  | ok call =>
    rw [hasks] at hhandle
    have hsent : (Response.ofAnswer call (store.perform call state).1).Succeeds := by
      rw [hhandle] at succeeds
      exact succeeds
    obtain ⟨brought, hbrought⟩ := succeeds_ofAnswer_iff.mp hsent
    obtain ⟨other, hother, hmay⟩ := mayAsk_of_asks hasks
    obtain rfl : route = other := Option.some.inj (addressed.symm.trans hother)
    refine ⟨call, brought, rfl, hmay, hbrought, ?_⟩
    rw [hhandle, ← hbrought]
    rfl

end Reconciliation.Wire
