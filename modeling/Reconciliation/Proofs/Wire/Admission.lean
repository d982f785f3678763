import Reconciliation.Proofs.First
import Reconciliation.Proofs.Memory.Run
import Reconciliation.Proofs.Wire.Dispatch

namespace Reconciliation.Wire

/-!
# Requests without the token

A service that asks for a token, and what it tells those who do not have it:

* `header?_eq_some_iff` — the value of a header is that of the first one of its name;
* `Request.presents` — whether a request comes with a token;
* `Request.turnedAway` — the answer to a request that comes without it, which is a function of the
  request alone;
* `unauthenticated_alike` — services of any two stores answer such a request alike, and leave both
  stores as they are;
* `serve` — a service answers several requests;
* `serve_presenting`, `serve_outsiders` — to those with the token it is as if the others had not
  asked, and what the others see does not depend on the store or on what else is asked.
-/

/-! ### One request -/

/-- Whether a request comes with a token: blanks aside, the token is what its first header of
    authorization bears. -/
def Request.presents (request : Request) (token : String) : Prop :=
  ∃ header, FirstOf (fun header => header.1.toLower = "authorization") request.headers header ∧
    Text.trim header.2 = "Bearer " ++ token

/-- The value of a header is that of the first one of its name, whose case does not matter, without the
    blanks around it. -/
theorem header?_eq_some_iff {request : Request} {name value : String} :
    request.header? name = some value ↔
      ∃ header, FirstOf (fun header => header.1.toLower = name.toLower) request.headers header ∧
        Text.trim header.2 = value := by
  rw [Request.header?, Option.map_eq_some_iff]
  exact exists_congr fun header => and_congr_left' find?_eq_some_iff_firstOf

/-- A request comes with a token if this is what the service reads. -/
theorem presents_iff {request : Request} {token : String} :
    request.presents token ↔ request.header? "Authorization" = some ("Bearer " ++ token) := by
  have hname : "Authorization".toLower = "authorization" := by decide +kernel
  rw [header?_eq_some_iff, hname]
  exact Iff.rfl

instance (request : Request) (token : String) : Decidable (request.presents token) :=
  decidable_of_iff _ presents_iff.symm

/-- Why a request without the token is not let in.  The version of the protocol comes first. -/
def Request.refusal (request : Request) : Response :=
  match request.speaks with
  | .error response => response
  | .ok () => .plain 401 "missing or invalid bearer token"

/-- The answer to a request that comes without the token. -/
def Request.turnedAway (request : Request) : Response :=
  if request.checksHealth then .healthy
  else
    match Route.parse (splitQuery request.address).1 with
    | none => .plain 404 "not found"
    | some _ => request.refusal

variable {token : String} {request : Request}

/-- Nothing but the token lets a request in. -/
theorem admission_of_not_presents (unpresented : ¬ request.presents token) :
    request.admission (some token) = .error request.refusal := by
  have htoken : request.identifies (some token) =
      .error (.plain 401 "missing or invalid bearer token") :=
    if_pos fun hread => unpresented (presents_iff.mpr hread)
  rw [admission_eq, htoken]
  unfold Request.refusal
  cases request.speaks <;> rfl

/-- A request without the token asks for no call. -/
theorem asks_of_not_presents (unpresented : ¬ request.presents token) :
    request.asks (some token) = .error request.turnedAway := by
  unfold Request.asks Request.turnedAway
  by_cases health : request.checksHealth
  · rw [if_pos health, if_pos health]
  · rw [if_neg health, if_neg health]
    cases Route.parse (splitQuery request.address).1 with
    | none => rfl
    | some route =>
      show (request.admission (some token) >>= _) = _
      rw [admission_of_not_presents unpresented]
      rfl

/-- **Step.**  A request without the token is turned away, and the store is not looked at. -/
theorem handle_of_not_presents (unpresented : ¬ request.presents token) {σ : Type}
    (store : Store σ) (state : σ) :
    handle store (some token) request state = (request.turnedAway, state) := by
  rw [handle_eq, asks_of_not_presents unpresented]
  rfl

/-- **Nothing without the token.**  Whatever a request without the token asks for, services of any two
    stores in any two states give it the same answer, and both stores are left as they were. -/
theorem unauthenticated_alike (unpresented : ¬ request.presents token) {σ τ : Type}
    (store : Store σ) (other : Store τ) (state : σ) (otherState : τ) :
    (handle store (some token) request state).1 =
      (handle other (some token) request otherState).1 ∧
    (handle store (some token) request state).2 = state ∧
    (handle other (some token) request otherState).2 = otherState := by
  have hhere := handle_of_not_presents unpresented store state
  have hthere := handle_of_not_presents unpresented other otherState
  rw [hhere, hthere]
  exact ⟨rfl, rfl, rfl⟩

namespace Outsider

/-- The store with one object. -/
def holding : Memory := (Memory.insert .verbatim Specimen.sample .empty).2

/-- The deletion of the object, with a token that was guessed. -/
def deletion : Request :=
  ⟨"DELETE", "/resources/core/v1/Secret/ns/a", [("authorization", "Bearer guess")], []⟩

/-- Whoever guesses the token wrongly does not delete the object and does not learn that it is
    there. -/
theorem deletion_turned_away : ¬ deletion.presents "t" ∧ holding.objects ≠ Memory.empty.objects ∧
    (handle (Memory.store .verbatim) (some "t") deletion holding).1 =
      (handle (Memory.store .verbatim) (some "t") deletion .empty).1 ∧
    (handle (Memory.store .verbatim) (some "t") deletion holding).2 = holding ∧
    (handle (Memory.store .verbatim) (some "t") deletion .empty).2 = .empty := by
  have hguess : ¬ deletion.presents "t" := by decide +kernel
  have hheld : holding.objects ≠ Memory.empty.objects := by decide
  exact ⟨hguess, hheld,
    unauthenticated_alike hguess (Memory.store .verbatim) (Memory.store .verbatim) holding .empty⟩

end Outsider

/-! ### Several requests -/

variable {σ : Type}

/-- A service answers one request after the other. -/
def serve (store : Store σ) (token : Option String) :
    List Request → σ → List (Request × Response) × σ
  | [], state => ([], state)
  | request :: rest, state =>
    let (response, after) := handle store token request state
    let (exchanges, last) := serve store token rest after
    ((request, response) :: exchanges, last)

theorem serve_cons (store : Store σ) (token : Option String) (request : Request)
    (rest : List Request) (state : σ) :
    serve store token (request :: rest) state =
      ((request, (handle store token request state).1) ::
          (serve store token rest (handle store token request state).2).1,
        (serve store token rest (handle store token request state).2).2) :=
  rfl

/-- **Purge.**  To those who have the token it is as if nobody else had asked. -/
theorem serve_presenting (store : Store σ) (token : String) (requests : List Request) (state : σ) :
    serve store (some token) (requests.filter fun request => request.presents token) state =
      ((serve store (some token) requests state).1.filter fun exchange => exchange.1.presents token,
        (serve store (some token) requests state).2) := by
  induction requests generalizing state with
  | nil => rfl
  | cons request rest ih =>
    by_cases presented : request.presents token
    · have hkept : ((request :: rest).filter fun request => request.presents token) =
          request :: rest.filter fun request => request.presents token :=
        List.filter_cons_of_pos (by simpa using presented)
      rw [hkept, serve_cons, serve_cons, ih]
      simp [presented]
    · have hdropped : ((request :: rest).filter fun request => request.presents token) =
          rest.filter fun request => request.presents token :=
        List.filter_cons_of_neg (by simpa using presented)
      rw [hdropped, serve_cons, handle_of_not_presents presented, ih]
      simp [presented]

/-- **View.**  What those see who do not have the token is made of their own requests alone. -/
theorem serve_outsiders (store : Store σ) (token : String) (requests : List Request) (state : σ) :
    ((serve store (some token) requests state).1.filter fun exchange =>
        ¬ exchange.1.presents token) =
      (requests.filter fun request => ¬ request.presents token).map fun request =>
        (request, request.turnedAway) := by
  induction requests generalizing state with
  | nil => rfl
  | cons request rest ih =>
    by_cases presented : request.presents token
    · rw [serve_cons]
      simpa [presented] using ih _
    · rw [serve_cons, handle_of_not_presents presented]
      simpa [presented] using ih state

end Reconciliation.Wire
