import Reconciliation.Proofs.Memory.Run
import Reconciliation.Proofs.Wire.Dispatch

namespace Reconciliation

/-!
# What a request leaves behind

What a service in front of a store in memory makes of the state that it finds:

* `Memory.Unwritten` — the objects and the number of writes are as they were;
* `Memory.Written` — one slot has been written, and no other;
* `Memory.unwritten_of_silent`, `Memory.written_of_write` — which of the two a call does;
* `Wire.Files` — the object in the body of a request has been written where its path says;
* `Wire.effect_of_handle` — whatever does not succeed, or only reads, writes nothing, and what creates or
  updates writes the slot of the sent object only.
-/

namespace Memory

/-! ### What a call leaves behind -/

/-- The objects and the number of writes are as they were. -/
structure Unwritten (m m' : Memory) : Prop where
  objects : m'.objects = m.objects
  version : m'.version = m.version

/-- One write has put an object into a slot, and no other slot has changed. -/
structure Written (m m' : Memory) (slot : Slot) (stored : Object) : Prop where
  version : m'.version = m.version + 1
  written : m'.objects.find? slot = some stored
  others : ∀ other, other ≠ slot → m'.objects.find? other = m.objects.find? other

variable {m : Memory} {stamp : Stamp}

/-- A call that reads or fails writes nothing. -/
theorem unwritten_of_silent {call : Store.Call}
    (silent : call.reads = true ∨ ∃ failure, ((store stamp).perform call m).1 = .error failure) :
    Unwritten m ((store stamp).perform call m).2 := by
  have c : Change m (.call stamp call) ((store stamp).perform call m).1
      ((store stamp).perform call m).2 := step_change (.call stamp call) m
  generalize ((store stamp).perform call m).1 = answer,
    ((store stamp).perform call m).2 = m' at c silent
  cases c with
  | keep _ objects version => exact ⟨objects, version⟩
  | write puts _ _ _ =>
    rcases silent with reads | ⟨_, failed⟩
    · cases puts <;> cases reads
    · cases failed
  | remove _ _ _ _ =>
    rcases silent with reads | ⟨_, failed⟩
    · cases reads
    · cases failed

/-- A create or an update that succeeds writes the slot of the given object, and brings what it has
    written. -/
theorem written_of_write {call : Store.Call} {object : Object}
    (writes : call = .create object ∨ call = .update object) {brought : Option Payload}
    (succeeded : ((store stamp).perform call m).1 = .ok brought) :
    ∃ gvk stored, object.gvk = .ok gvk ∧ brought = some (.object stored) ∧
      Written m ((store stamp).perform call m).2 (slotOf gvk object) stored := by
  have c : Change m (.call stamp call) ((store stamp).perform call m).1
      ((store stamp).perform call m).2 := step_change (.call stamp call) m
  rw [succeeded] at c
  generalize ((store stamp).perform call m).2 = m' at c
  cases c with
  | keep idle _ _ =>
    obtain ⟨_, failed⟩ := idle (by rcases writes with rfl | rfl <;> rfl)
    cases failed
  | @write _ _ base gvk _ puts typed objects version =>
    have hbase : base.gvk = object.gvk ∧ slotOf gvk base = slotOf gvk object := by
      rcases writes with rfl | rfl
      · cases puts
        exact ⟨rfl, rfl⟩
      · cases puts
        exact ⟨rfl, rfl⟩
    rw [hbase.1] at typed
    rw [hbase.2] at objects
    refine ⟨gvk, _, typed, rfl, version, ?_, fun other hother => ?_⟩
    · rw [objects, Table.find?_insert, if_pos rfl, hbase.2]
    · rw [objects, Table.find?_insert, if_neg hother]
  | remove _ _ _ _ => rcases writes with h | h <;> cases h

end Memory

namespace Wire

/-! ### What a request asks to be written -/

section

variable {token : Option String} {request : Request} {object : Object} {m : Memory} {stamp : Stamp}

theorem object_of_created {route : Route} (h : request.created route = .ok object) :
    request.object = .ok object := by
  obtain ⟨sent, hsent, hrest⟩ := bind_eq_ok.mp h
  obtain ⟨_, _, hsame⟩ := bind_eq_ok.mp hrest
  cases hsame
  exact hsent

theorem object_of_updated {route : Route} {name : String}
    (h : request.updated route name = .ok object) : request.object = .ok object := by
  obtain ⟨sent, hsent, hrest⟩ := bind_eq_ok.mp h
  obtain ⟨_, _, hrest⟩ := bind_eq_ok.mp hrest
  obtain ⟨_, _, hsame⟩ := bind_eq_ok.mp hrest
  cases hsame
  exact hsent

theorem object_of_callAt {route : Route} {query : List (String × String)} {call : Store.Call}
    (asks : request.callAt route query = .ok call)
    (writes : call = .create object ∨ call = .update object) : request.object = .ok object := by
  unfold Request.callAt at asks
  split at asks
  case h_3 =>
    obtain ⟨created, hcreated, rfl⟩ := map_eq_ok.mp asks
    rcases writes with h | h <;> cases h
    exact object_of_created hcreated
  case h_4 =>
    obtain ⟨updated, hupdated, rfl⟩ := map_eq_ok.mp asks
    rcases writes with h | h <;> cases h
    exact object_of_updated hupdated
  -- Every other method asks for a call of another kind, or is refused.
  case h_1 => rcases writes with rfl | rfl <;> cases asks
  case h_2 => rcases writes with rfl | rfl <;> obtain ⟨_, _, h⟩ := map_eq_ok.mp asks <;> cases h
  case h_5 => rcases writes with rfl | rfl <;> obtain ⟨_, _, h⟩ := map_eq_ok.mp asks <;> cases h
  case h_6 => cases asks

/-- The object that a request asks to be written is the one in its body. -/
theorem object_of_asks {call : Store.Call} (asks : request.asks token = .ok call)
    (writes : call = .create object ∨ call = .update object) : request.object = .ok object := by
  unfold Request.asks at asks
  split at asks
  · cases asks
  · split at asks
    · cases asks
    · obtain ⟨_, _, hcall⟩ := bind_eq_ok.mp asks
      exact object_of_callAt hcall writes

/-- An object that fits a route is filed under the group and the kind of the route. -/
theorem Route.Fits.slotOf {route : Route} (fits : route.Fits object) {gvk : GroupVersionKind}
    (typed : object.gvk = .ok gvk) :
    Memory.slotOf gvk object = ⟨route.group, route.kind, object.key⟩ := by
  obtain ⟨declared, hdeclared, hgroup, hkind⟩ := fits.typed
  obtain rfl : gvk = declared := Except.ok.inj (typed.symm.trans hdeclared)
  rw [Memory.slotOf, hgroup, hkind]

/-- The object in the body of a request has been written into the slot of the path's group and kind and
    its own key, which an update also finds under the name in the path, and the response brings it. -/
structure Files (request : Request) (response : Response) (m m' : Memory) (route : Route)
    (sent stored : Object) : Prop where
  addressed : Route.parse (splitQuery request.address).1 = some route
  decoded : request.object = .ok sent
  written : Memory.Written m m' ⟨route.group, route.kind, sent.key⟩ stored
  brought : response.body = Text.bytes stored.toText
  named : request.method = "PUT" → ∃ name, route.name = some name ∧ sent.key = route.key name

/-- Where a request that creates or updates succeeds, it has filed the object in its body. -/
theorem files_of_write {call : Store.Call} {brought : Option Payload} {route : Route}
    (addressed : Route.parse (splitQuery request.address).1 = some route)
    (asks : request.asks token = .ok call) (may : request.MayAsk route call)
    (writing : request.method = "POST" ∨ request.method = "PUT")
    (succeeded : ((Memory.store stamp).perform call m).1 = .ok brought) :
    ∃ sent stored, Files request (.ofAnswer call (.ok brought)) m
      ((Memory.store stamp).perform call m).2 route sent stored := by
  cases may with
  | get method _ => rcases writing with h | h <;> exact absurd (method.symm.trans h) (by decide)
  | list _ method _ => rcases writing with h | h <;> exact absurd (method.symm.trans h) (by decide)
  | delete _ method _ => rcases writing with h | h <;> exact absurd (method.symm.trans h) (by decide)
  | @create sent method unnamed fits =>
    obtain ⟨gvk, stored, typed, rfl, written⟩ := Memory.written_of_write (.inl rfl) succeeded
    rw [fits.slotOf typed] at written
    refine ⟨sent, stored, addressed, object_of_asks asks (.inl rfl), written, rfl, fun put => ?_⟩
    exact absurd (method.symm.trans put) (by decide)
  | @update sent method named fits =>
    obtain ⟨gvk, stored, typed, rfl, written⟩ := Memory.written_of_write (.inr rfl) succeeded
    rw [fits.slotOf typed] at written
    refine ⟨sent, stored, addressed, object_of_asks asks (.inr rfl), written, rfl, fun _ => ?_⟩
    have hkey : sent.key = ⟨sent.metadata.scope, sent.metadata.name⟩ := rfl
    exact ⟨sent.metadata.name.text, named, by rw [hkey, fits.placed]; rfl⟩

/-- A request by `GET` asks for a read, if for anything. -/
theorem reads_of_asks {call : Store.Call} (asks : request.asks token = .ok call)
    (method : request.method = "GET") : call.reads = true := by
  obtain ⟨route, _, may⟩ := mayAsk_of_asks asks
  cases may with
  | get _ _ => rfl
  | list _ _ _ => rfl
  | create other _ _ => exact absurd (method.symm.trans other) (by decide)
  | update other _ _ => exact absurd (method.symm.trans other) (by decide)
  | delete _ other _ => exact absurd (method.symm.trans other) (by decide)

/-- **Effect.**  Whatever request a service in front of a store in memory gets, in whatever state: if
    the response reports no success, or the method is `GET`, then the objects and the number of writes
    are as they were.  If a `POST` or a `PUT` succeeds, then the object in its body has been written into
    the slot of the path's group and kind and its own key, which for a `PUT` is the one that the path
    names, and every other slot holds what it held. -/
theorem effect_of_handle (m : Memory) (stamp : Stamp) (token : Option String) (request : Request)
    {response : Response} {m' : Memory}
    (handled : handle (Memory.store stamp) token request m = (response, m')) :
    (¬ response.Succeeds ∨ request.method = "GET" → Memory.Unwritten m m') ∧
    (response.Succeeds → request.method = "POST" ∨ request.method = "PUT" →
      ∃ route sent stored, Files request response m m' route sent stored) := by
  rw [handle_eq] at handled
  cases hasks : request.asks token with
  | error refusal =>
    rw [hasks] at handled
    cases handled
    refine ⟨fun _ => ⟨rfl, rfl⟩, fun succeeds writing => ?_⟩
    have health : ¬ request.checksHealth := by
      rintro ⟨_, method⟩
      rcases writing with h | h <;> exact absurd (method.symm.trans h) (by decide)
    have hhigh := refusing_asks token health _ hasks
    have hlow := succeeds.2
    omega
  | ok call =>
    rw [hasks] at handled
    cases handled
    refine ⟨fun silent => Memory.unwritten_of_silent ?_, fun succeeds writing => ?_⟩
    · rcases silent with fails | method
      · right
        cases hanswer : ((Memory.store stamp).perform call m).1 with
        | error failure => exact ⟨failure, rfl⟩
        | ok brought => exact absurd (succeeds_ofAnswer_iff.mpr ⟨brought, hanswer⟩) fails
      · exact .inl (reads_of_asks hasks method)
    · obtain ⟨brought, hbrought⟩ := succeeds_ofAnswer_iff.mp succeeds
      obtain ⟨route, addressed, may⟩ := mayAsk_of_asks hasks
      obtain ⟨sent, stored, files⟩ := files_of_write addressed hasks may writing hbrought
      rw [← hbrought] at files
      exact ⟨route, sent, stored, files⟩

end

namespace Overwriting

open Specimen

/-- The store with two objects. -/
def holding : Memory :=
  Memory.empty.after [.insert .verbatim sample, .insert .verbatim (secret (key "b"))]

/-- The object as a client sends it that has read a version of it. -/
def sent (version : String) : Object :=
  { sample with metadata := { sample.metadata with version := some ⟨version⟩ } }

/-- An update of the first object, on the ground of a version. -/
def update (version : String) : Request :=
  ⟨"PUT", "/resources/core/v1/Secret/ns/a", [], Text.bytes (sent version).toText⟩

set_option maxRecDepth 20000 in
/-- On the ground of a version that is not the stored one nothing is written, and on the ground of the
    stored one the first object is, and not the second. -/
theorem update_effects :
    (handle (Memory.store .verbatim) none (update "2") holding).1.status = 409 ∧
    Memory.Unwritten holding (handle (Memory.store .verbatim) none (update "2") holding).2 ∧
    (handle (Memory.store .verbatim) none (update "1") holding).1.Succeeds ∧
    ∃ route sent stored, Files (update "1") (handle (Memory.store .verbatim) none (update "1") holding).1
      holding (handle (Memory.store .verbatim) none (update "1") holding).2 route sent stored := by
  have hstale : (handle (Memory.store .verbatim) none (update "2") holding).1.status = 409 := by
    decide +kernel
  have hrefused : ¬ (handle (Memory.store .verbatim) none (update "2") holding).1.Succeeds := by
    unfold Response.Succeeds
    rw [hstale]
    decide
  have hfresh : (handle (Memory.store .verbatim) none (update "1") holding).1.status = 200 := by
    decide +kernel
  have hsucceeds : (handle (Memory.store .verbatim) none (update "1") holding).1.Succeeds := by
    unfold Response.Succeeds
    rw [hfresh]
    decide
  have hunwritten := (effect_of_handle holding .verbatim none (update "2") (Prod.eta _).symm).1
  have hwritten := (effect_of_handle holding .verbatim none (update "1") (Prod.eta _).symm).2
  exact ⟨hstale, hunwritten (.inl hrefused), hsucceeds, hwritten hsucceeds (.inr rfl)⟩

end Overwriting

end Wire

end Reconciliation
