import Reconciliation.Proofs.Memory.Listing
import Reconciliation.Proofs.Wire.Dispatch

namespace Reconciliation

/-!
# The namespace of a path

The segment of a path that stands for a namespace, and what requests at the path reach:

* `Memory.touched` — the objects that a call brings, writes, or removes itself;
* `Wire.Confined` — that these stay where a segment says;
* `Wire.scope_of_touched` — one object at a time, a request reaches objects of the namespace that is
  named, and those without one if the segment names none;
* `Wire.mem_touched_list_iff` — a list reaches the objects of the namespace that is named, and those
  of all namespaces if the segment names none;
* `Wire.confined_iff_of_succeeds` — when a request stays where its path says.

The segments for no namespace and for all namespaces are one as soon as the store is called, so that a
list cannot ask for the objects without a namespace, and a single object without a namespace is also
found under all namespaces.
-/

namespace Memory

/-! ### What a call reaches -/

/-- The objects that a call brings, writes, or removes itself, by its answer. -/
def touched (m : Memory) (call : Store.Call) : Store.Answer → List Object
  | .ok (some (.object object)) => [object]
  | .ok (some (.list items)) => items
  | .ok none =>
    match call with
    | .delete type key _ => (m.objects.find? (slotAt type key)).toList
    | _ => []
  | .error _ => []

/-- Whether an object of a type is held that carries some labels. -/
def Holds (m : Memory) (type : ResourceType) (labels : Table String String) (object : Object) :
    Prop :=
  (∃ slot, m.objects.find? slot = some object ∧ slot.group = type.group ∧ slot.kind = type.kind) ∧
    (Filter.mk none labels).admits object = true

variable {m : Memory} {stamp : Stamp}

/-- What a read finds is held in the slot that it asks for. -/
theorem held_of_get {type : ResourceType} {key : Key} {brought : Option Payload}
    (h : ((store stamp).perform (.get type key) m).1 = .ok brought) :
    ∃ object, brought = some (.object object) ∧
      m.objects.find? (slotAt type key) = some object := by
  obtain ⟨object, hget, rfl⟩ := map_eq_ok.mp h
  refine ⟨object, rfl, ?_⟩
  have hget : (get type key m).1 = .ok object := hget
  unfold get at hget
  rcases call_cases .get _ m with ⟨error, rest, _, hcall⟩ | ⟨_, hcall⟩
  · rw [hcall] at hget
    cases hget
  · rw [hcall] at hget
    dsimp only at hget
    split at hget
    · split at hget
      · rename_i hfind
        cases hget
        exact hfind
      · cases hget
    · cases hget

/-- What a list brings is held, and passes the filter. -/
theorem held_of_list {type : ResourceType} {filter : Filter} {brought : Option Payload}
    (h : ((store stamp).perform (.list type filter) m).1 = .ok brought) :
    ∃ items, brought = some (.list items) ∧ ∀ object, object ∈ items ↔
      (∃ slot, m.objects.find? slot = some object ∧ slot.group = type.group ∧
        slot.kind = type.kind) ∧ filter.admits object = true := by
  obtain ⟨items, hlist, rfl⟩ := map_eq_ok.mp h
  refine ⟨items, rfl, fun object => ?_⟩
  have hlist : (list type filter m).1 = .ok items := hlist
  unfold list at hlist
  rcases call_cases .list _ m with ⟨error, rest, _, hcall⟩ | ⟨_, hcall⟩
  · rw [hcall] at hlist
    cases hlist
  · rw [hcall] at hlist
    dsimp only at hlist
    split at hlist
    · cases hlist
      exact mem_listed
    · cases hlist

/-- What a write brings has the namespace of the object that it is given. -/
theorem scope_of_write {call : Store.Call} {object : Object}
    (writes : call = .create object ∨ call = .update object) {brought : Option Payload}
    (h : ((store stamp).perform call m).1 = .ok brought) :
    ∃ stored, brought = some (.object stored) ∧
      stored.metadata.scope = object.metadata.scope := by
  have c := step_change (.call stamp call) m
  have hstep : (step (.call stamp call) m).1 = .ok brought := h
  rw [hstep] at c
  generalize (step (.call stamp call) m).2 = m' at c
  have hchanges : (Event.call stamp call).changes = true := by
    rcases writes with rfl | rfl <;> rfl
  cases c with
  | keep idle _ _ =>
    obtain ⟨error, herror⟩ := idle hchanges
    cases herror
  | write puts _ _ _ =>
    refine ⟨_, rfl, ?_⟩
    rcases writes with rfl | rfl
    · cases puts
      rfl
    · cases puts
      rfl
  | remove _ _ _ _ => rcases writes with h | h <;> cases h

/-- What a delete removes is held in the slot that it asks for. -/
theorem held_of_delete {type : ResourceType} {key : Key} {options : DeleteOptions}
    {brought : Option Payload}
    (h : ((store stamp).perform (.delete type key options) m).1 = .ok brought) :
    brought = none ∧ ∃ removed, m.objects.find? (slotAt type key) = some removed := by
  have c := step_change (.call stamp (.delete type key options)) m
  have hstep : (step (.call stamp (.delete type key options)) m).1 = .ok brought := h
  rw [hstep] at c
  generalize (step (.call stamp (.delete type key options)) m).2 = m' at c
  cases c with
  | keep idle _ _ =>
    obtain ⟨error, herror⟩ := idle rfl
    cases herror
  | write puts _ _ _ => cases puts
  | remove held _ _ _ => exact ⟨rfl, _, held⟩

/-- An object that is held in a slot has the namespace of the slot. -/
theorem Reachable.scope_of_held (reachable : m.Reachable) {type : ResourceType} {key : Key}
    {object : Object} (held : m.objects.find? (slotAt type key) = some object) :
    object.metadata.scope = key.scope := by
  have hkey : key = object.key := reachable.key_of_held held
  rw [hkey]
  rfl

end Memory

namespace Wire

/-! ### Where a call stays -/

/-- The objects that a call reaches are where the segment of the path says: in the namespace that it
    names, or in none; and only a list goes over all namespaces. -/
structure Confined (segment : String) (call : Store.Call) (objects : List Object) : Prop where
  named : segment ≠ noNamespace → segment ≠ allNamespaces →
    ∀ object ∈ objects, object.metadata.scope = some ⟨segment⟩
  unnamed : segment = noNamespace → ∀ object ∈ objects, object.metadata.scope = none
  listed : segment = allNamespaces → call.kind = .list

section

variable {m : Memory} {stamp : Stamp} {request : Request} {route : Route} {call : Store.Call}
  {brought : Option Payload}

/-- A call about a single object reaches only objects of the namespace that is addressed, where both
    special segments stand for no namespace. -/
theorem scope_of_touched (reachable : m.Reachable) (may : request.MayAsk route call)
    (single : call.kind ≠ .list)
    (succeeded : ((Memory.store stamp).perform call m).1 = .ok brought) :
    ∀ object ∈ m.touched call (.ok brought), object.metadata.scope = route.scope := by
  intro object hobject
  cases may with
  | get _ _ =>
    obtain ⟨found, rfl, hheld⟩ := Memory.held_of_get succeeded
    obtain rfl := List.mem_singleton.mp hobject
    exact reachable.scope_of_held hheld
  | list labels _ _ => exact absurd rfl single
  | create _ _ fits =>
    obtain ⟨stored, rfl, hscope⟩ := Memory.scope_of_write (.inl rfl) succeeded
    obtain rfl := List.mem_singleton.mp hobject
    exact hscope.trans fits.placed
  | update _ _ fits =>
    obtain ⟨stored, rfl, hscope⟩ := Memory.scope_of_write (.inr rfl) succeeded
    obtain rfl := List.mem_singleton.mp hobject
    exact hscope.trans fits.placed
  | delete options _ _ =>
    obtain ⟨rfl, removed, hheld⟩ := Memory.held_of_delete succeeded
    have hmem : object ∈ (m.objects.find? (Memory.slotAt route.type (route.key _))).toList := hobject
    rw [hheld] at hmem
    obtain rfl := List.mem_singleton.mp hmem
    exact reachable.scope_of_held hheld

/-- A list reaches the objects that are held of the type and carry the labels, those of the namespace
    that is addressed if there is one, and else all. -/
theorem mem_touched_list_iff {type : ResourceType} {scope : Option Namespace}
    {labels : Table String String}
    (succeeded : ((Memory.store stamp).perform (.list type ⟨scope, labels⟩) m).1 = .ok brought)
    (object : Object) :
    object ∈ m.touched (.list type ⟨scope, labels⟩) (.ok brought) ↔
      m.Holds type labels object ∧ ∀ space, scope = some space → object.metadata.scope = some space := by
  obtain ⟨items, rfl, hitems⟩ := Memory.held_of_list succeeded
  have htouched : object ∈ m.touched (.list type ⟨scope, labels⟩) (.ok (some (.list items))) ↔
      object ∈ items := Iff.rfl
  rw [htouched, hitems]
  unfold Memory.Holds Filter.admits
  cases scope with
  | none => simp
  | some space =>
    simp
    exact ⟨fun ⟨hheld, hscope, hlabels⟩ => ⟨⟨hheld, hlabels⟩, hscope⟩,
      fun ⟨⟨hheld, hlabels⟩, hscope⟩ => ⟨hheld, hscope, hlabels⟩⟩

/-- A request asks about a single object, or for a list at the route. -/
theorem single_or_list (may : request.MayAsk route call) :
    call.kind ≠ .list ∨ ∃ labels, call = .list route.type ⟨route.scope, labels⟩ := by
  cases may with
  | list labels _ _ => exact .inr ⟨labels, rfl⟩
  | _ => exact .inl (by simp [Store.Call.kind])

/-- **The scope of a request.**  Let a service in front of a store in memory report a success for a path
    that addresses something.  Then it has made one call.  About a single object, the call reaches only
    objects of the addressed namespace, where both special segments address the objects without one.
    A list brings what is held of the type with the labels, of the addressed namespace or, at both
    special segments, of all.  So the request stays where its path says unless it lists the objects
    without a namespace while others are held, or asks for a single object of all namespaces. -/
theorem confined_iff_of_succeeds {token : Option String} (reachable : m.Reachable)
    (addressed : Route.parse (splitQuery request.address).1 = some route)
    (succeeds : (handle (Memory.store stamp) token request m).1.Succeeds) :
    ∃ call brought, request.asks token = .ok call ∧ request.MayAsk route call ∧
      (Memory.store stamp).perform call m =
        (.ok brought, (handle (Memory.store stamp) token request m).2) ∧
      (handle (Memory.store stamp) token request m).1 = .ofAnswer call (.ok brought) ∧
      (call.kind ≠ .list →
        ∀ object ∈ m.touched call (.ok brought), object.metadata.scope = route.scope) ∧
      (∀ labels, call = .list route.type ⟨route.scope, labels⟩ → ∀ object,
        object ∈ m.touched call (.ok brought) ↔
          m.Holds route.type labels object ∧
            ∀ space, route.scope = some space → object.metadata.scope = some space) ∧
      (Confined route.segment call (m.touched call (.ok brought)) ↔
        (route.segment = noNamespace → ∀ labels, call = .list route.type ⟨route.scope, labels⟩ →
          ∀ object, m.Holds route.type labels object → object.metadata.scope = none) ∧
        (route.segment = allNamespaces → call.kind = .list)) := by
  obtain ⟨call, brought, hasks, may, hbrought, hhandle⟩ := call_of_succeeds addressed succeeds
  have hperform : (Memory.store stamp).perform call m =
      (.ok brought, (handle (Memory.store stamp) token request m).2) := by
    rw [hhandle, ← hbrought]
  have hsingle : call.kind ≠ .list →
      ∀ object ∈ m.touched call (.ok brought), object.metadata.scope = route.scope :=
    fun single => scope_of_touched reachable may single hbrought
  have hlist : ∀ labels, call = .list route.type ⟨route.scope, labels⟩ → ∀ object,
      object ∈ m.touched call (.ok brought) ↔
        m.Holds route.type labels object ∧
          ∀ space, route.scope = some space → object.metadata.scope = some space := by
    rintro labels rfl object
    exact mem_touched_list_iff hbrought object
  refine ⟨call, brought, hasks, may, hperform, by rw [hhandle], hsingle, hlist, ?_, ?_⟩
  · intro confined
    refine ⟨fun hsegment labels hcall object holds => ?_, confined.listed⟩
    have hscope : route.scope = none := if_pos (.inl hsegment)
    refine confined.unnamed hsegment object ((hlist labels hcall object).mpr ⟨holds, ?_⟩)
    rw [hscope]
    rintro space ⟨⟩
  · rintro ⟨hunnamed, hlisted⟩
    refine ⟨fun hne hne' => ?_, fun hsegment => ?_, hlisted⟩
    · have hscope : route.scope = some ⟨route.segment⟩ := if_neg (by simp [hne, hne'])
      intro object hobject
      rcases single_or_list may with single | ⟨labels, hcall⟩
      · rw [hsingle single object hobject, hscope]
      · exact ((hlist labels hcall object).mp hobject).2 _ hscope
    · have hscope : route.scope = none := if_pos (.inl hsegment)
      intro object hobject
      rcases single_or_list may with single | ⟨labels, hcall⟩
      · rw [hsingle single object hobject, hscope]
      · exact hunnamed hsegment labels hcall object ((hlist labels hcall object).mp hobject).1

end

namespace Alias

open Specimen

/-- An object of a namespace. -/
def inside : Object := sample

/-- An object of the same type without a namespace. -/
def outside : Object := secret (.cluster "b")

/-- Both objects are seeded. -/
def seeding : List Memory.Event := [.insert .verbatim inside, .insert .verbatim outside]

/-- A list of the objects without a namespace. -/
def listing : Request := ⟨"GET", "/resources/core/v1/Secret/_", [], []⟩

/-- The deletion of an object of all namespaces. -/
def deletion : Request := ⟨"DELETE", "/resources/core/v1/Secret/*/b", [], []⟩

/-- The call that the list asks for. -/
def listCall : Store.Call := .list ⟨"", "v1", "Secret", "secret", false⟩ ⟨none, .empty⟩

/-- The call that the deletion asks for. -/
def deleteCall : Store.Call :=
  .delete ⟨"", "v1", "Secret", "secret", true⟩ (.cluster "b") ⟨none, none⟩

/-- The object of the namespace as it is held. -/
def heldInside : Object := Memory.stamped .verbatim ⟨"", "Secret", key "a"⟩ 1 inside

/-- The object without a namespace as it is held. -/
def heldOutside : Object := Memory.stamped .verbatim ⟨"", "Secret", .cluster "b"⟩ 2 outside

set_option maxRecDepth 8000 in
/-- The list of the objects without a namespace brings one of a namespace, too, and the deletion of an
    object of all namespaces succeeds. -/
theorem reached_elsewhere :
    listing.asks none = .ok listCall ∧
    ((Memory.store .verbatim).perform listCall (Memory.empty.after seeding)).1 =
      .ok (some (.list [heldOutside, heldInside])) ∧
    (handle (Memory.store .verbatim) none listing (Memory.empty.after seeding)).1.Succeeds ∧
    ¬ Confined "_" listCall ((Memory.empty.after seeding).touched listCall
      (.ok (some (.list [heldOutside, heldInside])))) ∧
    deletion.asks none = .ok deleteCall ∧
    ((Memory.store .verbatim).perform deleteCall (Memory.empty.after seeding)).1 = .ok none ∧
    (handle (Memory.store .verbatim) none deletion (Memory.empty.after seeding)).1.Succeeds ∧
    (Memory.empty.after seeding).touched deleteCall (.ok none) = [heldOutside] ∧
    ¬ Confined "*" deleteCall ((Memory.empty.after seeding).touched deleteCall (.ok none)) := by
  refine ⟨eq_ok_of_toOption (by decide +kernel), rfl, by decide +kernel, fun confined => ?_,
    eq_ok_of_toOption (by decide +kernel), rfl, by decide +kernel, rfl, fun confined => ?_⟩
  · have hscope : heldInside.metadata.scope = none :=
      confined.unnamed rfl heldInside (.tail _ (.head _))
    cases hscope
  · have hlist : deleteCall.kind = .list := confined.listed rfl
    cases hlist

set_option maxRecDepth 8000 in
/-- The list does not stay where its path says, because an object of a namespace is held. -/
theorem listing_not_confined :
    (Memory.empty.after seeding).Reachable ∧
    Route.parse (splitQuery listing.address).1 = some ⟨"", "v1", "Secret", "_", none⟩ ∧
    (handle (Memory.store .verbatim) none listing (Memory.empty.after seeding)).1.Succeeds ∧
    ∃ call brought, listing.asks none = .ok call ∧
      (Memory.store .verbatim).perform call (Memory.empty.after seeding) =
        (.ok brought, (handle (Memory.store .verbatim) none listing (Memory.empty.after seeding)).2) ∧
      ¬ Confined "_" call ((Memory.empty.after seeding).touched call (.ok brought)) := by
  have hreachable : (Memory.empty.after seeding).Reachable := ⟨seeding, rfl⟩
  have haddressed : Route.parse (splitQuery listing.address).1 =
      some ⟨"", "v1", "Secret", "_", none⟩ := by
    decide +kernel
  have hsucceeds :
      (handle (Memory.store .verbatim) none listing (Memory.empty.after seeding)).1.Succeeds := by
    decide +kernel
  obtain ⟨call, brought, hasks, _, hperform, _, _, _, hiff⟩ :=
    confined_iff_of_succeeds hreachable haddressed hsucceeds
  refine ⟨hreachable, haddressed, hsucceeds, call, brought, hasks, hperform, fun confined => ?_⟩
  have hcall : listing.asks none = .ok listCall := eq_ok_of_toOption (by decide +kernel)
  have hcall : call = listCall := Except.ok.inj (hasks.symm.trans hcall)
  have hheld : (Memory.empty.after seeding).Holds ⟨"", "v1", "Secret", "secret", false⟩ .empty
      heldInside :=
    ⟨⟨⟨"", "Secret", key "a"⟩, by decide, rfl, rfl⟩, by decide⟩
  have hscope : heldInside.metadata.scope = none :=
    (hiff.mp confined).1 rfl .empty hcall heldInside hheld
  cases hscope

end Alias

end Wire

end Reconciliation
