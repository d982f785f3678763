import Reconciliation.Proofs.Json.Reread
import Reconciliation.Proofs.Object.Codec
import Reconciliation.Proofs.Wire.Fetch
import Reconciliation.Proofs.Wire.Scope

namespace Reconciliation

/-!
# Nested objects over HTTP

A text holds at most `Json.depthLimit` arrays and objects within each other.  An object that is as deep is
accepted and read alone, while a list holds its objects one level further in:

* `Memory.Holding` — the bodies of all objects that are held fit into some room;
* `Wire.Served` — the states in which requests leave a store that held nothing;
* `Wire.Served.holding` — all that such a state holds has been read from the body of a request;
* `Wire.unreadable_object_iff`, `Wire.unreadable_list_iff` — which payloads cannot be read as a single
  object, and which not as a list;
* `Wire.unreadable_iff_of_served` — when a client cannot read a single object, and when not a list.
-/

/-- The objects that a call brings. -/
def Payload.objects : Payload → List Object
  | .object single => [single]
  | .list items => items

/-! ### What a service accepts -/

/-- Whatever is read from a text has a body that fits into an object of the text. -/
theorem Object.holds_of_ofBytes {bytes : List UInt8} {object : Object}
    (h : Json.ofBytes Object.decoder bytes = .ok object) :
    object.Holds (some (Json.depthLimit - 1)) := by
  unfold Json.ofBytes at h
  dsimp only at h
  split at h
  · cases h
  · rename_i value hdecoded
    split at h
    · cases h
    · cases h
      exact Object.holds_of_decoder rfl hdecoded

namespace Memory

/-- The bodies of all objects that are held fit into some room. -/
def Holding (room : Json.Room) (m : Memory) : Prop :=
  ∀ slot object, m.objects.find? slot = some object → object.Holds room

variable {room : Json.Room} {m : Memory}

/-- No call writes a body that it is not given. -/
theorem Holding.perform (holding : m.Holding room) (stamp : Stamp) {call : Store.Call}
    (given : ∀ object, call = .create object ∨ call = .update object → object.Holds room) :
    ((store stamp).perform call m).2.Holding room := by
  have c : Change m (.call stamp call) ((store stamp).perform call m).1
      ((store stamp).perform call m).2 := step_change (.call stamp call) m
  generalize ((store stamp).perform call m).1 = answer,
    ((store stamp).perform call m).2 = m' at c
  intro slot object held
  cases c with
  | keep _ objects _ =>
    rw [objects] at held
    exact holding slot object held
  | write puts _ objects _ =>
    rw [objects, Table.find?_insert] at held
    split at held
    · cases held
      -- Stamps and what is taken over from before are metadata.
      cases puts with
      | create =>
        have hgiven := given _ (.inl rfl)
        exact hgiven
      | update =>
        have hgiven := given _ (.inr rfl)
        exact hgiven
    · exact holding slot object held
  | remove _ _ objects _ =>
    rw [objects] at held
    obtain ⟨_, before, hbefore, rfl⟩ := find?_remove held
    exact holding slot before hbefore

/-- All that a read brings is held. -/
theorem Holding.brought (holding : m.Holding room) {stamp : Stamp} {call : Store.Call}
    (reads : call.reads = true) {payload : Payload}
    (h : ((store stamp).perform call m).1 = .ok (some payload)) :
    ∀ object ∈ payload.objects, object.Holds room := by
  cases call with
  | get type key =>
    obtain ⟨object, hpayload, held⟩ := held_of_get h
    cases hpayload
    intro other hother
    obtain rfl : other = object := by simpa [Payload.objects] using hother
    exact holding _ other held
  | list type filter =>
    obtain ⟨items, hpayload, hitems⟩ := held_of_list h
    cases hpayload
    intro object hobject
    obtain ⟨⟨slot, held, _⟩, _⟩ := (hitems object).mp hobject
    exact holding slot object held
  | create | update | delete => cases reads

end Memory

namespace Wire

/-- The states in which requests leave a store that held nothing. -/
inductive Served : Memory → Prop
  | start {m : Memory} (vacant : m.objects = .empty) : Served m
  | request {m : Memory} (served : Served m) (stamp : Stamp) (token : Option String)
      (request : Request) : Served (handle (Memory.store stamp) token request m).2

/-- All that is held has been read from the body of a request. -/
theorem Served.holding {m : Memory} (served : Served m) :
    m.Holding (some (Json.depthLimit - 1)) := by
  induction served with
  | start vacant =>
    intro slot object held
    rw [vacant] at held
    cases held
  | request _ stamp token request ih =>
    rw [handle_eq]
    cases hasks : request.asks token with
    | error refusal => exact ih
    | ok call =>
      refine ih.perform stamp fun object writes => ?_
      have hobject : request.object = .ok object := object_of_asks hasks writes
      exact Object.holds_of_ofBytes (mapError_eq_ok.mp hobject)

/-- All that a call fetches that reads has been read from the body of a request. -/
theorem Served.holds_of_fetched {m : Memory} (served : Served m) {origin : Origin}
    {config : StoreConfig} {token : Option String} {stamp : Stamp} {call : Store.Call}
    (reads : call.reads = true) {payload : Payload}
    (h : fetched? origin config token stamp call m = some payload) :
    ∀ object ∈ payload.objects, object.Holds (some (Json.depthLimit - 1)) := by
  obtain ⟨call, reads, hanswer⟩ := call_of_fetched reads h
  exact served.holding.brought reads hanswer

/-! ### What a client can read -/

theorem readAs_of_rereads {value : Json} (rereads : value.Rereads) {α : Type}
    (decode : Json.Decoder α) : readAs decode (Text.bytes value.compact) =
      (decode (some Json.depthLimit) (.ofJson value)).mapError fun category =>
        .serialization (.met category) := by
  rw [readAs, rereads.ofBytes_eq]
  cases decode (some Json.depthLimit) (.ofJson value) <;> rfl

/-- What cannot be decoded cannot be read. -/
theorem unreadable_of_isNone {α : Type} {decode : Json.Decoder α} {body : List UInt8}
    (h : (Json.ofBytes decode body).toOption.isNone = true) : Unreadable (readAs decode body) := by
  rw [readAs]
  cases hread : Json.ofBytes decode body with
  | error problem => exact ⟨problem, rfl⟩
  | ok value =>
    rw [hread] at h
    cases h

set_option maxRecDepth 4000 in
/-- The answer to a health check is neither an object nor a list. -/
theorem unreadable_healthy : Unreadable (readAs Object.decoder Response.healthy.body) ∧
    Unreadable (readAs (Json.list Object.decoder) Response.healthy.body) :=
  ⟨unreadable_of_isNone (by decide +kernel), unreadable_of_isNone (by decide +kernel)⟩

/-- An object that is held is read back alone. -/
theorem reads_of_holds {object : Object} (holds : object.Holds (some (Json.depthLimit - 1)))
    (rereads : (Json.object object.toFields).Rereads) : Reads object := by
  rw [Reads, Object.toText, rereads.ofBytes_eq, Object.decoder_toFields holds.proper rfl,
    holds.fits rfl rfl]
  rfl

section Payloads

variable {payload : Payload}

/-- A single object that is held can be read as such, and a list cannot. -/
theorem unreadable_object_iff
    (holds : ∀ object ∈ payload.objects, object.Holds (some (Json.depthLimit - 1)))
    (rereads : payload.toJson.Rereads) :
    Unreadable (readAs Object.decoder (Text.bytes payload.toJson.compact)) ↔
      ∃ items, payload = .list items := by
  cases payload with
  | object object =>
    have hread : readAs Object.decoder (Text.bytes (Payload.object object).toJson.compact) =
        .ok object :=
      readAs_of_ofBytes (reads_of_holds (holds object List.mem_cons_self) rereads)
    rw [hread]
    constructor
    · exact fun h => absurd h (not_unreadable_ok object)
    · rintro ⟨_, h⟩
      cases h
  | list items =>
    rw [readAs_of_rereads rereads]
    exact ⟨fun _ => ⟨items, rfl⟩, fun _ => ⟨_, rfl⟩⟩

/-- A list of objects that are held can be read as such unless one of them takes all the room that a
    text has, and a single object cannot. -/
theorem unreadable_list_iff
    (holds : ∀ object ∈ payload.objects, object.Holds (some (Json.depthLimit - 1)))
    (rereads : payload.toJson.Rereads) :
    Unreadable (readAs (Json.list Object.decoder) (Text.bytes payload.toJson.compact)) ↔
      (∃ object, payload = .object object) ∨
        ∃ items, payload = .list items ∧ ∃ object ∈ items, object.depth = Json.depthLimit := by
  rw [readAs_of_rereads rereads]
  cases payload with
  | object object => exact ⟨fun _ => .inl ⟨object, rfl⟩, fun _ => ⟨_, rfl⟩⟩
  | list items =>
    let inside : Json.Room := some (Json.depthLimit - 1)
    have hread : Json.list Object.decoder (some Json.depthLimit)
        (.ofJson (Payload.list items).toJson) =
          if items.all (fun object => inside.fits object.depth) then .ok items
          else .error .malformed :=
      Json.list_ofJson _ rfl fun object hobject =>
        Object.decoder_toFields (holds object hobject).proper rfl
    -- No object is deeper than a text may be, so that one that does not fit inside is as deep.
    have hfull : ∀ object ∈ items, inside.fits object.depth = false ↔
        object.depth = Json.depthLimit := by
      intro object hobject
      have hfits : Json.Room.fits (some Json.depthLimit) object.depth = true :=
        (holds object hobject).fits rfl rfl
      have hle : object.depth ≤ Json.depthLimit := by simpa [Json.Room.fits] using hfits
      simp only [inside, Json.Room.fits, Option.all_some, decide_eq_false_iff_not]
      have hlimit : Json.depthLimit = 127 := rfl
      omega
    rw [hread]
    cases hall : items.all fun object => inside.fits object.depth with
    | true =>
      constructor
      · exact fun h => absurd h (not_unreadable_ok items)
      · rintro (⟨_, h⟩ | ⟨_, h, object, hobject, hdepth⟩)
        · cases h
        · cases h
          have hfits := List.all_eq_true.mp hall object hobject
          rw [(hfull object hobject).mpr hdepth] at hfits
          cases hfits
    | false =>
      obtain ⟨object, hobject, hfits⟩ := List.all_eq_false.mp hall
      have hdepth := (hfull object hobject).mp (by simpa using hfits)
      exact ⟨fun _ => .inr ⟨items, rfl, object, hobject, hdepth⟩, fun _ => ⟨_, rfl⟩⟩

end Payloads

/-! ### Reading from a service -/

section

variable {m : Memory} (served : Served m) {origin : Origin} {config : StoreConfig}
  {token : Option String} {stamp : Stamp} {type : ResourceType}

include served

/-- A client cannot read a single object exactly if its request arrives at the health check or at a list. -/
theorem Served.unreadable_get_iff {key : Key}
    (rereads : ∀ payload, fetched? origin config token stamp (.get type key) m = some payload →
      payload.toJson.Rereads) :
    Unreadable ((connected origin config token stamp).get type key m).1 ↔
      ReachesHealth origin config (.get type key) ∨
        ∃ items, fetched? origin config token stamp (.get type key) m = some (.list items) := by
  have sent : outgoing? config (.get type key) =
      some (requestFor config "GET" (objectPath type.group type.version type.kind key) [] none) := rfl
  refine (unreadable_exchange_iff .get type.kind key.display sent rfl unreadable_healthy.1).trans ?_
  refine or_congr_right ⟨?_, ?_⟩
  · rintro ⟨payload, hfetched, hunreadable⟩
    have holds := served.holds_of_fetched rfl hfetched
    obtain ⟨items, rfl⟩ := (unreadable_object_iff holds (rereads payload hfetched)).mp hunreadable
    exact ⟨items, hfetched⟩
  · rintro ⟨items, hfetched⟩
    have holds := served.holds_of_fetched rfl hfetched
    exact ⟨_, hfetched, (unreadable_object_iff holds (rereads _ hfetched)).mpr ⟨items, rfl⟩⟩

/-- A client cannot read a list exactly if its request arrives at the health check, at a single object, or
    at a list of which an object is as deep as a text may be. -/
theorem Served.unreadable_listing_iff {filter : Filter}
    (rereads : ∀ payload, fetched? origin config token stamp (.list type filter) m = some payload →
      payload.toJson.Rereads) :
    Unreadable ((connected origin config token stamp).list type filter m).1 ↔
      ReachesHealth origin config (.list type filter) ∨
        (∃ object, fetched? origin config token stamp (.list type filter) m = some (.object object)) ∨
        ∃ items, fetched? origin config token stamp (.list type filter) m = some (.list items) ∧
          ∃ object ∈ items, object.depth = Json.depthLimit := by
  have sent : outgoing? config (.list type filter) =
      some (requestFor config "GET"
        (collectionPath type.group type.version type.kind (filter.scope.elim allNamespaces (·.text)))
        (labelPairs filter.labels) none) := rfl
  refine (unreadable_exchange_iff .list type.kind _ sent rfl unreadable_healthy.2).trans ?_
  refine or_congr_right ⟨?_, ?_⟩
  · rintro ⟨payload, hfetched, hunreadable⟩
    have holds := served.holds_of_fetched rfl hfetched
    rcases (unreadable_list_iff holds (rereads payload hfetched)).mp hunreadable with
      ⟨object, rfl⟩ | ⟨items, rfl, hdeep⟩
    · exact .inl ⟨object, hfetched⟩
    · exact .inr ⟨items, hfetched, hdeep⟩
  · rintro (⟨object, hfetched⟩ | ⟨items, hfetched, hdeep⟩)
    · have hread := unreadable_list_iff (served.holds_of_fetched rfl hfetched) (rereads _ hfetched)
      exact ⟨_, hfetched, hread.mpr (.inl ⟨object, rfl⟩)⟩
    · have hread := unreadable_list_iff (served.holds_of_fetched rfl hfetched) (rereads _ hfetched)
      exact ⟨_, hfetched, hread.mpr (.inr ⟨items, rfl, hdeep⟩)⟩

end

/-- **Nesting.**  Whatever requests a store in memory has served, and whatever a client asks for, as long
    as texts are read back: a single object cannot be read exactly if the request arrives at the health check
    or at a list, and a list exactly if the request arrives at the health check, at a single object, or at a
    list of which an object is as deep as a text may be.  Where client and service fit and the call has an
    address, whatever arrives does so at what is asked for, so that a single object can be read, and a list
    unless an object of it is as deep. -/
theorem unreadable_iff_of_served {m : Memory} (served : Served m) (origin : Origin)
    (config : StoreConfig) (token : Option String) (stamp : Stamp) (type : ResourceType) (key : Key)
    (filter : Filter)
    (single : ∀ payload, fetched? origin config token stamp (.get type key) m = some payload →
      payload.toJson.Rereads)
    (listing : ∀ payload, fetched? origin config token stamp (.list type filter) m = some payload →
      payload.toJson.Rereads) :
    (Unreadable ((connected origin config token stamp).get type key m).1 ↔
      ReachesHealth origin config (.get type key) ∨
        ∃ items, fetched? origin config token stamp (.get type key) m = some (.list items)) ∧
    (Unreadable ((connected origin config token stamp).list type filter m).1 ↔
      ReachesHealth origin config (.list type filter) ∨
        (∃ object, fetched? origin config token stamp (.list type filter) m = some (.object object)) ∨
        ∃ items, fetched? origin config token stamp (.list type filter) m = some (.list items) ∧
          ∃ object ∈ items, object.depth = Json.depthLimit) ∧
    (Deployed origin config → token = config.authToken →
      (Addressed (.get type key) →
        ¬ Unreadable ((connected origin config token stamp).get type key m).1) ∧
      (Addressed (.list type filter) →
        (Unreadable ((connected origin config token stamp).list type filter m).1 ↔
          (arriving? origin config (.list type filter)).isSome = true ∧
            ∃ items, (Memory.list type filter m).1 = .ok items ∧
              ∃ object ∈ items, object.depth = Json.depthLimit))) := by
  have hget := served.unreadable_get_iff single
  have hlist := served.unreadable_listing_iff listing
  refine ⟨hget, hlist, fun hconfig htoken => ?_⟩
  subst htoken
  constructor
  · intro haddressed
    obtain ⟨health, hfetched⟩ := fetched_get hconfig haddressed
    rw [hget, hfetched]
    rintro (h | ⟨items, h⟩)
    · exact health h
    · obtain ⟨_, _, h⟩ := Option.bind_eq_some_iff.mp h
      obtain ⟨object, _, hobject⟩ := Option.map_eq_some_iff.mp h
      cases hobject
  · intro haddressed
    obtain ⟨health, hfetched⟩ := fetched_list hconfig haddressed
    rw [hlist, hfetched]
    constructor
    · rintro (h | ⟨object, h⟩ | ⟨items, h, hdeep⟩)
      · exact absurd h health
      · obtain ⟨_, _, h⟩ := Option.bind_eq_some_iff.mp h
        obtain ⟨items, _, hitems⟩ := Option.map_eq_some_iff.mp h
        cases hitems
      · obtain ⟨arrived, harriving, h⟩ := Option.bind_eq_some_iff.mp h
        obtain ⟨found, hfound, hitems⟩ := Option.map_eq_some_iff.mp h
        cases hitems
        exact ⟨by rw [harriving]; rfl, items, eq_ok_of_toOption hfound, hdeep⟩
    · rintro ⟨harriving, items, hitems, hdeep⟩
      obtain ⟨arrived, harriving⟩ := Option.isSome_iff_exists.mp harriving
      rw [harriving, hitems]
      exact .inr (.inr ⟨items, rfl, hdeep⟩)

namespace Brimming

open Deployment Specimen

/-- An array within some others. -/
def nested : Nat → Json
  | 0 => .array []
  | n + 1 => .array [nested n]

theorem normal_nested (n : Nat) : (nested n).Normal := by
  induction n with
  | zero =>
    apply Json.Normal.array
    intro item hitem
    cases hitem
  | succ n ih =>
    apply Json.Normal.array
    intro item hitem
    obtain rfl := List.mem_singleton.mp hitem
    exact ih

theorem depth_nested (n : Nat) : (nested n).depth = n + 1 := by
  induction n with
  | zero => rfl
  | succ n ih => simp [nested, Json.depth, Json.depthItems, ih]

/-- An object that is as deep as a text may be. -/
def deep : Object := sample.withField "data" (nested 125)

/-- The object as the first write leaves it. -/
def stored : Object := Memory.stamped .verbatim (Memory.slotAt secrets (key "a")) 1 deep

/-- The store with the object. -/
def full : Memory := (Memory.create .verbatim deep .empty).2

/-- The objects of all namespaces, with any labels. -/
def all : Filter := ⟨none, .empty⟩

/-- The request of a client that creates the object. -/
def creation : Request :=
  received (config "t") "POST" (collectionPath "" "v1" "Secret" "ns") [] (some deep)

theorem get_full : (Memory.get secrets (key "a") full).1 = .ok stored := rfl

theorem list_full : (Memory.list secrets all full).1 = .ok [stored] := rfl

theorem depth_stored : stored.depth = Json.depthLimit := by
  have hbody : stored.body.entries = [("data", nested 125)] := rfl
  have hmetadata : stored.metadata.toJson.depth = 1 := rfl
  rw [Object.depth_eq, hbody, hmetadata]
  simp [Json.depthFields, depth_nested, Json.depthLimit]

set_option maxRecDepth 20000 in
theorem rereads : (Json.object deep.toFields).Rereads ∧ (Payload.object stored).toJson.Rereads ∧
    (Payload.list [stored]).toJson.Rereads := by
  refine ⟨?_, ?_, ?_⟩
  · decide +kernel
  · decide +kernel
  · decide +kernel

theorem reads_deep : Reads deep := by
  refine reads_of_holds (fun field hfield => ?_) rereads.1
  obtain rfl : field = ("data", nested 125) := List.mem_singleton.mp hfield
  refine ⟨⟨normal_nested 125, ?_⟩, by decide⟩
  rw [depth_nested]
  rfl

/-- The service takes the object in. -/
theorem handle_creation : handle (Memory.store .verbatim) (some "t") creation .empty =
    (.json 201 stored.toText, full) := by
  have htype := typePart part_secret
  have hsegment : Part "ns" := scopePart.segment part_noNamespace
  have hroute : Route.parse (collectionPath "" "v1" "Secret" "ns") =
      some ⟨"", "v1", "Secret", "ns", none⟩ :=
    parse_collectionPath (htype.routable hsegment)
  have hobject : creation.object = .ok deep := reads_deep.received (config "t") "POST" _ []
  have hbody : (Route.mk "" "v1" "Secret" "ns" none).checkBody deep = .ok () :=
    checkBody_of_holds rfl rfl rfl
  have hhandle : handle (Memory.store .verbatim) (some "t") creation .empty =
      respond (Memory.store .verbatim) ⟨"", "v1", "Secret", "ns", none⟩ [] creation .empty :=
    handle_relayed deployed (Memory.store .verbatim) (htype.collection hsegment) hroute named_nil
      (Request.relays_at _ _) .empty
  have hcreated : (Memory.store .verbatim).create deep .empty = (.ok stored, full) := rfl
  rw [hhandle, respond_post rfl rfl hobject hbody, hcreated]
  rfl

theorem served : Served full := by
  have hserved : Served (handle (Memory.store .verbatim) (some "t") creation .empty).2 :=
    .request (.start rfl) .verbatim (some "t") creation
  rwa [handle_creation] at hserved

theorem addressed_single : Addressed (.get secrets (key "a")) := addressed_get (typePart part_secret)

theorem addressed_listing : Addressed (.list secrets all) := by
  refine ⟨typePart part_secret, fun space hspace => ?_, fun name value hmem => ?_⟩
  · cases hspace
  · cases hmem

/-- What a client fetches from the store with the object. -/
def fetched (call : Store.Call) : Option Payload :=
  fetched? origin (config "t") (some "t") .verbatim call full

theorem arrives : (arriving? origin (config "t") (.get secrets (key "a"))).isSome = true ∧
    (arriving? origin (config "t") (.list secrets all)).isSome = true :=
  ⟨by decide +kernel, by decide +kernel⟩

theorem fetched_single : fetched (.get secrets (key "a")) = some (.object stored) := by
  obtain ⟨arrived, harriving⟩ := Option.isSome_iff_exists.mp arrives.1
  have hfetched : fetched (.get secrets (key "a")) = _ := (fetched_get deployed addressed_single).2
  rw [hfetched, harriving, get_full]
  rfl

theorem fetched_listing : fetched (.list secrets all) = some (.list [stored]) := by
  obtain ⟨arrived, harriving⟩ := Option.isSome_iff_exists.mp arrives.2
  have hfetched : fetched (.list secrets all) = _ := (fetched_list deployed addressed_listing).2
  rw [hfetched, harriving, list_full]
  rfl

theorem rereads_single {payload : Payload} (h : fetched (.get secrets (key "a")) = some payload) :
    payload.toJson.Rereads := by
  obtain rfl := Option.some.inj (fetched_single.symm.trans h)
  exact rereads.2.1

theorem rereads_listing {payload : Payload} (h : fetched (.list secrets all) = some payload) :
    payload.toJson.Rereads := by
  obtain rfl := Option.some.inj (fetched_listing.symm.trans h)
  exact rereads.2.2

/-- The object is accepted and read alone, and the list that holds it is not. -/
theorem read_alone_only : Served full ∧
    (∀ payload, fetched (.get secrets (key "a")) = some payload → payload.toJson.Rereads) ∧
    (∀ payload, fetched (.list secrets all) = some payload → payload.toJson.Rereads) ∧
    Deployed origin (config "t") ∧ Addressed (.get secrets (key "a")) ∧
    Addressed (.list secrets all) ∧
    ¬ Unreadable ((reached (config "t")).get secrets (key "a") full).1 ∧
    Unreadable ((reached (config "t")).list secrets all full).1 := by
  obtain ⟨_, _, haddressed⟩ := unreadable_iff_of_served served origin (config "t") (some "t")
    .verbatim secrets (key "a") all (fun _ => rereads_single) (fun _ => rereads_listing)
  obtain ⟨hget, hlist⟩ := haddressed deployed rfl
  refine ⟨served, fun _ => rereads_single, fun _ => rereads_listing, deployed, addressed_single,
    addressed_listing, hget addressed_single, (hlist addressed_listing).mpr ⟨arrives.2, ?_⟩⟩
  exact ⟨[stored], list_full, stored, List.mem_cons_self, depth_stored⟩

/-- Since the service has accepted the object, its type cannot be listed any longer, while the object can
    be read alone. -/
theorem list_breaks_off : Served full ∧
    handle (Memory.store .verbatim) (some "t") creation .empty = (.json 201 stored.toText, full) ∧
    ((reached (config "t")).get secrets (key "a") full).1 = .ok stored ∧
    Unreadable ((reached (config "t")).list secrets all full).1 := by
  have hreads : Reads stored := by
    have held : full.objects.find? (Memory.slotAt secrets (key "a")) = some stored := rfl
    exact reads_of_holds (served.holding _ _ held) rereads.2.1
  have hsame : Same (Memory.get secrets (key "a") full)
      ((reached (config "t")).get secrets (key "a") full) := by
    obtain ⟨htype, hscope, hname⟩ := addressed_single
    have hcarried : ∀ request ∈ outgoing? (config "t") (.get secrets (key "a")), request.Carried := by
      decide +kernel
    refine same_get deployed rfl htype hscope hname (Carrier.conveys_toService _ _ hcarried)
      fun object hobject => ?_
    obtain rfl := Except.ok.inj (get_full.symm.trans hobject)
    exact hreads
  have hget : ((reached (config "t")).get secrets (key "a") full).1 = .ok stored := by
    have hagree := hsame.answer
    rw [get_full] at hagree
    generalize ((reached (config "t")).get secrets (key "a") full).1 = answer at hagree ⊢
    cases hagree
    rfl
  refine ⟨served, handle_creation, hget, ?_⟩
  refine (served.unreadable_listing_iff fun _ => rereads_listing).mpr (.inr (.inr ?_))
  exact ⟨[stored], fetched_listing, stored, List.mem_cons_self, depth_stored⟩

end Brimming

end Wire

end Reconciliation
