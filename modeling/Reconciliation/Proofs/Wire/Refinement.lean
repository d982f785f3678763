import Reconciliation.Proofs.Memory.Run
import Reconciliation.Proofs.Selector
import Reconciliation.Proofs.Wire.Exchange
import Reconciliation.Proofs.Wire.Refusal

namespace Reconciliation.Wire

/-!
# The store behind HTTP is the store in memory

* `Part`, `Addressed` — calls whose types and keys may stand in an address;
* `Reads`, `labelPairs`, `optionPairs` — bodies and queries, and that they are read back;
* `respond_get` and so on — which call the service makes when it gets a request that fits;
* `same_exchange` — an exchange does what this call does;
* `Legible` — calls of which everything that travels is read back from its text;
* `refines` — such a call over HTTP agrees with the call of the store in memory;
* `connected` — the store as a client reaches it whose carrier goes to the service.

The carrier between them may be any that delivers the request of the call.  Which these are is not said
here: a carrier may refuse what it cannot write into an address or a header.
-/

/-! ### Calls that have an address -/

/-- A text that may be a segment of an address. -/
structure Part (text : String) : Prop extends Segment text where
  fragment : '#' ∉ text.toList

/-- A type whose paths may stand in an address. -/
structure TypePart (group version kind : String) : Prop where
  notCore : group ≠ coreGroup
  group : group ≠ "" → Part group
  version : Part version
  kind : Part kind

/-- A namespace that may be a segment of an address and does not look like one that stands for none
    or for all. -/
def ScopePart (scope : Option Namespace) : Prop :=
  ∀ space, scope = some space →
    Part space.text ∧ space.text ≠ noNamespace ∧ space.text ≠ allNamespaces

/-- A call that has an address.  An object whose type cannot be told needs none. -/
def Addressed : Store.Call → Prop
  | .get type key | .delete type key _ =>
    TypePart type.group type.version type.kind ∧ ScopePart key.scope ∧ Part key.name.text
  | .list type filter =>
    TypePart type.group type.version type.kind ∧ ScopePart filter.scope ∧
      Selector.Plain filter.labels
  | .create object => ∀ gvk, object.gvk = .ok gvk →
    TypePart gvk.group gvk.version gvk.kind ∧ ScopePart object.key.scope
  | .update object => ∀ gvk, object.gvk = .ok gvk →
    TypePart gvk.group gvk.version gvk.kind ∧ ScopePart object.key.scope ∧
      Part object.key.name.text

theorem part_noNamespace : Part noNamespace :=
  ⟨⟨by decide, by decide, by decide, by decide⟩, by decide⟩

theorem part_allNamespaces : Part allNamespaces :=
  ⟨⟨by decide, by decide, by decide, by decide⟩, by decide⟩

/-- The segment of a namespace, or the one that stands for its absence. -/
theorem ScopePart.segment {scope : Option Namespace} (h : ScopePart scope) {special : String}
    (hspecial : Part special) : Part (scope.elim special (·.text)) := by
  cases scope with
  | none => exact hspecial
  | some space => exact (h space rfl).1

/-- The namespace of a route is that of its segment. -/
theorem ScopePart.scope_route {scope : Option Namespace} (h : ScopePart scope) {special : String}
    (hspecial : special = noNamespace ∨ special = allNamespaces) (group version kind : String)
    (name : Option String) :
    (Route.mk group version kind (scope.elim special (·.text)) name).scope = scope := by
  cases scope with
  | none => exact if_pos hspecial
  | some space =>
    obtain ⟨_, hnone, hall⟩ := h space rfl
    exact if_neg (fun hor => hor.elim hnone hall)

/-- The key of a route is that of its segments. -/
theorem ScopePart.key_route {key : Key} (h : ScopePart key.scope) (group version kind : String) :
    (Route.mk group version kind (key.scope.elim noNamespace (·.text)) (some key.name.text)).key
      key.name.text = key := by
  rw [Route.key, h.scope_route (Or.inl rfl)]

theorem TypePart.routable {group version kind segment : String} (h : TypePart group version kind)
    (hsegment : Part segment) : Routable group version kind segment :=
  ⟨h.notCore, fun hne => (h.group hne).toSegment, h.version.toSegment, h.kind.toSegment,
    hsegment.toSegment⟩

theorem TypePart.groupSegment {group version kind : String} (h : TypePart group version kind) :
    Part (groupSegment group) := by
  unfold Wire.groupSegment
  by_cases hempty : group = ""
  · subst hempty
    exact ⟨⟨by decide, by decide, by decide, by decide⟩, by decide⟩
  · rw [show group.isEmpty = false by simpa using hempty]
    exact h.group hempty

/-- What is in no segment of a path, nor in what every path is written with, is not in the path. -/
theorem not_mem_path {c : Char} (hwritten : c ∉ "/resources/".toList) {segments : List String}
    (h : ∀ segment ∈ segments, c ∉ segment.toList) :
    c ∉ ("/resources/" ++ (String.singleton '/').intercalate segments).toList := by
  have hslash : c ∉ (String.singleton '/').toList := fun hmem =>
    hwritten (List.mem_singleton.mp hmem ▸ List.mem_cons_self)
  rw [String.toList_append, List.mem_append, not_or]
  exact ⟨hwritten, Text.not_mem_intercalate hslash h⟩

/-- A path of such segments may be added to an origin. -/
theorem addressable_segments {segments : List String} (h : ∀ segment ∈ segments, Part segment) :
    Addressable ("/resources/" ++ (String.singleton '/').intercalate segments) where
  rooted := ⟨"resources/" ++ (String.singleton '/').intercalate segments, by
    rw [← String.append_assoc]
    rfl⟩
  query := not_mem_path (by decide) fun segment hmem => (h segment hmem).query
  fragment := not_mem_path (by decide) fun segment hmem => (h segment hmem).fragment

theorem TypePart.collection {group version kind segment : String} (h : TypePart group version kind)
    (hsegment : Part segment) : Addressable (collectionPath group version kind segment) := by
  rw [collectionPath_eq]
  apply addressable_segments
  simp only [List.mem_cons, List.not_mem_nil, or_false]
  rintro part (rfl | rfl | rfl | rfl)
  · exact h.groupSegment
  · exact h.version
  · exact h.kind
  · exact hsegment

theorem TypePart.object {group version kind : String} (h : TypePart group version kind) {key : Key}
    (hscope : ScopePart key.scope) (hname : Part key.name.text) :
    Addressable (objectPath group version kind key) := by
  rw [objectPath_eq]
  apply addressable_segments
  simp only [List.mem_cons, List.not_mem_nil, or_false]
  rintro part (rfl | rfl | rfl | rfl | rfl)
  · exact h.groupSegment
  · exact h.version
  · exact h.kind
  · exact hscope.segment part_noNamespace
  · exact hname

/-! ### Texts that are read back -/

/-- The text of an object is read back as that object. -/
def Reads (object : Object) : Prop :=
  Json.ofBytes Object.decoder (Text.bytes object.toText) = .ok object

/-- The text of a list is read back as that list. -/
def ReadsList (objects : List Object) : Prop :=
  Json.ofBytes (Json.list Object.decoder) (Text.bytes (listText objects)) = .ok objects

theorem reads_iff {object : Object} : Reads object ↔
    (Json.ofBytes Object.decoder (Text.bytes object.toText)).toOption = some object := by
  unfold Reads
  cases Json.ofBytes Object.decoder (Text.bytes object.toText) with
  | ok value => simp [Except.toOption]
  | error problem => simp [Except.toOption]

instance (object : Object) : Decidable (Reads object) := decidable_of_iff _ reads_iff.symm

theorem readAs_of_ofBytes {α : Type} {decode : Json.Decoder α} {body : List UInt8} {value : α}
    (h : Json.ofBytes decode body = .ok value) : readAs decode body = .ok value := by
  rw [readAs, h]
  rfl

/-- An object that was answered is read back from the answer. -/
theorem Reads.answered {object : Object} (h : Reads object) {status : Nat} (hstatus : status < 400) :
    (Response.json status object.toText).status < 400 ∧
      readAs Object.decoder (Response.json status object.toText).body = .ok object :=
  ⟨hstatus, readAs_of_ofBytes h⟩

/-- An object that was sent is read back from the request. -/
theorem Reads.received {object : Object} (h : Reads object) (config : StoreConfig)
    (method path : String) (query : List (String × String)) :
    (received config method path query (some object)).object = .ok object := by
  show Except.mapError _ (Json.ofBytes Object.decoder (Text.bytes object.toText)) = .ok object
  rw [show Json.ofBytes Object.decoder (Text.bytes object.toText) = .ok object from h]
  rfl

/-- The query that carries labels, if there are any. -/
def labelPairs (labels : Table String String) : List (String × String) :=
  if labels.isEmpty then [] else [("labels", Selector.display labels)]

theorem named_labelPairs (labels : Table String String) : Named (labelPairs labels) := by
  intro pair hpair
  unfold labelPairs at hpair
  split at hpair
  · cases hpair
  · rw [List.mem_singleton.mp hpair]
    show Text.percentEncode "labels" = "labels"
    rw [Text.percentEncode, Text.bytes_eq]
    rfl

/-- A filter is read back from the segment and the query that carry it. -/
theorem listFilter_labelPairs {filter : Filter} (hscope : ScopePart filter.scope)
    (hlabels : Selector.Plain filter.labels) (group version kind : String) :
    listFilter ⟨group, version, kind, filter.scope.elim allNamespaces (·.text), none⟩
      (labelPairs filter.labels) = .ok filter := by
  have hroute := hscope.scope_route (Or.inr rfl) group version kind none
  unfold listFilter labelPairs
  by_cases hempty : filter.labels.isEmpty = true
  · have hnone : filter.labels = .empty := Table.ext (List.isEmpty_iff.mp hempty)
    rw [if_pos hempty]
    show Except.ok (Filter.mk _ Table.empty) = Except.ok filter
    rw [hroute, ← hnone]
  · rw [if_neg hempty]
    have hvalue : queryValue? [("labels", Selector.display filter.labels)] "labels" =
        some (Selector.display filter.labels) := rfl
    rw [hvalue]
    dsimp only
    rw [Selector.parse_display hlabels, hroute]
    rfl

/-- The query that carries the options of a delete. -/
def optionPairs (options : DeleteOptions) : List (String × String) :=
  (options.precondition.toList.map fun version => ("precondition", version.text)) ++
    (options.propagation.toList.map fun policy => ("propagation", policy.name))

theorem named_optionPairs (options : DeleteOptions) : Named (optionPairs options) := by
  intro pair hpair
  rcases List.mem_append.mp hpair with h | h
  · obtain ⟨version, _, rfl⟩ := List.mem_map.mp h
    show Text.percentEncode "precondition" = "precondition"
    rw [Text.percentEncode, Text.bytes_eq]
    rfl
  · obtain ⟨policy, _, rfl⟩ := List.mem_map.mp h
    show Text.percentEncode "propagation" = "propagation"
    rw [Text.percentEncode, Text.bytes_eq]
    rfl

/-- The options of a delete are read back from the query that carries them. -/
theorem deleteOptions_optionPairs (options : DeleteOptions) :
    deleteOptions (optionPairs options) = .ok options := by
  obtain ⟨precondition, propagation⟩ := options
  cases precondition with
  | none =>
    cases propagation with
    | none => rfl
    | some policy => cases policy <;> rfl
  | some version =>
    cases propagation with
    | none => rfl
    | some policy => cases policy <;> rfl

/-! ### Requests that fit their route -/

section Respond

variable {σ : Type} {store : Store σ} {route : Route} {query : List (String × String)}
  {request : Request} {object : Object}

/-- An object passes the check of a route that has its type and its namespace. -/
theorem checkBody_of_holds {gvk : GroupVersionKind} (hgvk : object.gvk = .ok gvk)
    (htype : route.type.holds gvk = true) (hscope : object.metadata.scope = route.scope) :
    route.checkBody object = .ok () := by
  have hread : object.gvk.mapError (fun problem => Response.plain 400 problem.message) = .ok gvk := by
    rw [hgvk]
    rfl
  unfold Route.checkBody
  rw [hread]
  simp [htype, hscope, bind, Except.bind, pure, Except.pure]

theorem respond_get {name : String} {key : Key} (hmethod : request.method = "GET")
    (hname : route.name = some name) (hkey : route.key name = key) (state : σ) :
    respond store route query request state =
      answer (fun object => .json 200 object.toText) (store.get route.type key state) := by
  unfold respond
  rw [hmethod, hname, ← hkey]
  rfl

theorem respond_list {filter : Filter} (hmethod : request.method = "GET")
    (hname : route.name = none) (hfilter : listFilter route query = .ok filter) (state : σ) :
    respond store route query request state =
      answer (fun objects => .json 200 (listText objects)) (store.list route.type filter state) := by
  unfold respond
  rw [hmethod, hname, hfilter]
  rfl

theorem respond_post (hmethod : request.method = "POST") (hname : route.name = none)
    (hobject : request.object = .ok object) (hbody : route.checkBody object = .ok ()) (state : σ) :
    respond store route query request state =
      answer (fun stored => .json 201 stored.toText) (store.create object state) := by
  unfold respond
  rw [hmethod, hname, hobject]
  show attempt (route.checkBody object >>= fun () => pure object) _ state = _
  rw [hbody]
  rfl

theorem respond_put (hmethod : request.method = "PUT")
    (hname : route.name = some object.metadata.name.text) (hobject : request.object = .ok object)
    (hbody : route.checkBody object = .ok ()) (state : σ) :
    respond store route query request state =
      answer (fun stored => .json 200 stored.toText) (store.update object state) := by
  unfold respond
  rw [hmethod, hname, hobject]
  show attempt (route.checkBody object >>= fun () =>
    checkName object.metadata.name.text object >>= fun () => pure object) _ state = _
  rw [hbody, checkName, if_pos rfl]
  rfl

theorem respond_delete {name : String} {key : Key} {options : DeleteOptions}
    (hmethod : request.method = "DELETE") (hname : route.name = some name)
    (hkey : route.key name = key) (hoptions : deleteOptions query = .ok options) (state : σ) :
    respond store route query request state =
      answer (fun () => .json 200 "\x7b\x7d") (store.delete route.type key options state) := by
  unfold respond
  rw [hmethod, hname, hoptions, ← hkey]
  rfl

end Respond

/-! ### The five calls -/

section Calls

variable {origin : Origin} {config : StoreConfig} {stamp : Stamp} {m : Memory}
  {carrier : Carrier Memory}

/-- An exchange does the same as a call if the service makes this call when it gets the request. -/
theorem same_exchange (hconfig : Deployed origin config) {α : Type} {op : Operation}
    {method path : String} (hpath : Addressable path) {route : Route}
    (hroute : Route.parse path = some route) {query : List (String × String)} (hnamed : Named query)
    {object : Option Object}
    (delivered : carrier.Delivers origin (handle (Memory.store stamp) config.authToken)
      (requestFor config method path query object))
    {success : α → Response} {read : List UInt8 → Except StoreError α}
    {direct : Except StoreError α × Memory}
    (hrespond : respond (Memory.store stamp) route query
      (received config method path query object) m = answer success direct)
    (hread : ∀ value, direct.1 = .ok value →
      (success value).status < 400 ∧ read (success value).body = .ok value)
    (hfaithful : ∀ failure, direct.1 = .error failure → Faithful op failure) (kind key : String) :
    Same direct
      (exchange carrier op kind key (requestFor config method path query object) read m) := by
  rw [exchange_of_delivered hconfig (Memory.store stamp) op kind key method hpath hroute hnamed object
    delivered read m, hrespond]
  exact same_answer hread hfaithful kind key

theorem named_nil : Named [] := fun _ h => by cases h

theorem same_get (hconfig : Deployed origin config) (quiet : m.faults = []) {type : ResourceType}
    {key : Key} (htype : TypePart type.group type.version type.kind) (hscope : ScopePart key.scope)
    (hname : Part key.name.text)
    (conveyed : carrier.Conveys origin (handle (Memory.store stamp) config.authToken) config
      (.get type key))
    (hreads : ∀ object, (Memory.get type key m).1 = .ok object → Reads object) :
    Same (Memory.get type key m) ((client config carrier).get type key m) := by
  have hroute := parse_objectPath (htype.routable (hscope.segment part_noNamespace)) hname.toSegment
  exact same_exchange hconfig (htype.object hscope hname) hroute named_nil (conveyed _ rfl)
    (respond_get rfl rfl (hscope.key_route _ _ _) m)
    (fun object hobject => (hreads object hobject).answered (show 200 < 400 by decide))
    (fun failure => get_faithful quiet) type.kind key.display

theorem same_list (hconfig : Deployed origin config) (quiet : m.faults = []) {type : ResourceType}
    {filter : Filter} (htype : TypePart type.group type.version type.kind)
    (hscope : ScopePart filter.scope) (hlabels : Selector.Plain filter.labels)
    (conveyed : carrier.Conveys origin (handle (Memory.store stamp) config.authToken) config
      (.list type filter))
    (hreads : ∀ items, (Memory.list type filter m).1 = .ok items → ReadsList items) :
    Same (Memory.list type filter m) ((client config carrier).list type filter m) := by
  have hsegment := hscope.segment part_allNamespaces
  have hroute := parse_collectionPath (htype.routable hsegment)
  exact same_exchange hconfig (htype.collection hsegment) hroute (named_labelPairs filter.labels)
    (conveyed _ rfl) (respond_list rfl rfl (listFilter_labelPairs hscope hlabels _ _ _) m)
    (fun items hitems => ⟨show 200 < 400 by decide, readAs_of_ofBytes (hreads items hitems)⟩)
    (fun failure => list_faithful quiet) type.kind (filter.scope.elim allNamespaces (·.text))

/-- A call for the declared type of an object does the same as a call that refuses objects of which
    the type cannot be told, if it does so for each type. -/
theorem same_withGvk {object : Object} (calls : CallCounts)
    {direct : Except StoreError Object × Memory}
    {call : GroupVersionKind → Memory → Except StoreError Object × Memory}
    (hrefused : ∀ problem, object.gvk = .error problem →
      direct = (.error (.schema problem), { m with calls }))
    (hmade : ∀ gvk, object.gvk = .ok gvk → Same direct (call gvk m)) :
    Same direct (withGvk object call m) := by
  unfold withGvk
  cases hgvk : object.gvk with
  | error problem =>
    rw [hrefused problem hgvk]
    exact ⟨.refusal rfl rfl, rfl, rfl⟩
  | ok gvk => exact hmade gvk hgvk

/-- What is sent to create an object whose type can be told. -/
theorem outgoing?_create {object : Object} {gvk : GroupVersionKind} (hgvk : object.gvk = .ok gvk) :
    outgoing? config (.create object) =
      some (requestFor config "POST" (collectionPath gvk.group gvk.version gvk.kind
        (object.key.scope.elim noNamespace (·.text))) [] (some object)) := by
  show (withGvk object _ none).2 = _
  rw [withGvk, hgvk]
  rfl

/-- What is sent to update an object whose type can be told. -/
theorem outgoing?_update {object : Object} {gvk : GroupVersionKind} (hgvk : object.gvk = .ok gvk) :
    outgoing? config (.update object) =
      some (requestFor config "PUT" (objectPath gvk.group gvk.version gvk.kind object.key) []
        (some object)) := by
  show (withGvk object _ none).2 = _
  rw [withGvk, hgvk]
  rfl

theorem same_create (hconfig : Deployed origin config) (quiet : m.faults = []) {object : Object}
    (haddressed : Addressed (.create object))
    (conveyed : carrier.Conveys origin (handle (Memory.store stamp) config.authToken) config
      (.create object))
    (hsent : ∀ gvk, object.gvk = .ok gvk → Reads object)
    (hreads : ∀ stored, (Memory.create stamp object m).1 = .ok stored → Reads stored) :
    Same (Memory.create stamp object m) ((client config carrier).create object m) := by
  refine same_withGvk (m.calls.bump .create) (fun problem hgvk => ?_) fun gvk hgvk => ?_
  · rw [Memory.create, Memory.call_of_quiet quiet, Memory.counted, hgvk]
  · obtain ⟨htype, hscope⟩ := haddressed gvk hgvk
    have hsegment := hscope.segment part_noNamespace
    have hroute := parse_collectionPath (htype.routable hsegment)
    have hbody := checkBody_of_holds hgvk (by simp [ResourceType.holds, Route.type])
      (hscope.scope_route (Or.inl rfl) gvk.group gvk.version gvk.kind none).symm
    exact same_exchange hconfig (htype.collection hsegment) hroute named_nil
      (conveyed _ (outgoing?_create hgvk))
      (respond_post rfl rfl ((hsent gvk hgvk).received config _ _ _) hbody m)
      (fun stored hstored => (hreads stored hstored).answered (show 201 < 400 by decide))
      (fun failure => create_faithful quiet) gvk.kind object.key.display

theorem same_update (hconfig : Deployed origin config) (quiet : m.faults = []) {object : Object}
    (haddressed : Addressed (.update object))
    (conveyed : carrier.Conveys origin (handle (Memory.store stamp) config.authToken) config
      (.update object))
    (hsent : ∀ gvk, object.gvk = .ok gvk → Reads object)
    (hreads : ∀ stored, (Memory.update stamp object m).1 = .ok stored → Reads stored) :
    Same (Memory.update stamp object m) ((client config carrier).update object m) := by
  refine same_withGvk (m.calls.bump .update) (fun problem hgvk => ?_) fun gvk hgvk => ?_
  · rw [Memory.update, Memory.call_of_quiet quiet, Memory.counted, hgvk]
  · obtain ⟨htype, hscope, hname⟩ := haddressed gvk hgvk
    have hroute := parse_objectPath (htype.routable (hscope.segment part_noNamespace))
      hname.toSegment
    have hbody := checkBody_of_holds hgvk (by simp [ResourceType.holds, Route.type])
      (hscope.scope_route (Or.inl rfl) gvk.group gvk.version gvk.kind
        (some object.key.name.text)).symm
    exact same_exchange hconfig (htype.object hscope hname) hroute named_nil
      (conveyed _ (outgoing?_update hgvk))
      (respond_put rfl rfl ((hsent gvk hgvk).received config _ _ _) hbody m)
      (fun stored hstored => (hreads stored hstored).answered (show 200 < 400 by decide))
      (fun failure => update_faithful quiet) gvk.kind object.key.display

theorem same_delete (hconfig : Deployed origin config) (quiet : m.faults = []) {type : ResourceType}
    {key : Key} (options : DeleteOptions) (htype : TypePart type.group type.version type.kind)
    (hscope : ScopePart key.scope) (hname : Part key.name.text)
    (conveyed : carrier.Conveys origin (handle (Memory.store stamp) config.authToken) config
      (.delete type key options)) :
    Same (Memory.delete type key options m)
      ((client config carrier).delete type key options m) := by
  have hroute := parse_objectPath (htype.routable (hscope.segment part_noNamespace)) hname.toSegment
  exact same_exchange hconfig (htype.object hscope hname) hroute (named_optionPairs options)
    (conveyed _ rfl)
    (respond_delete rfl rfl (hscope.key_route _ _ _) (deleteOptions_optionPairs options) m)
    (fun () _ => ⟨show 200 < 400 by decide, rfl⟩)
    (fun failure => delete_faithful quiet) type.kind key.display

/-! ### All calls -/

/-- The object that a call sends along, if its type can be told. -/
def sent? : Store.Call → Option Object
  | .create object | .update object => object.gvk.toOption.map fun _ => object
  | .get _ _ | .list _ _ | .delete _ _ _ => none

/-- What a call brought is read back from its text. -/
def ReadsPayload : Payload → Prop
  | .object object => Reads object
  | .list items => ReadsList items

/-- What a call sends and what it brings is read back from its text. -/
structure Legible (call : Store.Call) (answer : Store.Answer) : Prop where
  sent : ∀ object, sent? call = some object → Reads object
  brought : ∀ payload, answer = .ok (some payload) → ReadsPayload payload

/-- **Refinement.**  Over any carrier that delivers its request, a call over HTTP agrees with the same call
    of the store in memory: it leaves the same objects and the same number of writes, and brings the same
    or is refused for the same reason. -/
theorem refines (hconfig : Deployed origin config) (quiet : m.faults = []) {call : Store.Call}
    (haddressed : Addressed call)
    (conveyed : carrier.Conveys origin (handle (Memory.store stamp) config.authToken) config call)
    (hlegible : Legible call ((Memory.store stamp).perform call m).1) :
    Same ((Memory.store stamp).perform call m) ((client config carrier).perform call m) := by
  obtain ⟨hsent, hbrought⟩ := hlegible
  cases call with
  | get type key =>
    obtain ⟨htype, hscope, hname⟩ := haddressed
    refine (same_get hconfig quiet htype hscope hname conveyed fun object hobject => ?_).map _
    exact hbrought (.object object) (congrArg (Except.map _) hobject)
  | list type filter =>
    obtain ⟨htype, hscope, hlabels⟩ := haddressed
    refine (same_list hconfig quiet htype hscope hlabels conveyed fun items hitems => ?_).map _
    exact hbrought (.list items) (congrArg (Except.map _) hitems)
  | create object =>
    have hread : ∀ gvk, object.gvk = .ok gvk → Reads object :=
      fun gvk hgvk => hsent object (by simp [sent?, hgvk, Except.toOption])
    refine (same_create hconfig quiet haddressed conveyed hread fun stored hstored => ?_).map _
    exact hbrought (.object stored) (congrArg (Except.map _) hstored)
  | update object =>
    have hread : ∀ gvk, object.gvk = .ok gvk → Reads object :=
      fun gvk hgvk => hsent object (by simp [sent?, hgvk, Except.toOption])
    refine (same_update hconfig quiet haddressed conveyed hread fun stored hstored => ?_).map _
    exact hbrought (.object stored) (congrArg (Except.map _) hstored)
  | delete type key options =>
    obtain ⟨htype, hscope, hname⟩ := haddressed
    exact (same_delete hconfig quiet options htype hscope hname conveyed).map _

end Calls

/-! ### A service that is reached -/

/-- The store in memory behind HTTP with a token, as a client with the configuration reaches it whose
    carrier goes to the service at an origin. -/
def connected (origin : Origin) (config : StoreConfig) (token : Option String) (stamp : Stamp) :
    Store Memory :=
  client config (Carrier.toService origin.text (handle (Memory.store stamp) token))

namespace Deployment

open Specimen

/-- Where the service is found. -/
def origin : Origin := ⟨false, "localhost:8080", by decide, by decide, by decide⟩

/-- A client that presents a token. -/
def config (token : String) : StoreConfig := ⟨"http", "http://localhost:8080", some token⟩

/-- A client whose address ends in a slash. -/
def slashed : StoreConfig := { config "t" with url := "http://localhost:8080/" }

/-- The store as a client with the token of the service reaches it. -/
def reached (config : StoreConfig) : Store Memory :=
  connected origin config config.authToken .verbatim

/-- A type of which the kind has a space in it. -/
def spaced : ResourceType := ⟨"", "v1", "a b", "a b", true⟩

/-- The sample as the first write leaves it. -/
def created : Object := Memory.stamped .verbatim (Memory.slotAt secrets (key "a")) 1 sample

theorem part_of_literal {text : String} (hnonempty : text ≠ "")
    (hdivided : text.toList.all (fun c => !(['/', '%', '?', '#'].contains c)) = true) : Part text := by
  have hfree : ∀ c ∈ text.toList, c ∉ ['/', '%', '?', '#'] := by simpa using hdivided
  exact {
    nonempty := hnonempty
    slash := fun h => hfree _ h (by simp)
    percent := fun h => hfree _ h (by simp)
    query := fun h => hfree _ h (by simp)
    fragment := fun h => hfree _ h (by simp) }

theorem deployed : Deployed origin (config "t") where
  url := by decide
  token := by
    intro token h
    obtain rfl := Option.some.inj h
    exact ⟨by decide, by decide⟩

theorem typePart {kind : String} (hkind : Part kind) : TypePart "" "v1" kind :=
  ⟨by decide, fun hne => absurd rfl hne, part_of_literal (by decide) (by decide), hkind⟩

theorem part_secret : Part "Secret" := part_of_literal (by decide) (by decide)

theorem scopePart : ScopePart (key "a").scope := by
  intro space hspace
  cases hspace
  exact ⟨part_of_literal (by decide) (by decide), by decide, by decide⟩

theorem addressed_get {type : ResourceType} (htype : TypePart type.group type.version type.kind) :
    Addressed (.get type (key "a")) :=
  ⟨htype, scopePart, part_of_literal (by decide) (by decide)⟩

theorem addressed_create : Addressed (.create sample) := by
  intro gvk h
  have hgvk : sample.gvk = .ok secrets.gvk := rfl
  rw [hgvk] at h
  cases h
  exact ⟨typePart part_secret, scopePart⟩

theorem conveyed : (Carrier.toService origin.text
    (handle (Memory.store .verbatim) (config "t").authToken)).Conveys origin
      (handle (Memory.store .verbatim) (config "t").authToken) (config "t") (.create sample) := by
  apply Carrier.conveys_toService
  have hcarried : ∀ request ∈ outgoing? (config "t") (.create sample), request.Carried := by
    decide +kernel
  exact hcarried

set_option maxRecDepth 20000 in
theorem legible : Legible (.create sample)
    ((Memory.store .verbatim).perform (.create sample) .empty).1 where
  sent := by
    have hreads : Reads sample := by decide +kernel
    rintro sent ⟨⟩
    exact hreads
  brought := by
    have hreads : Reads created := by decide +kernel
    have hanswer : ((Memory.store .verbatim).perform (.create sample) .empty).1.toOption =
        some (some (.object created)) := rfl
    intro payload h
    rw [h] at hanswer
    cases hanswer
    exact hreads

/-- A client that creates an object over HTTP gets what a client beside the store gets. -/
theorem created_alike : Deployed origin (config "t") ∧ Addressed (.create sample) ∧
    Memory.empty.faults = [] ∧
    (Carrier.toService origin.text (handle (Memory.store .verbatim) (config "t").authToken)).Conveys
      origin (handle (Memory.store .verbatim) (config "t").authToken) (config "t") (.create sample) ∧
    Legible (.create sample) ((Memory.store .verbatim).perform (.create sample) .empty).1 ∧
    Same ((Memory.store .verbatim).perform (.create sample) .empty)
      ((reached (config "t")).perform (.create sample) .empty) :=
  ⟨deployed, addressed_create, rfl, conveyed, legible,
    refines deployed rfl addressed_create conveyed legible⟩

/-- The object of a type. -/
def single (type : ResourceType) : Object := .ofKey type.gvk (key "a")

/-- The store with the object of a type. -/
def holding (type : ResourceType) : Memory := (Memory.insert .verbatim (single type) .empty).2

/-- A client over HTTP fails to get an object that has an address, and that a client beside the store
    gets. -/
structure Lost (config : StoreConfig) (type : ResourceType) (failure : StoreError) : Prop where
  addressed : Addressed (.get type (key "a"))
  direct : ((Memory.store .verbatim).perform (.get type (key "a")) (holding type)).1 =
    .ok (some (.object (Memory.stamped .verbatim (Memory.slotAt type (key "a")) 1 (single type))))
  failed : ((reached config).perform (.get type (key "a")) (holding type)).1.failure? = some failure
  differ : ¬ Same ((Memory.store .verbatim).perform (.get type (key "a")) (holding type))
    ((reached config).perform (.get type (key "a")) (holding type))

theorem not_same_of_failure {direct remote : Store.Answer × Memory} {payload : Option Payload}
    {failure : StoreError} (hdirect : direct.1 = .ok payload)
    (hremote : remote.1.failure? = some failure) : ¬ Same direct remote := by
  obtain ⟨directAnswer, before⟩ := direct
  obtain ⟨remoteAnswer, after⟩ := remote
  rintro ⟨hanswer, _, _⟩
  cases hanswer with
  | value => cases hremote
  | refusal => cases hdirect

set_option maxRecDepth 20000 in
/-- The carrier refuses an address with a space in it, an empty token does not arrive, and an address that
    ends in a slash leads to paths that address nothing. -/
theorem lost_on_the_way :
    Lost (config "t") spaced (.http "http: invalid uri character") ∧
    Lost (config "") secrets
      (.unauthorized "HTTP 401 for get Secret 'ns/a': missing or invalid bearer token") ∧
    Lost slashed secrets (.notFound "Secret" "ns/a") := by
  have hspaced : ((reached (config "t")).perform (.get spaced (key "a"))
      (holding spaced)).1.failure? = some (.http "http: invalid uri character") := by
    decide +kernel
  have hempty : ((reached (config "")).perform (.get secrets (key "a"))
      (holding secrets)).1.failure? =
        some (.unauthorized "HTTP 401 for get Secret 'ns/a': missing or invalid bearer token") := by
    decide +kernel
  have hslashed : ((reached slashed).perform (.get secrets (key "a"))
      (holding secrets)).1.failure? = some (.notFound "Secret" "ns/a") := by
    decide +kernel
  refine ⟨⟨addressed_get (typePart (part_of_literal (by decide) (by decide))), rfl, hspaced, ?_⟩,
    ⟨addressed_get (typePart part_secret), rfl, hempty, ?_⟩,
    ⟨addressed_get (typePart part_secret), rfl, hslashed, ?_⟩⟩
  · exact not_same_of_failure rfl hspaced
  · exact not_same_of_failure rfl hempty
  · exact not_same_of_failure rfl hslashed

end Deployment

end Reconciliation.Wire
