import Reconciliation.Proofs.Discovery
import Reconciliation.Proofs.Key
import Reconciliation.Proofs.Wire.Address

namespace Reconciliation

/-!
# Where an object is, as a path

* `Wire.Location`, `Wire.Location.path` — where an object is, and the path of that place;
* `Wire.Location.Proper` — a place whose parts were accepted where they were read;
* `Wire.Location.route_of_path` — the route of a path leads to the place that it was made of, and two
  places share a path only if one names the core group by the word that paths have for it.

Paths have words for the core group, for no namespace and for all namespaces.  The last two are no names,
so that no namespace is mistaken for them.  A group may be called `core`.
-/

namespace Wire

/-- An accepted name may stand between two slashes. -/
theorem segment_of_validateName {name : String} (h : validateName name = .ok ()) : Segment name where
  nonempty := (nameChars_of_validateName h).1
  slash := not_mem_of_validateName h (by decide)
  percent := not_mem_of_validateName h (by decide)
  query := not_mem_of_validateName h (by decide)

/-- The path of an object ends where its query would begin. -/
theorem splitQuery_objectPath {group version kind : String} {key : Key}
    (h : Routable group version kind (key.scope.elim noNamespace (·.text)))
    (hname : Segment key.name.text) :
    splitQuery (objectPath group version kind key) = (objectPath group version kind key, []) := by
  have hquery : '?' ∉ (objectPath group version kind key).toList := by
    rw [objectPath_eq, String.toList_append, List.mem_append, not_or]
    refine ⟨by decide, Text.not_mem_intercalate (by decide) ?_⟩
    simp only [List.mem_cons, List.not_mem_nil, or_false]
    rintro part (rfl | rfl | rfl | rfl | rfl)
    · exact (groupSegment_spec h.notCore h.group).1.query
    · exact h.version.query
    · exact h.kind.query
    · exact h.segment.query
    · exact hname.query
  rw [splitQuery, Text.cutFirst?_of_not_mem hquery]

/-! ### Places and their paths -/

/-- Where an object is: the type that it declares, and its key. -/
structure Location where
  group : String
  version : String
  kind : String
  key : Key
deriving DecidableEq

namespace Location

/-- The path of a place. -/
def path (location : Location) : String :=
  objectPath location.group location.version location.kind location.key

/-- A place whose parts were accepted where they were read, and hold no character that divides an address
    or escapes in it. -/
structure Proper (location : Location) : Prop where
  declared : ∃ apiVersion, parseApiVersion apiVersion = .ok (location.group, location.version)
  kind : location.kind ≠ ""
  keyed : ∃ text, Key.parse text = .ok location.key
  plain : ∀ part ∈ [location.group, location.version, location.kind],
    '/' ∉ part.toList ∧ '%' ∉ part.toList ∧ '?' ∉ part.toList

/-- The group as a path gives it. -/
def groupRead (location : Location) : String :=
  if location.group = coreGroup then "" else location.group

/-- The segment that stands for the namespace. -/
def scopeSegment (location : Location) : String := location.key.scope.elim noNamespace (·.text)

/-- Groups that are read alike have the same segment. -/
theorem path_eq (location : Location) :
    location.path = objectPath location.groupRead location.version location.kind location.key := by
  unfold groupRead
  split
  · rename_i hcore
    rw [path, hcore]
    rfl
  · rfl

namespace Proper

variable {location : Location} (h : location.Proper)
include h

theorem segment_of_mem {part : String} (hmem : part ∈ [location.group, location.version, location.kind])
    (hne : part ≠ "") : Segment part :=
  ⟨hne, (h.plain part hmem).1, (h.plain part hmem).2.1, (h.plain part hmem).2.2⟩

theorem accepted : location.key.Accepted := by
  obtain ⟨text, hparse⟩ := h.keyed
  exact (Key.parse_eq_ok_iff.mp hparse).2

theorem segment_name : Segment location.key.name.text :=
  segment_of_validateName h.accepted.name

theorem segment_scope : Segment location.scopeSegment := by
  unfold scopeSegment
  cases hscope : location.key.scope with
  | none => exact ⟨by decide, by decide, by decide, by decide⟩
  | some space => exact segment_of_validateName (h.accepted.scope space hscope)

/-- No namespace is called like the segments that stand for none and for all. -/
theorem scope_ne_special {space : Namespace} (hscope : location.key.scope = some space) :
    space.text ≠ noNamespace ∧ space.text ≠ allNamespaces := by
  have hvalid := h.accepted.scope space hscope
  constructor
  · intro heq
    exact not_mem_of_validateName (c := '_') hvalid (by decide) (by rw [heq]; decide)
  · intro heq
    exact not_mem_of_validateName (c := '*') hvalid (by decide) (by rw [heq]; decide)

theorem routable :
    Routable location.groupRead location.version location.kind location.scopeSegment where
  notCore := by
    unfold groupRead
    split
    · decide
    · assumption
  group := by
    unfold groupRead
    split
    · exact fun hne => absurd rfl hne
    · exact h.segment_of_mem (by simp)
  version := by
    obtain ⟨apiVersion, hparse⟩ := h.declared
    exact h.segment_of_mem (by simp) (version_ne_empty_of_parseApiVersion hparse)
  kind := h.segment_of_mem (by simp) h.kind
  segment := h.segment_scope

/-- The route of the path of a place. -/
theorem parse_path : Route.parse (splitQuery location.path).1 =
    some ⟨location.groupRead, location.version, location.kind, location.scopeSegment,
      some location.key.name.text⟩ := by
  rw [path_eq, splitQuery_objectPath h.routable h.segment_name,
    parse_objectPath h.routable h.segment_name]
  rfl

/-- The segment of the namespace is read back. -/
theorem scope_route (group version kind : String) (name : Option String) :
    (Route.mk group version kind location.scopeSegment name).scope = location.key.scope := by
  unfold scopeSegment
  cases hscope : location.key.scope with
  | none => exact if_pos (.inl rfl)
  | some space =>
    obtain ⟨hnone, hall⟩ := h.scope_ne_special hscope
    exact if_neg fun hor => hor.elim hnone hall

/-- The segment tells whether there is a namespace. -/
theorem scopeSegment_ne_iff : location.scopeSegment ≠ noNamespace ↔ location.key.scope.isSome := by
  unfold scopeSegment
  cases hscope : location.key.scope with
  | none => simp
  | some space => simpa using (h.scope_ne_special hscope).1

end Proper

/-- Places with the same path are read alike. -/
theorem eq_of_path_eq {location other : Location} (h : location.Proper) (hother : other.Proper)
    (same : other.path = location.path) :
    other.groupRead = location.groupRead ∧ other.version = location.version ∧
      other.kind = location.kind ∧ other.key = location.key := by
  have hroute := hother.parse_path
  rw [same, h.parse_path, Option.some.injEq, Route.mk.injEq] at hroute
  obtain ⟨hgroup, hversion, hkind, hsegment, hname⟩ := hroute
  have hscope : other.key.scope = location.key.scope := by
    rw [← hother.scope_route "" "" "" none, ← h.scope_route "" "" "" none, hsegment]
  have hkey : other.key = location.key := by
    calc other.key = ⟨other.key.scope, ⟨other.key.name.text⟩⟩ := rfl
      _ = ⟨location.key.scope, ⟨location.key.name.text⟩⟩ := by rw [hscope, Option.some.inj hname]
      _ = location.key := rfl
  exact ⟨hgroup.symm, hversion.symm, hkind.symm, hkey⟩

/-- Groups that are read alike are the same, or both stand for the core group. -/
theorem groupRead_eq_iff {location other : Location} : other.groupRead = location.groupRead ↔
    other.group = location.group ∨ (other.group = coreGroup ∧ location.group = "") ∨
      (other.group = "" ∧ location.group = coreGroup) := by
  unfold groupRead
  split <;> split <;> grind

/-- **Paths and places.**  The path of a place is read as a route to that place, where the word for the
    core group stands for the core group.  Two places have the same path exactly if they are the same, or
    differ in nothing but in how they name the core group. -/
theorem route_of_path {location : Location} (h : location.Proper) :
    (∃ route, Route.parse (splitQuery location.path).1 = some route ∧
      route.group = (if location.group = coreGroup then "" else location.group) ∧
      route.version = location.version ∧ route.kind = location.kind ∧
      route.name = some location.key.name.text ∧
      route.key location.key.name.text = location.key ∧
      (route.type.namespaced = true ↔ location.key.scope.isSome = true)) ∧
    ∀ other : Location, other.Proper → (other.path = location.path ↔
      (other.group = location.group ∨ (other.group = coreGroup ∧ location.group = "") ∨
        (other.group = "" ∧ location.group = coreGroup)) ∧
      other.version = location.version ∧ other.kind = location.kind ∧ other.key = location.key) := by
  constructor
  · refine ⟨_, h.parse_path, rfl, rfl, rfl, rfl, ?_, ?_⟩
    · rw [Route.key, h.scope_route]
    · rw [Route.type, bne_iff_ne, h.scopeSegment_ne_iff]
  · intro other hother
    rw [← groupRead_eq_iff]
    constructor
    · exact eq_of_path_eq h hother
    · rintro ⟨hgroup, hversion, hkind, hkey⟩
      rw [path_eq, path_eq, hgroup, hversion, hkind, hkey]

/-! ### A group that is called like the core group in paths -/

namespace Lookalikes

/-- A place in a group called `core`. -/
def called : Location := ⟨"core", "v1", "Widget", .namespaced "ns" "a"⟩

/-- The same place in the core group. -/
def meant : Location := ⟨"", "v1", "Widget", .namespaced "ns" "a"⟩

/-- A place whose parts look like the words that paths have, and are none where they stand. -/
def harmless : Location := ⟨"core.example", "core", "*", .namespaced "core" "core"⟩

theorem proper_called : called.Proper :=
  ⟨⟨"core/v1", rfl⟩, by decide, ⟨"ns/a", rfl⟩, by decide⟩

theorem proper_meant : meant.Proper := ⟨⟨"v1", rfl⟩, by decide, ⟨"ns/a", rfl⟩, by decide⟩

/-- The path of a place in the group `core` is read as one of the core group, whose path it is too. -/
theorem read_as_core_group :
    called.Proper ∧ meant.Proper ∧ called ≠ meant ∧
    Route.parse (splitQuery called.path).1 = some ⟨"", "v1", "Widget", "ns", some "a"⟩ ∧
    called.path = meant.path :=
  ⟨proper_called, proper_meant, by decide, by decide +kernel, rfl⟩

/-- Other parts are read back as they are, and such a place shares its path with none of another group. -/
theorem harmless_read_back :
    harmless.Proper ∧ called.Proper ∧
    (∃ route, Route.parse (splitQuery harmless.path).1 = some route ∧
      route.group = "core.example" ∧ route.version = "core" ∧ route.kind = "*" ∧
      route.name = some "core" ∧ route.key "core" = .namespaced "core" "core") ∧
    called.path ≠ harmless.path := by
  have proper : harmless.Proper := ⟨⟨"core.example/core", rfl⟩, by decide, ⟨"core/core", rfl⟩, by decide⟩
  obtain ⟨⟨route, hparse, hgroup, hversion, hkind, hname, hkey, _⟩, hsame⟩ := route_of_path proper
  refine ⟨proper, proper_called, ⟨route, hparse, ?_, hversion, hkind, hname, hkey⟩, fun h => ?_⟩
  · rw [hgroup]
    decide
  · obtain ⟨_, hversion, _⟩ := (hsame called proper_called).mp h
    exact absurd hversion (by decide)

end Lookalikes

end Location

end Wire

end Reconciliation
