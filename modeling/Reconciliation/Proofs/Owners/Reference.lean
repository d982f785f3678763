import Mathlib.Data.List.Nodup
import Reconciliation.Proofs.Owners.Recurrence
import Reconciliation.Proofs.Owners.Summit
import Reconciliation.Proofs.Text.Cut

namespace Reconciliation

/-!
# References and the objects that they were made for

* `apiVersion_of_parseApiVersion` — an `apiVersion` that is parsed is written again as it was;
* `TypeTable.resolve_of_mem` — a registered type is found by its group, its kind and its version;
* `OwnerReference.controllerFor_eq_ok` — the reference that is made for an object declares its type;
* `Owners.typeOf_controllerFor`, `Owners.keyOf_controllerFor` — it points at the type and the key of the
  object;
* `Owners.find_controllerFor` — following it reads just this object.
-/

/-! ### Declared types -/

/-- The `apiVersion` that a group and a version are written as is the one that they were read from. -/
theorem apiVersion_of_parseApiVersion {apiVersion : String} {gvk : GroupVersionKind}
    (h : parseApiVersion apiVersion = .ok (gvk.group, gvk.version)) : gvk.apiVersion = apiVersion := by
  unfold parseApiVersion at h
  unfold GroupVersionKind.apiVersion
  split at h
  · rename_i group version hcut
    split at h
    · cases h
    · rename_i hparts
      obtain ⟨rfl, rfl⟩ := Prod.mk.inj (Except.ok.inj h)
      simp only [Bool.or_eq_true, not_or] at hparts
      rw [if_neg hparts.1.1]
      apply String.toList_inj.mp
      rw [(Text.toList_of_cutFirst? hcut).1]
      simp
  · split at h
    · cases h
    · obtain ⟨hgroup, rfl⟩ := Prod.mk.inj (Except.ok.inj h)
      rw [← hgroup]
      rfl

/-- A registered type is found by its group, its kind and its version. -/
theorem TypeTable.resolve_of_mem {table : TypeTable} {type : ResourceType}
    (registered : type ∈ table.types) (versioned : type.version ≠ "") :
    table.resolve type.group type.kind type.version = .ok type := by
  cases hresolve : table.resolve type.group type.kind type.version with
  | error error =>
    unfold resolve at hresolve
    dsimp only at hresolve
    split at hresolve
    · cases hresolve
    · rename_i hnone
      have hother := List.find?_eq_none.mp hnone type registered
      simp at hother
  | ok found =>
    obtain ⟨hfound, hgroup, hkind, hversion⟩ := resolve_eq_ok hresolve
    -- No two registered types have the same group, kind and version.
    have hdistinct : (table.types.map ResourceType.gvk).Nodup := List.pairwise_map.mpr table.distinct
    have hsame : found.gvk = type.gvk := by
      rw [ResourceType.gvk, ResourceType.gvk, hgroup, hkind, hversion versioned]
    exact congrArg _ (List.inj_on_of_nodup_map hdistinct hfound registered hsame)

/-- The reference that is made for an object declares the type of the object, and carries its name. -/
theorem OwnerReference.controllerFor_eq_ok {owner : Object} {gvk : GroupVersionKind}
    (typed : owner.gvk = .ok gvk) :
    ∃ reference, controllerFor owner = .ok reference ∧ reference.gvk = .ok gvk ∧
      reference.name = owner.metadata.name := by
  obtain ⟨hparse, hkind⟩ := GroupVersionKind.ofApiVersion_eq_ok typed
  refine ⟨_, bind_eq_ok.mpr ⟨gvk, typed, rfl⟩, ?_, rfl⟩
  show GroupVersionKind.ofApiVersion gvk.apiVersion gvk.kind = .ok gvk
  rw [apiVersion_of_parseApiVersion hparse, hkind]
  exact typed

/-! ### Following a reference -/

namespace Owners

variable {type : ResourceType}

/-- A reference points at the registered type that it declares. -/
theorem typeOf_of_registered {σ : Type} {types : TypeTable} {reference : OwnerReference}
    (registered : type ∈ types.types) (typed : reference.gvk = .ok type.gvk) (store : Store σ) :
    (Owners.mk types.resolveGvk store).typeOf reference = .ok type := by
  have hversion : type.version ≠ "" :=
    version_ne_empty_of_parseApiVersion (GroupVersionKind.ofApiVersion_eq_ok typed).1
  exact bind_eq_ok.mpr ⟨type.gvk, mapError_eq_ok.mpr typed,
    mapError_eq_ok.mpr (TypeTable.resolve_of_mem registered hversion)⟩

/-- From the namespace of an object, and from everywhere if its type has no namespaces, a reference to its
    name points at its key. -/
theorem keyOf_eq_key {owner : Object} {reference : OwnerReference} {scope : Option Namespace}
    (named : reference.name = owner.metadata.name)
    (fits : type.namespaced = owner.metadata.scope.isSome)
    (near : type.namespaced = true → scope = owner.metadata.scope) :
    keyOf type scope reference = owner.key := by
  unfold keyOf Object.key
  rw [named]
  cases hnamespaced : type.namespaced with
  | true => rw [if_pos rfl, near hnamespaced]
  | false =>
    have hnone : owner.metadata.scope = none := by
      rw [hnamespaced] at fits
      exact Option.isNone_iff_eq_none.mp (Option.isSome_eq_false_iff.mp fits.symm)
    rw [hnone]
    rfl

/-- An object whose type is installed is read from its slot, as long as no fault waits. -/
theorem get_of_held {m : Memory} (reachable : m.Reachable) (quiet : m.faults = []) {slot : Slot}
    {owner : Object} (held : m.objects.find? slot = some owner) (typed : owner.gvk = .ok type.gvk)
    (known : m.knows type.group type.kind = true) :
    slot = Memory.slotAt type owner.key ∧
      Memory.get type owner.key m = (.ok owner, m.counted .get) := by
  obtain ⟨gvk, hgvk, hslot⟩ := (reachable.wellKept.kept held).filed
  obtain rfl : gvk = type.gvk := Except.ok.inj (hgvk.symm.trans typed)
  have hheld : m.objects.find? (Memory.slotAt type owner.key) = some owner := by
    rw [← held, hslot]
    rfl
  refine ⟨hslot, ?_⟩
  rw [Memory.get_of_quiet quiet, Memory.visible_of_knows known, hheld]
  rfl

/-- **Back to the owner.**  Let an object be held in a state of a run from the empty store in which no fault
    waits, let its group, kind and version be registered, as a type with namespaces exactly if it is in one,
    and let the type be installed.  Then a reference can be made for it, and to follow this from the
    namespace of the object, or from anywhere if the type has no namespaces, is one get, which brings the
    object; the answer is the first of its references that is flagged as controller. -/
theorem find_controllerFor {m : Memory} (reachable : m.Reachable) (quiet : m.faults = []) {slot : Slot}
    {owner : Object} (held : m.objects.find? slot = some owner) {types : TypeTable}
    {type : ResourceType} (registered : type ∈ types.types) (typed : owner.gvk = .ok type.gvk)
    (fits : type.namespaced = owner.metadata.scope.isSome)
    (known : m.knows type.group type.kind = true) {scope : Option Namespace}
    (near : type.namespaced = true → scope = owner.metadata.scope) (stamp : Stamp) :
    ∃ reference, OwnerReference.controllerFor owner = .ok reference ∧
      (Owners.mk types.resolveGvk (Memory.store stamp)).logged.find scope reference ([], m) =
        (.ok (owner.metadata.owners.find? fun other => other.controller == some true),
          [.get type owner.key], m.counted .get) ∧
      slot = Memory.slotAt type owner.key ∧
      Memory.get type owner.key m = (.ok owner, m.counted .get) := by
  obtain ⟨reference, hmade, hdeclared, hnamed⟩ := OwnerReference.controllerFor_eq_ok typed
  obtain ⟨hslot, hget⟩ := get_of_held reachable quiet held typed known
  have htype : (Owners.mk types.resolveGvk (Memory.store stamp)).typeOf reference = .ok type :=
    typeOf_of_registered registered hdeclared (Memory.store stamp)
  have hfind : (Owners.mk types.resolveGvk (Memory.store stamp)).find scope reference m =
      (.ok owner.controller?, m.counted .get) := by
    have hstore : (Memory.store stamp).get type owner.key m = (.ok owner, m.counted .get) := hget
    rw [find, htype]
    dsimp only
    rw [keyOf_eq_key hnamed fits near, hstore]
  refine ⟨reference, hmade, ?_, hslot, hget⟩
  rw [find_logged, hfind, asked, htype]
  dsimp only
  rw [keyOf_eq_key hnamed fits near]
  rfl

end Owners

/-! ### A type that is registered twice -/

namespace Owners.Versions

/-- The first version of a type, which lives in no namespace. -/
def early : ResourceType := ⟨"a.example", "v1", "Widget", "widgets", false⟩

/-- The later version, which does. -/
def late : ResourceType := ⟨"a.example", "v2", "Widget", "widgets", true⟩

/-- Both versions are registered. -/
def types : TypeTable := .ofList [early, late]

/-- A reference to an owner, flagged as controller or not. -/
def reference (name : String) (controller : Option Bool) : OwnerReference :=
  ⟨"v1", "Team", ⟨name⟩, ⟨name⟩, controller, none⟩

/-- An object of one of the versions, with three owners. -/
def widget (version : String) (scope : Option Namespace) : Object :=
  (((Object.ofKey ⟨"a.example", version, "Widget"⟩ ⟨scope, ⟨"w"⟩⟩).withOwner
    (reference "x" (some false))).withOwner (reference "y" (some true))).withOwner
      (reference "z" (some true))

/-- Both versions are seeded under one name. -/
def seeding : List Memory.Event :=
  [.insert .verbatim (widget "v1" none), .insert .verbatim (widget "v2" (some ⟨"ns"⟩))]

/-- An object of the seed as it is held. -/
def stored (version : String) (scope : Option Namespace) (number : Nat) : Object :=
  Memory.stamped .verbatim ⟨"a.example", "Widget", ⟨scope, ⟨"w"⟩⟩⟩ number (widget version scope)

/-- The references that are made for the two lead back to the one in the namespace and to the one of the
    whole cluster, and to the controller that comes first. -/
theorem controllers_found :
    (∃ made, OwnerReference.controllerFor (stored "v2" (some ⟨"ns"⟩) 2) = .ok made ∧
      (Owners.mk types.resolveGvk (Memory.store .verbatim)).logged.find (some ⟨"ns"⟩) made
          ([], Memory.empty.after seeding) =
        (.ok (some (reference "y" (some true))),
          [.get late (.namespaced "ns" "w")],
          (Memory.empty.after seeding).counted .get)) ∧
    ∃ made, OwnerReference.controllerFor (stored "v1" none 1) = .ok made ∧
      (Owners.mk types.resolveGvk (Memory.store .verbatim)).logged.find (some ⟨"ns"⟩) made
          ([], Memory.empty.after seeding) =
        (.ok (some (reference "y" (some true))),
          [.get early (.cluster "w")],
          (Memory.empty.after seeding).counted .get) := by
  have reachable : (Memory.empty.after seeding).Reachable := ⟨seeding, rfl⟩
  have hlater : (Memory.empty.after seeding).objects.find? ⟨"a.example", "Widget", .namespaced "ns" "w"⟩ =
      some (stored "v2" (some ⟨"ns"⟩) 2) := by decide
  have hfirst : (Memory.empty.after seeding).objects.find? ⟨"a.example", "Widget", .cluster "w"⟩ =
      some (stored "v1" none 1) := by decide
  have hlate : late ∈ types.types := by decide
  have hearly : early ∈ types.types := by decide
  have hnear : late.namespaced = true → some ⟨"ns"⟩ = (stored "v2" (some ⟨"ns"⟩) 2).metadata.scope :=
    fun _ => rfl
  have hanywhere : early.namespaced = true → some ⟨"ns"⟩ = (stored "v1" none 1).metadata.scope :=
    fun h => by cases h
  obtain ⟨later, hlaterMade, hlaterFound, -⟩ :=
    find_controllerFor reachable rfl hlater hlate (by decide) rfl rfl hnear .verbatim
  obtain ⟨first, hfirstMade, hfirstFound, -⟩ :=
    find_controllerFor reachable rfl hfirst hearly (by decide) rfl rfl hanywhere .verbatim
  exact ⟨⟨later, hlaterMade, hlaterFound⟩, first, hfirstMade, hfirstFound⟩

end Owners.Versions

end Reconciliation
