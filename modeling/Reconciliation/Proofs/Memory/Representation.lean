import Reconciliation.Proofs.Discovery
import Reconciliation.Proofs.Memory.Content

namespace Reconciliation

/-!
# What the store in memory holds

* `Memory.Represents` — an object as its slot says it is, with an identity, a time of creation, and the
  token of a write;
* `Memory.represents_of_reachable` — so is every object of every state of a run, and no two objects
  carry the same token.

Reads and guards look at slots and tokens only, and rest on this.
-/

namespace Memory

/-- The object is what its slot says, and was written by one of the writes so far. -/
structure Represents (m : Memory) (slot : Slot) (object : Object) : Prop where
  group : ∃ version, parseApiVersion object.apiVersion = .ok (slot.group, version)
  kind : object.kind = slot.kind
  key : object.key = slot.key
  identified : ∃ uid, object.metadata.uid = some uid
  dated : ∃ created, object.metadata.created = some created
  numbered : ∃ number, 1 ≤ number ∧ number ≤ m.version ∧
    object.metadata.version = some ⟨toString number⟩

theorem Kept.represents {m : Memory} {slot : Slot} {object : Object}
    (h : Kept m.version slot object) : Represents m slot object := by
  obtain ⟨gvk, hgvk, rfl⟩ := h.filed
  obtain ⟨hparse, hkind⟩ := GroupVersionKind.ofApiVersion_eq_ok hgvk
  exact {
    group := ⟨gvk.version, hparse⟩
    kind := hkind.symm
    key := rfl
    identified := Option.isSome_iff_exists.mp h.identified
    dated := Option.isSome_iff_exists.mp h.dated
    numbered := h.numbered }

/-- **Representation.**  In every state of a run from the empty store, whatever is called, seeded,
    prepared to fail, or deleted with its dependents, every object is what its slot says, and no two
    objects carry the same token. -/
theorem represents_of_reachable {m : Memory} (reachable : m.Reachable) :
    (∀ slot object, m.objects.find? slot = some object → Represents m slot object) ∧
    ∀ slot other object twin, m.objects.find? slot = some object →
      m.objects.find? other = some twin →
        object.metadata.version = twin.metadata.version → slot = other :=
  ⟨fun _ _ held => (reachable.wellKept.kept held).represents,
    fun _ _ _ _ held hother hsame => reachable.wellKept.distinct held hother hsame⟩

namespace Orphaning

open Specimen

/-- An object that refers to no owner. -/
def latecomer : Object := secret (key "c")

/-- The latecomer is created at the second attempt, and then the owner is deleted. -/
def eventful : List Event :=
  seeding ++
    [.failNext .create (.internal "down"), .call .verbatim (.create latecomer),
      .call .verbatim (.create latecomer)] ++
    deletion

set_option maxRecDepth 4000 in
/-- The dependent, which was rewritten in passing, is still what its slot says, and the latecomer has
    another token. -/
theorem represents_dependent :
    (empty.after eventful).Reachable ∧
    (empty.after eventful).objects.find? slot = some (read.withoutOwners [⟨"owner-1"⟩]) ∧
    Represents (empty.after eventful) slot (read.withoutOwners [⟨"owner-1"⟩]) ∧
    ∃ created, (empty.after eventful).objects.find? (slotAt secrets latecomer.key) = some created ∧
      created.metadata.version ≠ read.metadata.version := by
  have hreachable : (empty.after eventful).Reachable := ⟨eventful, rfl⟩
  have hheld : (empty.after eventful).objects.find? slot =
      some (read.withoutOwners [⟨"owner-1"⟩]) := by decide
  have hcreated : (empty.after eventful).objects.find? (slotAt secrets latecomer.key) =
      some (stamped .verbatim (slotAt secrets latecomer.key) 3 latecomer) := by decide
  obtain ⟨hrepresents, hdistinct⟩ := represents_of_reachable hreachable
  refine ⟨hreachable, hheld, hrepresents _ _ hheld, _, hcreated, fun hsame => ?_⟩
  have hslots := hdistinct _ _ _ _ hcreated hheld hsame
  revert hslots
  decide

end Orphaning

end Memory

end Reconciliation
