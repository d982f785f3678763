import Reconciliation.Discovery
import Reconciliation.Proofs.Fallible

namespace Reconciliation

/-!
# Which type a declaration means

* `version_ne_empty_of_parseApiVersion` — an accepted version is not empty;
* `GroupVersionKind.ofApiVersion_eq_ok` — which types are declared by an `apiVersion` and a kind;
* `TypeTable.resolve_eq_ok` — the type that is found has the parts that were asked for.
-/

/-- An accepted version is not empty. -/
theorem version_ne_empty_of_parseApiVersion {apiVersion group version : String}
    (h : parseApiVersion apiVersion = .ok (group, version)) : version ≠ "" := by
  unfold parseApiVersion at h
  split at h
  · split at h
    · cases h
    · rename_i hparts
      cases h
      simp only [Bool.or_eq_true, not_or, Bool.not_eq_true, String.isEmpty_eq_false_iff] at hparts
      exact hparts.1.2
  · split at h
    · cases h
    · rename_i hversion
      cases h
      simpa using hversion

/-- The declared type has the parts of the `apiVersion` and the kind. -/
theorem GroupVersionKind.ofApiVersion_eq_ok {apiVersion kind : String} {gvk : GroupVersionKind}
    (h : ofApiVersion apiVersion kind = .ok gvk) :
    parseApiVersion apiVersion = .ok (gvk.group, gvk.version) ∧ gvk.kind = kind := by
  unfold ofApiVersion at h
  cases hparse : parseApiVersion apiVersion with
  | error error =>
    rw [hparse] at h
    cases h
  | ok parts =>
    rw [hparse] at h
    simp only [Bind.bind, Except.bind] at h
    split at h
    · cases h
    · cases h
      exact ⟨rfl, rfl⟩

namespace TypeTable

/-- The type that is found is registered, and has the group, the kind and the version that were asked for;
    without a version any will do. -/
theorem resolve_eq_ok {table : TypeTable} {group kind version : String} {type : ResourceType}
    (h : table.resolve group kind version = .ok type) :
    type ∈ table.types ∧ type.group = group ∧ type.kind = kind ∧
      (version ≠ "" → type.version = version) := by
  unfold resolve at h
  dsimp only at h
  split at h
  · rename_i found hfound
    obtain rfl := Except.ok.inj h
    have hfits := List.find?_some hfound
    simp only [Bool.and_eq_true, Bool.or_eq_true, beq_iff_eq, String.isEmpty_iff] at hfits
    obtain ⟨⟨hgroup, hkind⟩, hversion⟩ := hfits
    exact ⟨List.mem_of_find?_eq_some hfound, hgroup, hkind, hversion.resolve_left⟩
  · cases h

end TypeTable

end Reconciliation
