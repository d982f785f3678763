import Mathlib.Data.List.Basic

namespace Reconciliation

/-!
# The first of a list

* `FirstOf` — the first element of a list that has a property;
* `find?_eq_some_iff_firstOf` — what a search from the front finds;
* `FirstOf.append` — what is first stays first when the list goes on.
-/

/-- The first element of a list that has a property. -/
def FirstOf {α : Type} (p : α → Prop) (xs : List α) (x : α) : Prop :=
  ∃ before after, xs = before ++ x :: after ∧ p x ∧ ∀ earlier ∈ before, ¬ p earlier

theorem find?_eq_some_iff_firstOf {α : Type} {p : α → Prop} [DecidablePred p] {xs : List α} {x : α} :
    xs.find? p = some x ↔ FirstOf p xs x := by
  rw [List.find?_eq_some_iff_append]
  constructor
  · rintro ⟨hx, before, after, rfl, hbefore⟩
    exact ⟨before, after, rfl, by simpa using hx, by simpa using hbefore⟩
  · rintro ⟨before, after, rfl, hx, hbefore⟩
    exact ⟨by simpa using hx, before, after, rfl, by simpa using hbefore⟩

/-- What is first in a list is first in every list that goes on from it. -/
theorem FirstOf.append {α : Type} {p : α → Prop} {xs : List α} {x : α} (h : FirstOf p xs x)
    (more : List α) : FirstOf p (xs ++ more) x := by
  obtain ⟨before, after, rfl, hx, hbefore⟩ := h
  exact ⟨before, after ++ more, by simp, hx, hbefore⟩

end Reconciliation
