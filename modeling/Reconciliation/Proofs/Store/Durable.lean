import Reconciliation.Proofs.Memory.Serving

namespace Reconciliation

/-!
# Stores that lose nothing between two calls

* `Store.Durable` — a store that finds again what it has found, and finds what it has made;
* `Store.FaultFree` — a state of such a store;
* `Store.Durable.within` — a durable store within a larger world;
* `Memory.durable` — the store in memory is durable while no fault waits.
-/

namespace Store

/-- A store that finds again what it has found, and finds what it has made, in all states that are sound.
    Reads and creates lead from sound states to sound states. -/
structure Durable {σ : Type} (store : Store σ) (sound : σ → Prop) : Prop where
  sound_get (type : ResourceType) (key : Key) {state : σ} :
    sound state → sound (store.get type key state).2
  sound_create (object : Object) {state : σ} : sound state → sound (store.create object state).2
  get_again {type : ResourceType} {key : Key} {found : Object} {state : σ} :
    sound state → (store.get type key state).1 = .ok found →
      (store.get type key (store.get type key state).2).1 = .ok found
  get_created {object stored : Object} {type : ResourceType} {state : σ} :
    sound state → object.gvk = .ok type.gvk → (store.create object state).1 = .ok stored →
      (store.get type object.key (store.create object state).2).1 = .ok stored

/-- A state of a store in which, and after which, nothing is lost. -/
def FaultFree {σ : Type} (store : Store σ) (state : σ) : Prop :=
  ∃ sound, Durable store sound ∧ sound state

/-- A store stays durable within a larger world, if what is put there is what is seen of it. -/
theorem Durable.within {σ τ : Type} {store : Store σ} {sound : σ → Prop} (h : Durable store sound)
    {part : τ → σ} {replace : σ → τ → τ} (sees : ∀ inner state, part (replace inner state) = inner) :
    Durable (store.within part replace) fun state => sound (part state) where
  sound_get type key {state} hsound := by
    show sound (part (replace _ state))
    rw [sees]
    exact h.sound_get type key hsound
  sound_create object {state} hsound := by
    show sound (part (replace _ state))
    rw [sees]
    exact h.sound_create object hsound
  get_again {type key found state} hsound hfound := by
    show (store.get type key (part (replace _ state))).1 = .ok found
    rw [sees]
    exact h.get_again hsound hfound
  get_created {object stored type state} hsound htyped hstored := by
    show (store.get type object.key (part (replace _ state))).1 = .ok stored
    rw [sees]
    exact h.get_created hsound htyped hstored

end Store

namespace Memory

/-- What a create has made is visible under each type with its group and kind. -/
theorem visible_of_create {stamp : Stamp} {object stored : Object} {type : ResourceType} {m : Memory}
    (typed : object.gvk = .ok type.gvk) (created : (create stamp object m).1 = .ok stored) :
    (create stamp object m).2.visible type object.key = some stored := by
  obtain ⟨gvk, hgvk, _, hknown, _, _, hafter⟩ := create_eq_ok created
  obtain rfl : gvk = type.gvk := Except.ok.inj (hgvk.symm.trans typed)
  rw [hafter, visible_eq_some_iff]
  exact ⟨hknown, (Table.find?_insert _ _ _ _).trans (if_pos rfl)⟩

/-- The store in memory is durable while no fault waits. -/
theorem durable (stamp : Stamp) : (store stamp).Durable fun m => m.faults = [] where
  sound_get type key {m} quiet := by
    show (get type key m).2.faults = []
    rw [get_of_quiet quiet]
    exact quiet
  sound_create object {m} quiet := by
    have hsettings := settings_of_uses (.call stamp (.create object)) rfl m quiet
    exact hsettings.1.trans quiet
  get_again {type key found m} quiet hfound := by
    have hquiet : (m.counted .get).faults = [] := quiet
    show (get type key (get type key m).2).1 = .ok found
    rw [get_of_quiet quiet, get_of_quiet hquiet, ← hfound]
    show _ = (get type key m).1
    rw [get_of_quiet quiet]
    rfl
  get_created {object stored type m} quiet typed created := by
    have hquiet : (create stamp object m).2.faults = [] :=
      (settings_of_uses (.call stamp (.create object)) rfl m quiet).1.trans quiet
    show (get type object.key (create stamp object m).2).1 = .ok stored
    rw [get_of_quiet hquiet, visible_of_create typed created]
    rfl

end Memory

end Reconciliation
