import Reconciliation.Proofs.Memory.Serving

namespace Reconciliation

/-!
# Stores that are only read

* `Store.Read`, `Store.Unchanging` — the states that reads lead to, and a state in which reads do not
  change what is read;
* `Store.logged` — a store that notes what it is asked for;
* `Memory.unchanging_of_quiet` — reads of the store in memory change nothing that is read, while no fault
  waits.
-/

variable {σ : Type}

namespace Store

/-- The states to which gets lead. -/
inductive Read (store : Store σ) (start : σ) : σ → Prop
  | refl : Read store start start
  | get {state : σ} (h : Read store start state) (type : ResourceType) (key : Key) :
      Read store start (store.get type key state).2

/-- A state in which every get answers as it does at first, whatever has been got before. -/
def Unchanging (store : Store σ) (state : σ) : Prop :=
  ∀ later, store.Read state later →
    ∀ type key, (store.get type key later).1 = (store.get type key state).1

/-- A store that notes every call, in the order in which they are made, and passes it on. -/
def logged (store : Store σ) : Store (List Call × σ) where
  name := store.name
  get type key := noted (.get type key) (store.get type key)
  list type filter := noted (.list type filter) (store.list type filter)
  create object := noted (.create object) (store.create object)
  update object := noted (.update object) (store.update object)
  delete type key options := noted (.delete type key options) (store.delete type key options)
where
  /-- A call that is noted. -/
  noted {α : Type} (call : Call) (act : σ → α × σ) (state : List Call × σ) : α × List Call × σ :=
    ((act state.2).1, state.1 ++ [call], (act state.2).2)

end Store

/-- While no fault waits, a get finds what was there before other gets. -/
theorem Memory.unchanging_of_quiet (stamp : Stamp) {m : Memory} (quiet : m.faults = []) :
    (Memory.store stamp).Unchanging m := by
  have hsame : ∀ later, (Memory.store stamp).Read m later →
      later.objects = m.objects ∧ Memory.SameSettings m later := by
    intro later hread
    induction hread with
    | refl => exact ⟨rfl, rfl, rfl⟩
    | @get state _ type key ih =>
      obtain ⟨hobjects, hsettings⟩ := ih
      have hget : (Memory.store stamp).get type key state =
          ((state.visible type key).elim (.error (.absent type.kind key)) .ok, state.counted .get) :=
        Memory.get_of_quiet (hsettings.1.trans quiet) type key
      rw [hget]
      exact ⟨hobjects, hsettings⟩
  intro later hread type key
  obtain ⟨hobjects, hsettings⟩ := hsame later hread
  show (Memory.get type key later).1 = (Memory.get type key m).1
  rw [Memory.get_of_quiet (hsettings.1.trans quiet), Memory.get_of_quiet quiet,
    Memory.visible_congr type key hobjects hsettings]

end Reconciliation
