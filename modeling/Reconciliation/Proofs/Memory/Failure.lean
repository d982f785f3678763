import Reconciliation.Proofs.Memory.Run

namespace Reconciliation.Memory

/-!
# What a failure leaves of a store in memory

* `Event.operation?` — the operation that an event calls;
* `Consumed` — the faults that wait after a failed call, by those that waited before it;
* `Spared` — a state after a failed call: the call is counted, the fault that it returned is gone, and
  nothing else is different;
* `call_spares` — every call whose action changes nothing when it fails leaves such a state;
* `failure_changes_nothing` — so does every failed event.
-/

/-- The operation that an event calls.  A preparation is no call. -/
def Event.operation? : Event → Option Operation
  | .call _ (.get _ _) => some .get
  | .call _ (.list _ _) => some .list
  | .call _ (.create _) => some .create
  | .call _ (.update _) => some .update
  | .call _ (.delete _ _ _) => some .delete
  | .insert _ _ | .failNext _ _ | .restrict _ => none

/-! ### The fault that a call takes -/

/-- The faults that wait after a call that failed with an error. -/
inductive Consumed (op : Operation) (error : StoreError) :
    List (Operation × StoreError) → List (Operation × StoreError) → Prop
  /-- The error is the oldest fault that waited for the operation. -/
  | taken (before later : List (Operation × StoreError))
      (foreign : ∀ fault ∈ before, fault.1 ≠ op) :
      Consumed op error (before ++ (op, error) :: later) (before ++ later)
  /-- No fault waited for the operation. -/
  | untouched (faults : List (Operation × StoreError)) (foreign : ∀ fault ∈ faults, fault.1 ≠ op) :
      Consumed op error faults faults

theorem Consumed.cons {op other : Operation} {error waiting : StoreError}
    {faults rest : List (Operation × StoreError)} (h : Consumed op error faults rest)
    (hne : other ≠ op) : Consumed op error ((other, waiting) :: faults) ((other, waiting) :: rest) := by
  cases h with
  | taken before later foreign =>
    exact .taken ((other, waiting) :: before) later (List.forall_mem_cons.mpr ⟨hne, foreign⟩)
  | untouched _ foreign => exact .untouched _ (List.forall_mem_cons.mpr ⟨hne, foreign⟩)

/-- A call that takes a fault takes the oldest one of its operation. -/
theorem consumed_of_takeFault? {op : Operation} {error : StoreError}
    {faults rest : List (Operation × StoreError)} (h : takeFault? op faults = some (error, rest)) :
    Consumed op error faults rest := by
  induction faults generalizing rest with
  | nil => cases h
  | cons fault faults ih =>
    obtain ⟨other, waiting⟩ := fault
    rw [takeFault?] at h
    split at h
    · rename_i heq
      cases h
      exact heq ▸ .taken [] faults (fun _ h => by cases h)
    · rename_i hne
      obtain ⟨⟨found, left⟩, hfound, heq⟩ := Option.map_eq_some_iff.mp h
      cases heq
      exact (ih hfound).cons hne

/-- A call takes no fault exactly if none of its operation waits. -/
theorem takeFault?_eq_none_iff {op : Operation} {faults : List (Operation × StoreError)} :
    takeFault? op faults = none ↔ ∀ fault ∈ faults, fault.1 ≠ op := by
  induction faults with
  | nil => simp [takeFault?]
  | cons fault faults ih =>
    rw [takeFault?, List.forall_mem_cons, ← ih]
    by_cases hop : fault.1 = op
    · simp [hop]
    · simp [hop]

/-! ### Failed calls -/

/-- What a call of an operation that failed with an error leaves of a state. -/
def Spared (op : Operation) (error : StoreError) (m m' : Memory) : Prop :=
  ∃ faults, Consumed op error m.faults faults ∧
    m' = { m with calls := m.calls.bump op, faults := faults }

/-- A failed call leaves the state as it was, if its action does so whenever it fails. -/
theorem call_spares {α : Type} {op : Operation} {act : Memory → Except StoreError α × Memory}
    {bring : α → Option Payload} {m : Memory} {error : StoreError}
    (harmless : ∀ {m error}, (act m).1 = .error error → (act m).2 = m)
    (failed : (mapAnswer (Except.map bring) (call op act m)).1 = .error error) :
    Spared op error m (mapAnswer (Except.map bring) (call op act m)).2 := by
  rcases call_cases op act m with ⟨waiting, rest, htake, hcall⟩ | ⟨htake, hcall⟩
  · -- The fault that waited is the answer.
    rw [hcall] at failed ⊢
    obtain rfl : waiting = error := Except.error.inj failed
    exact ⟨rest, consumed_of_takeFault? htake, rfl⟩
  · rw [hcall] at failed ⊢
    refine ⟨m.faults, .untouched _ (takeFault?_eq_none_iff.mp htake), ?_⟩
    dsimp only [mapAnswer] at failed ⊢
    cases hact : (act { m with calls := m.calls.bump op }).1 with
    | ok value =>
      rw [hact] at failed
      cases failed
    | error failure => exact harmless hact

section Calls

variable {m : Memory} {error : StoreError} (stamp : Stamp) (type : ResourceType) (key : Key)

theorem get_spares (failed : (step (.call stamp (.get type key)) m).1 = .error error) :
    Spared .get error m (step (.call stamp (.get type key)) m).2 := by
  refine call_spares (fun {m _} _ => ?_) failed
  -- A read leaves the state as it is, whatever it brings.
  split
  · split <;> rfl
  · rfl

theorem list_spares (filter : Filter)
    (failed : (step (.call stamp (.list type filter)) m).1 = .error error) :
    Spared .list error m (step (.call stamp (.list type filter)) m).2 := by
  refine call_spares (fun {m _} _ => ?_) failed
  split <;> rfl

theorem create_spares (object : Object)
    (failed : (step (.call stamp (.create object)) m).1 = .error error) :
    Spared .create error m (step (.call stamp (.create object)) m).2 := by
  refine call_spares (fun {m _} hact => ?_) failed
  dsimp only at hact ⊢
  cases hgvk : object.gvk with
  | error error => rfl
  | ok gvk =>
    cases hname : validateName object.metadata.name.text with
    | error error => rfl
    | ok _ =>
      rw [hgvk, hname] at hact
      dsimp only at hact ⊢
      split
      · rfl
      · rename_i hknown
        rw [if_neg hknown] at hact
        split
        · rfl
        · -- With a free slot the object is written, and there is no error.
          rename_i hfree
          rw [if_neg hfree] at hact
          cases hact

theorem update_spares (object : Object)
    (failed : (step (.call stamp (.update object)) m).1 = .error error) :
    Spared .update error m (step (.call stamp (.update object)) m).2 := by
  refine call_spares (fun {m _} hact => ?_) failed
  dsimp only at hact ⊢
  cases hgvk : object.gvk with
  | error error => rfl
  | ok gvk =>
    rw [hgvk] at hact
    dsimp only at hact ⊢
    cases hheld : m.objects.find? (slotOf gvk object) with
    | none => rfl
    | some current =>
      cases hown : object.metadata.version with
      | none => rfl
      | some token =>
        rw [hheld, hown] at hact
        dsimp only at hact ⊢
        split
        · -- With the token that is stored the object is written.
          rename_i hsame
          rw [if_pos hsame] at hact
          cases hact
        · rfl

theorem delete_spares (options : DeleteOptions)
    (failed : (step (.call stamp (.delete type key options)) m).1 = .error error) :
    Spared .delete error m (step (.call stamp (.delete type key options)) m).2 := by
  refine call_spares (fun {m _} hact => ?_) failed
  dsimp only at hact ⊢
  cases hheld : m.objects.find? (slotAt type key) with
  | none => rfl
  | some current =>
    rw [hheld] at hact
    dsimp only at hact ⊢
    cases hguard : options.precondition with
    | none =>
      rw [hguard] at hact
      cases hact
    | some token =>
      rw [hguard] at hact
      dsimp only at hact ⊢
      split
      · rename_i hsame
        rw [if_pos hsame] at hact
        cases hact
      · rfl

end Calls

/-- A failed call of any kind leaves a spared state. -/
theorem step_call_spares {m : Memory} {error : StoreError} {stamp : Stamp} {call : Store.Call}
    (failed : (step (.call stamp call) m).1 = .error error) :
    ∃ op, (Event.call stamp call).operation? = some op ∧
      Spared op error m (step (.call stamp call) m).2 := by
  cases call with
  | get type key => exact ⟨.get, rfl, get_spares stamp type key failed⟩
  | list type filter => exact ⟨.list, rfl, list_spares stamp type filter failed⟩
  | create object => exact ⟨.create, rfl, create_spares stamp object failed⟩
  | update object => exact ⟨.update, rfl, update_spares stamp object failed⟩
  | delete type key options => exact ⟨.delete, rfl, delete_spares stamp type key options failed⟩

/-- **Failures change nothing.**  In every state, reached by a run or not, and whatever faults wait:
    an insert that fails leaves the state exactly as it was; and a call that fails leaves objects,
    version counter and installed types as they were, is counted once for its operation, and takes
    nothing but the fault that it returned, if one waited for it. -/
theorem failure_changes_nothing {m : Memory} {event : Event} {error : StoreError}
    (failed : (step event m).1 = .error error) :
    match event.operation? with
    | none => (step event m).2 = m
    | some op => ∃ faults, Consumed op error m.faults faults ∧
        (step event m).2 = { m with calls := m.calls.bump op, faults := faults } := by
  cases event with
  | call stamp call =>
    obtain ⟨op, hop, hspared⟩ := step_call_spares failed
    rw [hop]
    exact hspared
  | insert stamp object =>
    show (step (.insert stamp object) m).2 = m
    cases hgvk : object.gvk with
    | error problem => simp only [step, insert, hgvk, mapAnswer]
    | ok gvk =>
      simp only [step, insert, hgvk, mapAnswer] at failed
      cases failed
  | failNext op error => cases failed
  | restrict types => cases failed

namespace Failing

open Specimen

/-- The fault that waits for an update. -/
def down : StoreError := .internal "down"

/-- The store with the object, in which a fault waits for a read and one for an update. -/
def faulty : Memory :=
  empty.after [.insert .verbatim sample, .failNext .get (.http "reset"), .failNext .update down]

/-- The update takes its fault past the older one; a delete guarded by another token takes none and
    is refused; and an object without a type is not seeded. -/
theorem update_takes_fault :
    ((step (.call .verbatim (.update sample)) faulty).1 = .error down ∧
      ∃ faults, Consumed .update down faulty.faults faults ∧
        (step (.call .verbatim (.update sample)) faulty).2 =
          { faulty with calls := faulty.calls.bump .update, faults := faults }) ∧
    (∃ reason, (step (.call .verbatim (.delete secrets sample.key ⟨some ⟨"7"⟩, none⟩)) faulty).1 =
        .error (.conflict "ns/a" reason) ∧
      ∃ faults, Consumed .delete (.conflict "ns/a" reason) faulty.faults faults ∧
        (step (.call .verbatim (.delete secrets sample.key ⟨some ⟨"7"⟩, none⟩)) faulty).2 =
          { faulty with calls := faulty.calls.bump .delete, faults := faults }) ∧
    (step (.insert .verbatim { sample with kind := "" }) faulty).1 =
      .error (.schema (.missingField "kind")) ∧
    (step (.insert .verbatim { sample with kind := "" }) faulty).2 = faulty := by
  have hupdate : (step (.call .verbatim (.update sample)) faulty).1 = .error down := rfl
  have hdelete : (step (.call .verbatim (.delete secrets sample.key ⟨some ⟨"7"⟩, none⟩)) faulty).1 =
      .error (.conflict "ns/a" "precondition failed: expected version 7") := rfl
  have hinsert : (step (.insert .verbatim { sample with kind := "" }) faulty).1 =
      .error (.schema (.missingField "kind")) := rfl
  exact ⟨⟨hupdate, failure_changes_nothing hupdate⟩,
    ⟨_, hdelete, failure_changes_nothing hdelete⟩, hinsert, failure_changes_nothing hinsert⟩

end Failing

end Reconciliation.Memory
