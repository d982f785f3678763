import Reconciliation.Proofs.Store.Call
import Reconciliation.Store.Memory

namespace Reconciliation

/-!
# Runs of the store in memory

* `Stamp.verbatim`, `Specimen` — a stamp, and a type with its objects, for the runs that are looked at
  one by one;
* `Memory.Event` — one thing that happens to a store: a call of some client, or a preparation;
* `Memory.step`, `Memory.after`, `Memory.transcript` — the answer to an event, the state after
  several events, and the events of a run with their answers;
* `Memory.Reachable` — the states of the runs that begin with the empty store;
* `Memory.Change` — all that an event can do to the objects and the number of writes;
* `step_change` — every event does one of these things.

The calls of several clients take effect one after the other, so that any list of events is a way
in which clients are interleaved.
-/

/-- A stamp whose identities are the texts that they are made from. -/
def Stamp.verbatim : Stamp := ⟨"2026-01-01T00:00:00Z", fun seed => seed⟩

namespace Specimen

/-- The type of the objects below. -/
def secrets : ResourceType := ⟨"", "v1", "Secret", "secrets", true⟩

/-- The key of a name in one namespace. -/
def key (name : String) : Key := .namespaced "ns" name

/-- An object without labels, owners or a body. -/
def secret (key : Key) : Object := .ofKey secrets.gvk key

/-- One of these objects. -/
def sample : Object := secret (key "a")

end Specimen

namespace Memory

/-! ### Events and runs -/

/-- One thing that happens to a store in memory. -/
inductive Event where
  /-- A call, and where the store takes its time and its identities from while it is made. -/
  | call (stamp : Stamp) (call : Store.Call)
  | insert (stamp : Stamp) (object : Object)
  | failNext (op : Operation) (error : StoreError)
  | restrict (types : List ResourceType)

/-- Whether an event is one that changes objects if it succeeds. -/
def Event.changes : Event → Bool
  | .call _ (.create _) | .call _ (.update _) | .call _ (.delete _ _ _) | .insert _ _ => true
  | .call _ (.get _ _) | .call _ (.list _ _) | .failNext _ _ | .restrict _ => false

/-- The answer to an event, and the state that it leaves. -/
def step (event : Event) (m : Memory) : Store.Answer × Memory :=
  match event with
  | .call stamp call => (store stamp).perform call m
  | .insert stamp object => mapAnswer (Except.map fun stored => some (.object stored))
      (m.insert stamp object)
  | .failNext op error => (.ok none, m.failNext op error)
  | .restrict types => (.ok none, m.restrict types)

/-- The state after some events. -/
def after (m : Memory) (events : List Event) : Memory :=
  events.foldl (fun m event => (step event m).2) m

/-- The events of a run, each with its answer. -/
def transcript (m : Memory) : List Event → List (Event × Store.Answer)
  | [] => []
  | event :: rest => (event, (step event m).1) :: transcript (step event m).2 rest

/-- The states in which a run from the empty store can be. -/
def Reachable (m : Memory) : Prop := ∃ events, m = empty.after events

@[simp] theorem after_nil (m : Memory) : m.after [] = m := rfl

theorem after_append (m : Memory) (first second : List Event) :
    m.after (first ++ second) = (m.after first).after second :=
  List.foldl_append

/-! ### What an event can do -/

/-- The object that an event puts into a slot if it succeeds, before it is stamped. -/
inductive Puts (m : Memory) (slot : Slot) : Event → Stamp → Object → Prop
  | insert (stamp : Stamp) (object : Object) : Puts m slot (.insert stamp object) stamp object
  | create (stamp : Stamp) (object : Object) (free : m.objects.find? slot = none) :
      Puts m slot (.call stamp (.create object)) stamp (asNew object)
  | update (stamp : Stamp) (object current : Object) (token : ResourceVersion)
      (held : m.objects.find? slot = some current)
      (own : object.metadata.version = some token)
      (same : current.metadata.version = some token) :
      Puts m slot (.call stamp (.update object)) stamp (inPlaceOf current object)

/-- What an event can do to the objects and the number of writes. -/
inductive Change (m : Memory) : Event → Store.Answer → Memory → Prop
  /-- Nothing: it only reads or prepares, or it fails. -/
  | keep {event : Event} {answer : Store.Answer} {m' : Memory}
      (idle : event.changes = true → ∃ error, answer = .error error)
      (objects : m'.objects = m.objects) (version : m'.version = m.version) :
      Change m event answer m'
  /-- It writes one object, stamped with the next number. -/
  | write {event : Event} {stamp : Stamp} {base : Object} {gvk : GroupVersionKind} {m' : Memory}
      (puts : Puts m (slotOf gvk base) event stamp base) (typed : base.gvk = .ok gvk)
      (objects : m'.objects =
        m.objects.insert (slotOf gvk base) (stamped stamp (slotOf gvk base) (m.version + 1) base))
      (version : m'.version = m.version + 1) :
      Change m event (.ok (some (.object (stamped stamp (slotOf gvk base) (m.version + 1) base)))) m'
  /-- It removes one object and deals with its dependents. -/
  | remove {stamp : Stamp} {type : ResourceType} {key : Key} {options : DeleteOptions}
      {current : Object} {m' : Memory}
      (held : m.objects.find? (slotAt type key) = some current)
      (guarded : ∀ token, options.precondition = some token →
        current.metadata.version = some token)
      (objects : m'.objects =
        settle (options.propagation.getD .background) current (m.objects.erase (slotAt type key)))
      (version : m'.version = m.version) :
      Change m (.call stamp (.delete type key options)) (.ok none) m'

/-! ### Every event does one of these things -/

/-- A call fails with the fault that waits for it, or acts on the state in which it is counted. -/
theorem call_cases {α : Type} (op : Operation) (act : Memory → Except StoreError α × Memory)
    (m : Memory) :
    (∃ error rest, takeFault? op m.faults = some (error, rest) ∧
      call op act m = (.error error, { m with calls := m.calls.bump op, faults := rest })) ∨
    (takeFault? op m.faults = none ∧ call op act m = act { m with calls := m.calls.bump op }) := by
  unfold call
  cases hfault : takeFault? op m.faults with
  | none => exact Or.inr ⟨rfl, by simp [hfault]⟩
  | some found => exact Or.inl ⟨found.1, found.2, rfl, by simp [hfault]⟩

/-- A failure that leaves objects and number as they were is no change. -/
theorem Change.refused {m m' : Memory} {event : Event} {error : StoreError}
    (objects : m'.objects = m.objects) (version : m'.version = m.version) :
    Change m event (.error error) m' :=
  .keep (fun _ => ⟨error, rfl⟩) objects version

/-- A call does what its action does in the state in which it is counted. -/
theorem call_change {α : Type} {op : Operation} {act : Memory → Except StoreError α × Memory}
    {bring : α → Option Payload} {event : Event} {m : Memory}
    (acts : Change m event ((act { m with calls := m.calls.bump op }).1.map bring)
      (act { m with calls := m.calls.bump op }).2) :
    Change m event (mapAnswer (Except.map bring) (call op act m)).1
      (mapAnswer (Except.map bring) (call op act m)).2 := by
  rcases call_cases op act m with ⟨error, rest, _, h⟩ | ⟨_, h⟩
  · rw [h]
    exact .refused rfl rfl
  · rw [h]
    exact acts

theorem get_change (stamp : Stamp) (type : ResourceType) (key : Key) (m : Memory) :
    Change m (.call stamp (.get type key)) (step (.call stamp (.get type key)) m).1
      (step (.call stamp (.get type key)) m).2 := by
  refine call_change (.keep (fun h => by cases h) ?_ ?_) <;> dsimp only <;> split <;>
    first | rfl | (split <;> rfl)

theorem list_change (stamp : Stamp) (type : ResourceType) (filter : Filter) (m : Memory) :
    Change m (.call stamp (.list type filter)) (step (.call stamp (.list type filter)) m).1
      (step (.call stamp (.list type filter)) m).2 := by
  refine call_change (.keep (fun h => by cases h) ?_ ?_) <;> dsimp only <;> split <;> rfl

theorem insert_change (stamp : Stamp) (object : Object) (m : Memory) :
    Change m (.insert stamp object) (step (.insert stamp object) m).1
      (step (.insert stamp object) m).2 := by
  cases hgvk : object.gvk with
  | error error =>
    have h : step (.insert stamp object) m = (.error (.schema error), m) := by
      simp [step, insert, hgvk, mapAnswer, Except.map]
    rw [h]
    exact .refused rfl rfl
  | ok gvk =>
    have h : step (.insert stamp object) m =
        (.ok (some (.object (m.write stamp (slotOf gvk object) object).1)),
          (m.write stamp (slotOf gvk object) object).2) := by
      simp [step, insert, hgvk, mapAnswer, Except.map]
    rw [h]
    exact .write (.insert stamp object) hgvk rfl rfl

theorem create_change (stamp : Stamp) (object : Object) (m : Memory) :
    Change m (.call stamp (.create object)) (step (.call stamp (.create object)) m).1
      (step (.call stamp (.create object)) m).2 := by
  refine call_change ?_
  dsimp only
  cases hgvk : object.gvk with
  | error error => exact .refused rfl rfl
  | ok gvk =>
    cases hname : validateName object.metadata.name.text with
    | error error => exact .refused rfl rfl
    | ok _ =>
      dsimp only
      -- The type has to be known, and the slot free.
      split
      · exact .refused rfl rfl
      · split
        · exact .refused rfl rfl
        · rename_i hfree
          have hfree : m.objects.find? (slotOf gvk object) = none := by
            simpa [Table.contains] using hfree
          exact .write (.create stamp object hfree) hgvk rfl rfl

theorem update_change (stamp : Stamp) (object : Object) (m : Memory) :
    Change m (.call stamp (.update object)) (step (.call stamp (.update object)) m).1
      (step (.call stamp (.update object)) m).2 := by
  refine call_change ?_
  dsimp only
  cases hgvk : object.gvk with
  | error error => exact .refused rfl rfl
  | ok gvk =>
    dsimp only
    cases hheld : m.objects.find? (slotOf gvk object) with
    | none => exact .refused rfl rfl
    | some current =>
      cases hown : object.metadata.version with
      | none => exact .refused rfl rfl
      | some token =>
        dsimp only
        -- Only here the tokens are compared.
        split
        · rename_i hsame
          exact .write (.update stamp object current token hheld hown hsame) hgvk rfl rfl
        · exact .refused rfl rfl

theorem delete_change (stamp : Stamp) (type : ResourceType) (key : Key) (options : DeleteOptions)
    (m : Memory) :
    Change m (.call stamp (.delete type key options))
      (step (.call stamp (.delete type key options)) m).1
      (step (.call stamp (.delete type key options)) m).2 := by
  refine call_change ?_
  dsimp only
  cases hheld : m.objects.find? (slotAt type key) with
  | none => exact .refused rfl rfl
  | some current =>
    cases hguard : options.precondition with
    | none => exact .remove hheld (by simp [hguard]) rfl rfl
    | some token =>
      dsimp only
      split
      · rename_i hsame
        exact .remove hheld (by simp [hguard, hsame]) rfl rfl
      · exact .refused rfl rfl

/-- Every event does one of the things that `Change` lists. -/
theorem step_change (event : Event) (m : Memory) :
    Change m event (step event m).1 (step event m).2 := by
  cases event with
  | call stamp call =>
    cases call with
    | get type key => exact get_change stamp type key m
    | list type filter => exact list_change stamp type filter m
    | create object => exact create_change stamp object m
    | update object => exact update_change stamp object m
    | delete type key options => exact delete_change stamp type key options m
  | insert stamp object => exact insert_change stamp object m
  | failNext op error => exact .keep (fun h => by cases h) rfl rfl
  | restrict types => exact .keep (fun h => by cases h) rfl rfl

end Memory

end Reconciliation
