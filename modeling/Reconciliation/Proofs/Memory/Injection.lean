import Mathlib.Logic.Function.Basic
import Reconciliation.Proofs.Memory.Failure
import Reconciliation.Proofs.Memory.Serving

namespace Reconciliation.Memory

/-!
# Faults that are queued

* `waiting` — the faults of one operation among all that wait, the oldest first;
* `Queues` — a store beside five queues of faults, one for each operation;
* `step_queues`, `transcript_queues` — the store with one queue for all answers as this one does;
* `taken?`, `outcomes`, `returned`, `queued` — the fault that a call returns, those that the calls of a run
  return, and those that a run queues;
* `waiting_step`, `waiting_append_queued` — what one event does to the faults of an operation, and from
  this what a run does;
* `Injection`, `faults_in_turn` — which calls of a run from the empty store return which fault.

The store looks for the first fault of an operation among those of all operations and takes it out from
where it stands.  That this is a queue for each operation is seen by way of `waiting`: what is taken is the
head of the operation's own faults, and the faults of other operations stay as they are.
-/

/-! ### The faults of one operation -/

/-- The faults that wait for an operation, the oldest first. -/
def waiting (op : Operation) (faults : List (Operation × StoreError)) : List StoreError :=
  (faults.filter fun fault => fault.1 = op).map (·.2)

theorem waiting_append (op : Operation) (first second : List (Operation × StoreError)) :
    waiting op (first ++ second) = waiting op first ++ waiting op second := by
  simp [waiting]

theorem waiting_singleton (op other : Operation) (error : StoreError) :
    waiting op [(other, error)] = if other = op then [error] else [] := by
  by_cases h : other = op <;> simp [waiting, h]

theorem waiting_eq_nil_iff {op : Operation} {faults : List (Operation × StoreError)} :
    waiting op faults = [] ↔ takeFault? op faults = none := by
  rw [takeFault?_eq_none_iff]
  simp [waiting]

/-- The fault that is taken is the head of those of its operation, and those of the others stay. -/
theorem waiting_of_takeFault? {op : Operation} {fault : StoreError}
    {faults rest : List (Operation × StoreError)} (h : takeFault? op faults = some (fault, rest)) :
    waiting op faults = fault :: waiting op rest ∧
      ∀ other, other ≠ op → waiting other rest = waiting other faults := by
  cases consumed_of_takeFault? h with
  | taken before later foreign =>
    have hbefore : waiting op before = [] := by simpa [waiting] using foreign
    refine ⟨by rw [waiting_append, waiting_append, hbefore]; simp [waiting], fun other hne => ?_⟩
    rw [waiting_append, waiting_append]
    simp [waiting, hne.symm]
  | untouched _ foreign =>
    rw [takeFault?_eq_none_iff.mpr foreign] at h
    cases h

/-! ### Calls with and without a fault -/

@[simp] theorem operation?_call (stamp : Stamp) (asked : Store.Call) :
    (Event.call stamp asked).operation? = some asked.operation := by
  cases asked <;> rfl

/-- The state in which no fault waits, and that is else the same. -/
def unfaulted (m : Memory) : Memory := { m with faults := [] }

/-- An event that leaves the faults, and does what it would do if none waited. -/
structure Unhindered (event : Event) (m : Memory) : Prop where
  faults : (step event m).2.faults = m.faults
  same : step event m.unfaulted = ((step event m).1, (step event m).2.unfaulted)

/-- Every call is counted, and returns the fault that waits for it or is not hindered. -/
theorem step_call_cases (stamp : Stamp) (asked : Store.Call) (m : Memory) :
    (∃ fault rest, takeFault? asked.operation m.faults = some (fault, rest) ∧
      step (.call stamp asked) m =
        (.error fault, { m.counted asked.operation with faults := rest })) ∨
    (takeFault? asked.operation m.faults = none ∧ Unhindered (.call stamp asked) m ∧
      (step (.call stamp asked) m).2.calls = m.calls.bump asked.operation) := by
  obtain ⟨act, hdetached, hstep⟩ := exists_act stamp asked
  rcases call_cases asked.operation act m with ⟨fault, rest, htake, hcall⟩ | ⟨htake, hcall⟩
  · exact .inl ⟨fault, rest, htake, by rw [hstep, hcall]; rfl⟩
  · have hacts : step (.call stamp asked) m = act (m.counted asked.operation) :=
      (hstep m).trans hcall
    refine .inr ⟨htake, ⟨?_, ?_⟩, ?_⟩
    · rw [hacts]
      exact (hdetached.settings (m.counted asked.operation)).1
    · -- The state without faults differs from the counted one in what the action does not look at.
      have hblank : act (m.unfaulted.counted asked.operation) =
          ((act (m.counted asked.operation)).1, { (act (m.counted asked.operation)).2 with
            calls := (m.counted asked.operation).calls, faults := [] }) :=
        (hdetached (m.counted asked.operation) (m.counted asked.operation).calls []).1
      rw [hacts, hstep m.unfaulted, call_of_unfaulted rfl, hblank, ← hdetached.calls_eq]
      rfl
    · rw [hacts, hdetached.calls_eq]
      rfl

theorem unhindered_insert (stamp : Stamp) (object : Object) (m : Memory) :
    Unhindered (.insert stamp object) m := by
  constructor
  · exact (sameSettings_insert stamp object m).1
  · cases hgvk : object.gvk with
    | error error => simp only [step, insert, unfaulted, hgvk, mapAnswer]
    | ok gvk =>
      simp only [step, insert, hgvk, mapAnswer]
      rfl

/-- How often an operation was called is how often it was called before, and once more for its call. -/
theorem calls_step (op : Operation) (event : Event) (m : Memory) :
    (step event m).2.calls.of op =
      m.calls.of op + if event.operation? = some op then 1 else 0 := by
  cases event with
  | call stamp asked =>
    have hcounted : (step (.call stamp asked) m).2.calls = m.calls.bump asked.operation := by
      rcases step_call_cases stamp asked m with ⟨_, _, _, h⟩ | ⟨_, _, h⟩
      · rw [h]
        rfl
      · exact h
    rw [hcounted, CallCounts.of_bump, operation?_call]
    by_cases hop : op = asked.operation
    · simp [hop]
    · simp [hop, Ne.symm hop]
  | insert stamp object =>
    cases hgvk : object.gvk <;> simp only [step, insert, hgvk, mapAnswer] <;> rfl
  | failNext other error => rfl
  | restrict types => rfl

/-! ### Five queues -/

/-- A store in which no fault waits, beside the faults of each operation, the oldest first. -/
structure Queues where
  memory : Memory
  waiting : Operation → List StoreError

namespace Queues

/-- What an event does beside the queues. -/
def lift (event : Event) (q : Queues) : Store.Answer × Queues :=
  ((Memory.step event q.memory).1, { q with memory := (Memory.step event q.memory).2 })

/-- The answer to an event, and what it leaves.  A fault that is queued comes after those of its
    operation; a call takes the first fault of its own operation, and acts if there is none. -/
def step (event : Event) (q : Queues) : Store.Answer × Queues :=
  match event with
  | .failNext op error =>
    (.ok none, { q with waiting := Function.update q.waiting op (q.waiting op ++ [error]) })
  | .call stamp asked =>
    match q.waiting asked.operation with
    | [] => lift (.call stamp asked) q
    | fault :: rest =>
      (.error fault,
        ⟨q.memory.counted asked.operation, Function.update q.waiting asked.operation rest⟩)
  | .insert stamp object => lift (.insert stamp object) q
  | .restrict types => lift (.restrict types) q

/-- The events of a run, each with its answer. -/
def transcript (q : Queues) : List Event → List (Event × Store.Answer)
  | [] => []
  | event :: rest => (event, (q.step event).1) :: transcript (q.step event).2 rest

end Queues

/-- The queues that a state stands for. -/
def queues (m : Memory) : Queues := ⟨m.unfaulted, fun op => waiting op m.faults⟩

theorem lift_queues {event : Event} {m : Memory} (h : Unhindered event m) :
    (queues m).lift event = ((step event m).1, queues (step event m).2) := by
  simp only [Queues.lift, queues, h.same, h.faults]

/-- **Step.** An event does to the state what it does to the queues that the state stands for. -/
theorem step_queues (event : Event) (m : Memory) :
    (queues m).step event = ((step event m).1, queues (step event m).2) := by
  cases event with
  | call stamp asked =>
    unfold Queues.step
    rcases step_call_cases stamp asked m with ⟨fault, rest, htake, hstep⟩ | ⟨htake, hfree, _⟩
    · -- The fault is the first of its queue, and the other queues stay.
      obtain ⟨hown, hothers⟩ := waiting_of_takeFault? htake
      have hqueue : (queues m).waiting asked.operation = fault :: waiting asked.operation rest := hown
      have hrest : Function.update (queues m).waiting asked.operation (waiting asked.operation rest) =
          fun op => waiting op rest := by
        funext op
        by_cases hop : op = asked.operation
        · rw [hop, Function.update_self]
        · rw [Function.update_of_ne hop]
          exact (hothers op hop).symm
      simp only [hqueue, hrest, hstep]
      rfl
    · have hqueue : (queues m).waiting asked.operation = [] := waiting_eq_nil_iff.mpr htake
      simp only [hqueue]
      exact lift_queues hfree
  | insert stamp object => exact lift_queues (unhindered_insert stamp object m)
  | failNext op error =>
    -- The fault goes to the end of its own queue.
    have hqueues : (fun other => waiting other (m.faults ++ [(op, error)])) =
        Function.update (queues m).waiting op ((queues m).waiting op ++ [error]) := by
      funext other
      rw [waiting_append, waiting_singleton]
      by_cases hop : other = op
      · rw [hop, Function.update_self, if_pos rfl]
        rfl
      · rw [Function.update_of_ne hop, if_neg (Ne.symm hop), List.append_nil]
        rfl
    simp only [Queues.step, ← hqueues]
    rfl
  | restrict types => exact lift_queues ⟨rfl, rfl⟩

/-- **Run.** The store answers as the queues do. -/
theorem transcript_queues (m : Memory) (events : List Event) :
    (queues m).transcript events = m.transcript events := by
  induction events generalizing m with
  | nil => rfl
  | cons event events ih => rw [Queues.transcript, transcript, step_queues, ih]

/-! ### What is queued, and what is returned -/

/-- The fault that an event queues for an operation. -/
def Event.queued (op : Operation) : Event → List StoreError
  | .failNext other error => if other = op then [error] else []
  | .call _ _ | .insert _ _ | .restrict _ => []

/-- The faults that some events queue for an operation. -/
def queued (op : Operation) (events : List Event) : List StoreError :=
  events.flatMap (·.queued op)

/-- The fault that a call of an operation returns: there are fewer that wait after it than before it. -/
def taken? (op : Operation) (event : Event) (m : Memory) : Option StoreError :=
  if event.operation? = some op ∧ (step event m).2.faults.length < m.faults.length then
    (step event m).1.failure?
  else none

/-- For each call of an operation in a run, the fault that it returns, if it returns one. -/
def outcomes (op : Operation) (m : Memory) : List Event → List (Option StoreError)
  | [] => []
  | event :: rest =>
    if event.operation? = some op then taken? op event m :: outcomes op (step event m).2 rest
    else outcomes op (step event m).2 rest

/-- The faults that the calls of an operation return in a run. -/
def returned (op : Operation) (m : Memory) (events : List Event) : List StoreError :=
  (outcomes op m events).reduceOption

/-- Whether an event is a call of an operation, or queues a fault for it. -/
def Event.concerns (op : Operation) (event : Event) : Bool :=
  event.operation? = some op || !(event.queued op).isEmpty

/-! ### What one event does to the faults of an operation -/

theorem length_of_takeFault? {op : Operation} {fault : StoreError}
    {faults rest : List (Operation × StoreError)} (h : takeFault? op faults = some (fault, rest)) :
    rest.length < faults.length := by
  cases consumed_of_takeFault? h with
  | taken before later _ => simp
  | untouched _ foreign =>
    rw [takeFault?_eq_none_iff.mpr foreign] at h
    cases h

/-- A call returns the oldest fault that waits for its operation, and no event returns one of another. -/
theorem taken?_eq (op : Operation) (event : Event) (m : Memory) :
    taken? op event m = if event.operation? = some op then (waiting op m.faults).head? else none := by
  by_cases hop : event.operation? = some op
  · cases event with
    | call stamp asked =>
      obtain rfl : asked.operation = op := by simpa using hop
      rw [taken?, if_pos hop]
      rcases step_call_cases stamp asked m with ⟨fault, rest, htake, hstep⟩ | ⟨htake, hfree, _⟩
      · rw [hstep, if_pos ⟨hop, length_of_takeFault? htake⟩, (waiting_of_takeFault? htake).1]
        rfl
      · rw [if_neg (by simp [hfree.faults]), waiting_eq_nil_iff.mpr htake]
        rfl
    | _ => cases hop
  · rw [taken?, if_neg (fun h => hop h.1), if_neg hop]

/-- **Step.** The faults of an operation that wait before an event and the one that it queues are the one
    that it returns and those that wait after it. -/
theorem waiting_step (op : Operation) (event : Event) (m : Memory) :
    waiting op m.faults ++ event.queued op =
      (taken? op event m).toList ++ waiting op (step event m).2.faults := by
  rw [taken?_eq]
  cases event with
  | call stamp asked =>
    rw [Event.queued, List.append_nil, operation?_call]
    rcases step_call_cases stamp asked m with ⟨fault, rest, htake, hstep⟩ | ⟨htake, hfree, _⟩
    · obtain ⟨hown, hothers⟩ := waiting_of_takeFault? htake
      rw [hstep]
      by_cases hop : asked.operation = op
      · subst hop
        rw [if_pos rfl, hown]
        rfl
      · rw [if_neg (fun h => hop (Option.some.inj h)), ← hothers op (Ne.symm hop)]
        rfl
    · rw [hfree.faults]
      split
      · rename_i hop
        rw [← Option.some.inj hop, waiting_eq_nil_iff.mpr htake]
        rfl
      · rfl
  | insert stamp object =>
    rw [(unhindered_insert stamp object m).faults]
    exact List.append_nil _
  | failNext other error =>
    show _ = waiting op (m.faults ++ [(other, error)])
    rw [waiting_append, waiting_singleton]
    rfl
  | restrict types => exact List.append_nil _

theorem returned_cons (op : Operation) (m : Memory) (event : Event) (rest : List Event) :
    returned op m (event :: rest) = (taken? op event m).toList ++ returned op (step event m).2 rest := by
  rw [returned, outcomes]
  split
  · cases taken? op event m <;> rfl
  · rename_i hop
    rw [taken?_eq, if_neg hop]
    rfl

/-! ### What a run does to the faults of an operation -/

/-- **Run.** The faults of an operation that wait before a run and those that it queues are those that it
    returns and those that wait after it, in this order. -/
theorem waiting_append_queued (op : Operation) (m : Memory) (events : List Event) :
    waiting op m.faults ++ queued op events =
      returned op m events ++ waiting op (m.after events).faults := by
  induction events generalizing m with
  | nil => exact List.append_nil _
  | cons event events ih =>
    -- The step moves what is queued by the event past what is returned by it.
    calc waiting op m.faults ++ queued op (event :: events)
        = (waiting op m.faults ++ event.queued op) ++ queued op events := by
          rw [List.append_assoc, queued, List.flatMap_cons, queued]
      _ = (taken? op event m).toList ++
            (waiting op (step event m).2.faults ++ queued op events) := by
          rw [waiting_step, List.append_assoc]
      _ = (taken? op event m).toList ++ (returned op (step event m).2 events ++
            waiting op ((step event m).2.after events).faults) := by rw [ih]
      _ = returned op m (event :: events) ++ waiting op (m.after (event :: events)).faults := by
          rw [returned_cons, List.append_assoc]
          rfl

/-- In a run from the empty store, what is queued for an operation is what it returns and what waits. -/
theorem queued_eq (op : Operation) (events : List Event) :
    queued op events = returned op empty events ++ waiting op (empty.after events).faults :=
  waiting_append_queued op empty events

/-- What a call of an operation returns depends on its own faults alone. -/
theorem outcomes_filter_concerns {op : Operation} {m m' : Memory}
    (same : waiting op m.faults = waiting op m'.faults) (events : List Event) :
    outcomes op m events = outcomes op m' (events.filter (·.concerns op)) := by
  induction events generalizing m m' with
  | nil => rfl
  | cons event events ih =>
    have htaken (event : Event) : taken? op event m = taken? op event m' := by
      rw [taken?_eq, taken?_eq, same]
    by_cases hconcerns : event.concerns op
    · -- The event does the same to the faults of the operation in both states.
      have hsame : waiting op (step event m).2.faults = waiting op (step event m').2.faults := by
        have hstep := waiting_step op event m
        rw [same, htaken, waiting_step op event m'] at hstep
        exact (List.append_cancel_left hstep).symm
      rw [List.filter_cons_of_pos hconcerns, outcomes, outcomes, htaken, ih hsame]
    · -- The event does nothing to the faults of the operation.
      obtain ⟨hop, hqueued⟩ : event.operation? ≠ some op ∧ event.queued op = [] := by
        simpa [Event.concerns] using hconcerns
      have hkept : waiting op (step event m).2.faults = waiting op m'.faults := by
        have hstep := waiting_step op event m
        rw [taken?_eq, if_neg hop, hqueued, List.append_nil] at hstep
        exact hstep.symm.trans same
      rw [List.filter_cons_of_neg hconcerns, outcomes, if_neg hop, ih hkept]

/-- **Run.** An operation was called as often as before the run, and once more for each of its calls. -/
theorem calls_after (op : Operation) (m : Memory) (events : List Event) :
    (m.after events).calls.of op = m.calls.of op + events.countP (·.operation? = some op) := by
  induction events generalizing m with
  | nil => rfl
  | cons event events ih =>
    have hafter : m.after (event :: events) = (step event m).2.after events := rfl
    rw [hafter, ih, calls_step, List.countP_cons]
    simp only [decide_eq_true_eq]
    omega

/-! ### Faults in turn -/

/-- A call that returns no fault answers as it would if none waited for any operation. -/
theorem answer_call (stamp : Stamp) (asked : Store.Call) (m : Memory) :
    (step (.call stamp asked) m).1 = match taken? asked.operation (.call stamp asked) m with
      | some fault => .error fault
      | none => (step (.call stamp asked) m.unfaulted).1 := by
  rw [taken?_eq, if_pos (operation?_call stamp asked)]
  rcases step_call_cases stamp asked m with ⟨fault, rest, htake, hstep⟩ | ⟨htake, hfree, _⟩
  · rw [hstep, (waiting_of_takeFault? htake).1]
    rfl
  · rw [waiting_eq_nil_iff.mpr htake, hfree.same]
    rfl

/-- Two faults of different operations may be queued in either order. -/
theorem queues_swap {first second : Operation} (hne : first ≠ second) (fault other : StoreError)
    (m : Memory) :
    queues (m.after [.failNext first fault, .failNext second other]) =
      queues (m.after [.failNext second other, .failNext first fault]) := by
  have hwaiting (op : Operation) :
      waiting op (m.faults ++ [(first, fault)] ++ [(second, other)]) =
        waiting op (m.faults ++ [(second, other)] ++ [(first, fault)]) := by
    simp only [waiting_append]
    -- At most one of the two faults is one of the operation.
    by_cases hop : first = op
    · have hsecond : second ≠ op := fun h => hne (hop.trans h.symm)
      rw [waiting_singleton op second, if_neg hsecond, List.append_nil, List.append_nil]
    · rw [waiting_singleton op first, if_neg hop, List.append_nil, List.append_nil]
  exact congrArg (Queues.mk _) (funext hwaiting)

/-- What is to be known about the faults in a run from the empty store.  The number of faults that the
    calls of an operation have returned is the place of the next one among those queued for it. -/
structure Injection (events : List Event) : Prop where
  /-- All answers are those of a store with one queue for each operation. -/
  as_queues : empty.transcript events = Queues.transcript ⟨empty, fun _ => []⟩ events
  /-- The next call returns the oldest fault of its operation that has not been returned; if all have been,
      it answers as in the same state without any faults. -/
  next : ∀ (stamp : Stamp) (asked : Store.Call), let op := asked.operation
    let oldest := (queued op events)[(returned op empty events).length]?
    taken? op (.call stamp asked) (empty.after events) = oldest ∧
      (step (.call stamp asked) (empty.after events)).1 = match oldest with
        | some fault => .error fault
        | none => (step (.call stamp asked) (empty.after events).unfaulted).1
  /-- Each fault is returned at most once, in the order in which they have been queued. -/
  once : ∀ op, returned op empty events <+: queued op events
  /-- Each call of an operation returns what it would return without the calls and the faults of other
      operations. -/
  apart : ∀ op, outcomes op empty events = outcomes op empty (events.filter (·.concerns op))
  /-- Two faults of different operations may be queued in either order. -/
  swap : ∀ (first second : Operation) (fault other : StoreError) (later : List Event), first ≠ second →
    (empty.after (events ++ [.failNext first fault, .failNext second other])).transcript later =
      (empty.after (events ++ [.failNext second other, .failNext first fault])).transcript later
  /-- Every call is counted, if it has failed or not. -/
  counts : ∀ op, (empty.after events).calls.of op = events.countP (·.operation? = some op)

/-- **Faults in turn.**  In every run from the empty store, whatever its events are, the faults that are
    queued are returned as by five queues, one for each operation. -/
theorem faults_in_turn (events : List Event) : Injection events where
  as_queues := (transcript_queues empty events).symm
  next stamp asked := by
    have htaken : taken? asked.operation (.call stamp asked) (empty.after events) =
        (queued asked.operation events)[(returned asked.operation empty events).length]? := by
      rw [taken?_eq, if_pos (operation?_call stamp asked), queued_eq, List.getElem?_append_right
        (Nat.le_refl _), Nat.sub_self, List.head?_eq_getElem?]
    exact ⟨htaken, htaken ▸ answer_call stamp asked _⟩
  once op := ⟨_, (queued_eq op events).symm⟩
  apart op := outcomes_filter_concerns rfl events
  swap first second fault other later hne := by
    rw [after_append, after_append, ← transcript_queues, ← transcript_queues, queues_swap hne]
  counts op := by
    rw [calls_after]
    cases op <;> exact Nat.zero_add _

/-- Faults of three operations wait, and a read and two deletes return theirs past those of the others;
    the third delete finds none. -/
example :
    let down (text : String) : StoreError := .internal text
    let delete : Event := .call .verbatim (.delete Specimen.secrets (Specimen.key "a") ⟨none, none⟩)
    let events : List Event := [.failNext .update (down "1"), .failNext .delete (down "2"),
      .failNext .get (down "3"), .failNext .delete (down "4"), delete,
      .call .verbatim (.get Specimen.secrets (Specimen.key "a")), delete, delete]
    outcomes .delete empty events = [some (down "2"), some (down "4"), none] ∧
      outcomes .get empty events = [some (down "3")] ∧
      waiting .update (empty.after events).faults = [down "1"] := by
  decide

end Reconciliation.Memory
