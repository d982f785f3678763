import Reconciliation.Proofs.Engine.Commons
import Reconciliation.Proofs.Engine.Contention
import Reconciliation.Proofs.Memory.Serving

namespace Reconciliation

/-!
# Clients that delete one object

* `Client.removing` — a client that deletes an object if there is one, guarded by the version that it
  read, with retries;
* `Client.attempts_removing` — each attempt of it reads, and deletes what was read;
* `Commons.Rests` — the last call of a client was a read that brought an object;
* `Commons.poised_run` — a client that is about to delete rests on such a read;
* `Commons.held_since_read` — a delete that succeeds removes the object that was read, which has been
  there at every moment since.

The guard is the token of the object that was read.  Nothing else gets that token, so that a delete
that passes its guard removes what its client has seen, and no later version.
-/

/-! ### What a client does -/

namespace Script

/-- What follows the delete of an attempt. -/
def afterDelete (key : Key) (answer : Store.Answer) : Script :=
  match answer with
  | .ok _ => ends (.done none)
  | .error failure => ends (.error (.store .delete key.display failure))

/-- The delete of an attempt. -/
def deleting (type : ResourceType) (key : Key) (options : DeleteOptions) : Script :=
  asks (.delete type key options) (afterDelete key)

/-- What follows the read of an attempt. -/
def afterProbe (type : ResourceType) (key : Key) (options : DeleteOptions) (answer : Store.Answer) :
    Script :=
  match Dialogue.objectOf answer with
  | .ok found => deleting type key (options.guardedBy found)
  | .error failure =>
    if failure.isNotFound then ends (.done none)
    else ends (.error (.store .get key.display failure))

/-- An attempt to delete an object if there is one. -/
def removing (type : ResourceType) (key : Key) (options : DeleteOptions) : Script :=
  asks (.get type key) (afterProbe type key options)

theorem exec_deleting {ρ : Type} (store : Store ρ) (type : ResourceType) (key : Key)
    (options : DeleteOptions) (rest : ρ) :
    (deleting type key options).exec store rest =
      match store.delete type key options rest with
      | (.error failure, rest) => (.error (.store .delete key.display failure), rest)
      | (.ok (), rest) => (.done none, rest) := by
  show (afterDelete key (Except.map (fun () => none)
    (store.delete type key options rest).1)).exec store (store.delete type key options rest).2 = _
  rcases store.delete type key options rest with ⟨failure | _, rest⟩
  · rfl
  · rfl

theorem exec_removing {ρ : Type} (store : Store ρ) (type : ResourceType) (key : Key)
    (options : DeleteOptions) (rest : ρ) :
    (removing type key options).exec store rest =
      match store.get type key rest with
      | (.ok found, rest) => (deleting type key (options.guardedBy found)).exec store rest
      | (.error failure, rest) =>
        if failure.isNotFound then (.done none, rest)
        else (.error (.store .get key.display failure), rest) := by
  show (afterProbe type key options (Except.map (fun found => some (.object found))
    (store.get type key rest).1)).exec store (store.get type key rest).2 = _
  rcases store.get type key rest with ⟨failure | found, rest⟩
  · show (if failure.isNotFound then _ else _ : Script).exec store rest = _
    dsimp only
    split <;> rfl
  · rfl

end Script

namespace Client

/-- A client that deletes an object if there is one. -/
def removing (policy : RetryPolicy) (target : Key) (type : ResourceType) (key : Key)
    (options : DeleteOptions) : Client :=
  ⟨policy, target, fun _ => ⟨[.deleteIfPresent type key options]⟩⟩

theorem attempts_removing (policy : RetryPolicy) (target : Key) (type : ResourceType) (key : Key)
    (options : DeleteOptions) :
    (removing policy target type key options).Attempts (Script.removing type key options) := by
  intro ρ store rest
  rw [Script.exec_removing]
  simp only [Script.exec_deleting]
  exact Chain.run_deleteIfPresent (fun _ => rfl) type key options rest

end Client

/-! ### Where a client is -/

namespace Script

variable {type : ResourceType} {key : Key} {options : DeleteOptions}

/-- Where a client is, and what it rests on if it is about to delete. -/
inductive Poised (type : ResourceType) (key : Key) (options : DeleteOptions) (rests : Object → Prop) :
    Script → Prop
  | reading (left : Nat) : Poised type key options rests ((removing type key options).again left)
  | deleting (left : Nat) {read : Object} (h : rests read) :
      Poised type key options rests ((deleting type key (options.guardedBy read)).andThen
        (settle (removing type key options) left))
  | ended (outcome : Outcome) : Poised type key options rests (.ends outcome)

theorem Poised.mono {rests later : Object → Prop} {script : Script}
    (h : Poised type key options rests script) (keeps : ∀ read, rests read → later read) :
    Poised type key options later script := by
  cases h with
  | reading left => exact .reading left
  | deleting left h => exact .deleting left (keeps _ h)
  | ended outcome => exact .ended outcome

/-- After an outcome a client has ended, or makes another attempt. -/
theorem poised_settle (rests : Object → Prop) (left : Nat) (outcome : Outcome) :
    Poised type key options rests (settle (removing type key options) left outcome) := by
  by_cases herror : outcome.code = .error
  · cases outcome with
    | error cause =>
      cases left with
      | zero => exact .ended _
      | succ fewer => exact .reading fewer
    | _ => cases herror
  · rw [settle_of_ne_error _ _ herror]
    exact .ended _

/-- **Step.** A client that hears an answer deletes only what a read has just brought. -/
theorem Poised.hear {rests later : Object → Prop} {script : Script} {answer : Store.Answer}
    (h : Poised type key options rests script)
    (brings : script.turn = .asks (.get type key) → ∀ found,
      Dialogue.objectOf (Dialogue.heardAs (.get type key) answer) = .ok found → later found) :
    Poised type key options later (script.hear answer) := by
  cases h with
  | reading left =>
    show Poised type key options later (Script.andThen
      (afterProbe type key options (Dialogue.heardAs (.get type key) answer)) _)
    have hbrings := brings rfl
    unfold afterProbe
    cases hobject : Dialogue.objectOf (Dialogue.heardAs (.get type key) answer) with
    | ok found => exact .deleting left (hbrings found hobject)
    | error failure =>
      dsimp only
      split
      · exact poised_settle later left _
      · exact poised_settle later left _
  | @deleting left read h =>
    show Poised type key options later (Script.andThen (afterDelete key
      (Dialogue.heardAs (.delete type key (options.guardedBy read)) answer)) _)
    unfold afterDelete
    split
    · exact poised_settle later left _
    · exact poised_settle later left _
  | ended outcome => exact .ended outcome

/-- A client about to delete is poised to do so, guarded by the version of an object. -/
theorem Poised.eq_deleting {rests : Object → Prop} {script : Script} {given : DeleteOptions}
    (h : Poised type key options rests script) (hturn : script.turn = .asks (.delete type key given)) :
    ∃ read, given = options.guardedBy read ∧ rests read := by
  cases h with
  | reading left => cases hturn
  | deleting left h =>
    cases hturn
    exact ⟨_, rfl, h⟩
  | ended outcome => cases hturn

/-- A client reads its object, or deletes it. -/
theorem Poised.call {rests : Object → Prop} {script : Script} {call : Store.Call}
    (h : Poised type key options rests script) (hturn : script.turn = .asks call) :
    call = .get type key ∨ ∃ given, call = .delete type key given := by
  cases h with
  | reading left =>
    cases hturn
    exact Or.inl rfl
  | deleting left h =>
    cases hturn
    exact Or.inr ⟨_, rfl⟩
  | ended outcome => cases hturn

/-- Whatever a client has heard, it reads its object, deletes it, or has ended. -/
theorem poised_after (left : Nat) (heard : List Store.Answer) :
    Poised type key options (fun _ => True) (((removing type key options).again left).after heard) := by
  induction heard using List.reverseRecOn with
  | nil => exact .reading left
  | append_singleton heard answer ih =>
    rw [after_concat]
    exact ih.hear fun _ _ _ => trivial

end Script

/-! ### What becomes of an object that was read -/

namespace Memory

/-- Whether an event is a delete. -/
def Event.deletes : Event → Bool
  | .call _ (.delete _ _ _) => true
  | _ => false

/-- An event that deletes nothing, or deletes what is in a slot. -/
def Event.DeletesOnly (type : ResourceType) (key : Key) (event : Event) : Prop :=
  event.deletes = false ∨ ∃ stamp options, event = .call stamp (.delete type key options)

variable {m m' : Memory} {event : Event} {answer : Store.Answer} {type : ResourceType} {key : Key}
  {read : Object}

/-- A token stays with its object while no other object is deleted. -/
theorem Change.sole_of_deletesOnly (c : Change m event answer m')
    (deletes : event.DeletesOnly type key) (h : Sole m (slotAt type key) read) :
    Sole m' (slotAt type key) read := by
  rcases deletes with hnone | ⟨stamp, options, rfl⟩
  · refine c.sole ?_ h
    unfold orphaned
    split
    · cases hnone
    · rfl
  · cases c with
    | keep _ objects version =>
      exact ⟨by rw [version]; exact h.used, by rw [objects]; exact h.only⟩
    | write puts _ _ _ => cases puts
    | remove _ _ objects version =>
      refine ⟨by rw [version]; exact h.used, fun {other twin} hfind hsame => ?_⟩
      rw [objects] at hfind
      -- Nothing is left in the slot, and nothing else had the token.
      obtain ⟨hne, before, hbefore, rfl⟩ := find?_remove hfind
      exact absurd (h.only hbefore hsame).1 hne

/-- An object that is still there after an event was there before. -/
theorem Change.held_before (c : Change m event answer m') {slot : Slot} (h : Sole m slot read)
    (held : m'.objects.find? slot = some read) : m.objects.find? slot = some read := by
  obtain ⟨number, hle, hversion⟩ := h.used
  obtain ⟨before, hbefore, hsame, _⟩ := c.carried held hle hversion
  obtain ⟨_, rfl⟩ := h.only hbefore (hsame.trans hversion.symm)
  exact hbefore

/-- A delete that succeeds finds an object that passes its guard, and leaves nothing in the slot. -/
theorem delete_answer {stamp : Stamp} {options : DeleteOptions} {payload : Option Payload}
    (h : (step (.call stamp (.delete type key options)) m).1 = .ok payload) :
    (∃ current, m.objects.find? (slotAt type key) = some current ∧
      ∀ token, options.precondition = some token → current.metadata.version = some token) ∧
    (step (.call stamp (.delete type key options)) m).2.objects.find? (slotAt type key) = none := by
  have c := delete_change stamp type key options m
  rw [h] at c
  generalize (step (.call stamp (.delete type key options)) m).2 = after at c
  cases c with
  | keep idle _ _ =>
    obtain ⟨error, herror⟩ := idle rfl
    cases herror
  | write puts _ _ _ => cases puts
  | remove held guarded objects _ =>
    refine ⟨⟨_, held, guarded⟩, Option.eq_none_iff_forall_ne_some.mpr fun object hfind => ?_⟩
    rw [objects] at hfind
    exact (find?_remove hfind).1 rfl

end Memory

/-! ### A delete rests on a read -/

namespace Commons

variable {ι : Type} [DecidableEq ι]

section Run

variable (clients : ι → Client) (type : ResourceType) (key : Key) (options : ι → DeleteOptions)

/-- What a client has still to do. -/
abbrev toRemove (s : Commons ι) (i : ι) : Script :=
  s.ahead clients (fun i => Script.removing type key (options i)) i

/-- The last call of a client in a run was a read that brought an object. -/
def Rests (m : Memory) (schedule : List (Move ι)) (i : ι) (read : Object) : Prop :=
  ∃ before stamp between, schedule = before ++ .client i stamp :: between ∧
    (∀ later, Move.client i later ∉ between) ∧
    (clients i).turn ((run clients m before).heard i) = .asks (.get type key) ∧
    (Memory.step (.call stamp (.get type key)) (run clients m before).memory).1 =
      .ok (some (.object read))

variable {clients type key options} {m : Memory} {s : Commons ι}

/-- The moves of others leave the last call of a client what it is. -/
theorem Rests.concat {schedule : List (Move ι)} {i : ι} {read : Object}
    (h : Rests clients type key m schedule i read) {move : Move ι}
    (foreign : ∀ stamp, move ≠ .client i stamp) :
    Rests clients type key m (schedule ++ [move]) i read := by
  obtain ⟨before, stamp, between, rfl, hbetween, hrest⟩ := h
  refine ⟨before, stamp, between ++ [move], by rw [List.append_assoc, List.cons_append], ?_, hrest⟩
  intro later hmem
  rcases List.mem_append.mp hmem with hold | hnew
  · exact hbetween later hold
  · exact foreign later (List.mem_singleton.mp hnew).symm

/-- **Step.** A client that has made a call is about to delete only what that call has read. -/
theorem poised_own (attempted : ∀ i, (clients i).Attempts (Script.removing type key (options i)))
    {schedule : List (Move ι)} {i : ι} (stamp : Stamp)
    (h : Script.Poised type key (options i) (Rests clients type key m schedule i)
      ((run clients m schedule).toRemove clients type key options i)) :
    Script.Poised type key (options i)
      (Rests clients type key m (schedule ++ [.client i stamp]) i)
      ((run clients m (schedule ++ [.client i stamp])).toRemove clients type key options i) := by
  rw [run_concat, advance_client attempted]
  cases hahead : (run clients m schedule).ahead clients
      (fun i => Script.removing type key (options i)) i with
  | ends outcome =>
    show Script.Poised _ _ _ _ ((run clients m schedule).ahead clients _ i)
    rw [hahead]
    exact .ended outcome
  | asks call next =>
    show Script.Poised _ _ _ _ (Script.after _ (heard (record _ _ _ _) i))
    rw [heard_record_self, Script.after_concat]
    refine Script.Poised.hear h fun hturn found hfound => ?_
    have hcall : call = .get type key :=
      Updater.Turn.asks.inj ((congrArg Script.turn hahead).symm.trans hturn)
    subst hcall
    rw [heardAs_step] at hfound
    exact ⟨schedule, stamp, [], rfl, (fun _ h => by cases h), (turn_eq attempted _ i).trans hturn,
      Dialogue.eq_ok_of_objectOf hfound⟩

/-- **Run.** A client that is about to delete rests on a read. -/
theorem poised_run
    (attempted : ∀ i, (clients i).Attempts (Script.removing type key (options i))) (m : Memory)
    (schedule : List (Move ι)) (i : ι) :
    Script.Poised type key (options i) (Rests clients type key m schedule i)
      ((run clients m schedule).toRemove clients type key options i) := by
  induction schedule using List.reverseRecOn with
  | nil => exact .reading _
  | append_singleton schedule move ih =>
    by_cases hmove : ∃ stamp, move = .client i stamp
    · obtain ⟨stamp, rfl⟩ := hmove
      exact poised_own attempted stamp ih
    · have hforeign : ∀ stamp, move ≠ .client i stamp := fun stamp h => hmove ⟨stamp, h⟩
      rw [run_concat, toRemove, ahead_advance_of_ne _ hforeign]
      exact ih.mono fun _ h => h.concat hforeign

/-! ### What was read is still there -/

/-- A move by which nobody but the clients deletes anything. -/
def Preserves : Move ι → Prop
  | .client _ _ => True
  | .other event => event.deletes = false

/-- A move changes nothing, or is an event that deletes nothing but the object of the clients. -/
theorem advance_memory
    (attempted : ∀ i, (clients i).Attempts (Script.removing type key (options i))) (s : Commons ι)
    {move : Move ι} (preserves : Preserves move) :
    (s.advance clients move).memory = s.memory ∨
    ∃ event : Memory.Event, event.DeletesOnly type key ∧
      (s.advance clients move).memory = (Memory.step event s.memory).2 := by
  cases move with
  | other event => exact Or.inr ⟨event, Or.inl preserves, rfl⟩
  | client i stamp =>
    rw [advance]
    cases hturn : (clients i).turn (s.heard i) with
    | ends outcome => exact Or.inl rfl
    | asks call =>
      rw [turn_eq attempted] at hturn
      refine Or.inr ⟨.call stamp call, ?_, rfl⟩
      rcases (Script.poised_after _ (s.heard i)).call hturn with rfl | ⟨given, rfl⟩
      · exact Or.inl rfl
      · exact Or.inr ⟨stamp, given, rfl⟩

/-- The store is well kept, and nothing in it has the token of an object but the object itself. -/
structure Guarded (type : ResourceType) (key : Key) (read : Object) (s : Commons ι) : Prop where
  kept : s.memory.WellKept
  sole : s.memory.Sole (Memory.slotAt type key) read

/-- **Step.** A token stays with its object. -/
theorem Guarded.advance {read : Object} (h : Guarded type key read s)
    (attempted : ∀ i, (clients i).Attempts (Script.removing type key (options i))) {move : Move ι}
    (preserves : Preserves move) : Guarded type key read (s.advance clients move) := by
  rcases advance_memory attempted s preserves with hsame | ⟨event, hdeletes, hevent⟩
  · exact ⟨by rw [hsame]; exact h.kept, by rw [hsame]; exact h.sole⟩
  · have c := Memory.step_change event s.memory
    refine ⟨by rw [hevent]; exact c.wellKept h.kept, ?_⟩
    rw [hevent]
    exact c.sole_of_deletesOnly hdeletes h.sole

/-- **Step.** An object that is still there was there before. -/
theorem Guarded.held_before {read : Object} (h : Guarded type key read s)
    (attempted : ∀ i, (clients i).Attempts (Script.removing type key (options i))) {move : Move ι}
    (preserves : Preserves move)
    (held : (s.advance clients move).memory.objects.find? (Memory.slotAt type key) = some read) :
    s.memory.objects.find? (Memory.slotAt type key) = some read := by
  rcases advance_memory attempted s preserves with hsame | ⟨event, _, hevent⟩
  · rw [hsame] at held
    exact held
  · rw [hevent] at held
    exact (Memory.step_change event s.memory).held_before h.sole held

/-- **Run.** A store is well kept whatever moves are made. -/
theorem wellKept_run (clients : ι → Client) (kept : m.WellKept) (schedule : List (Move ι)) :
    (run clients m schedule).memory.WellKept := by
  induction schedule using List.reverseRecOn with
  | nil => exact kept
  | append_singleton schedule move ih =>
    rw [run_concat]
    cases move with
    | other event => exact (Memory.step_change event _).wellKept ih
    | client i stamp =>
      rw [advance]
      split
      · exact ih
      · exact (Memory.step_change _ _).wellKept ih

/-- The moment after a read that brought an object. -/
theorem guarded_of_read {before : List (Move ι)} {i : ι} {stamp : Stamp} {read : Object}
    (kept : m.WellKept)
    (asked : (clients i).turn ((run clients m before).heard i) = .asks (.get type key))
    (brought : (Memory.step (.call stamp (.get type key)) (run clients m before).memory).1 =
      .ok (some (.object read))) :
    (run clients m (before ++ [.client i stamp])).memory.objects.find? (Memory.slotAt type key) =
        some read ∧
      Guarded type key read (run clients m (before ++ [.client i stamp])) := by
  have hafter : (run clients m (before ++ [.client i stamp])).memory =
      (Memory.step (.call stamp (.get type key)) (run clients m before).memory).2 := by
    rw [run_concat, advance, asked]
    rfl
  have hheld : (run clients m before).memory.objects.find? (Memory.slotAt type key) = some read :=
    Memory.get_answer (show Dialogue.objectOf (Memory.step (.call stamp (.get type key))
      (run clients m before).memory).1 = .ok read by rw [brought]; rfl)
  have hstill : (run clients m (before ++ [.client i stamp])).memory.objects.find?
      (Memory.slotAt type key) = some read := by
    rw [hafter, (Memory.get_frame stamp type key _).1]
    exact hheld
  have hkept := wellKept_run clients kept (before ++ [.client i stamp])
  exact ⟨hstill, hkept, hkept.sole hstill⟩

/-- **Run.** An object that is there after some moves was there at every moment since it was read. -/
theorem held_of_held {earlier between : List (Move ι)} {read : Object}
    (attempted : ∀ i, (clients i).Attempts (Script.removing type key (options i)))
    (preserved : ∀ move ∈ between, Preserves move)
    (guarded : Guarded type key read (run clients m earlier))
    (held : (run clients m (earlier ++ between)).memory.objects.find? (Memory.slotAt type key) =
      some read) (middle rest : List (Move ι)) (hsplit : between = middle ++ rest) :
    (run clients m (earlier ++ middle)).memory.objects.find? (Memory.slotAt type key) =
      some read := by
  induction rest using List.reverseRecOn generalizing between with
  | nil =>
    rw [hsplit, List.append_nil] at held
    exact held
  | append_singleton rest move ih =>
    subst hsplit
    -- Go back over the last move.
    have hguarded : Guarded type key read (run clients m (earlier ++ (middle ++ rest))) :=
      invariant_run (fun _ => Preserves) _ guarded
        (fun _ _ h preserves => h.advance attempted preserves)
        fun first move' later h => preserved move' (by
          rw [← List.append_assoc, h]
          exact List.mem_append_left _ (List.mem_append_right _ List.mem_cons_self))
    rw [← List.append_assoc, ← List.append_assoc, run_concat, List.append_assoc] at held
    exact ih (fun other hother => preserved other (by
        rw [← List.append_assoc]; exact List.mem_append_left _ hother))
      (hguarded.held_before attempted (preserved move (by simp)) held) rfl

/-- **A delete removes what was read.**  A delete of a client that succeeds is guarded by the version
    that the client's last read brought.  The object that was read was in the slot at every moment
    since, as long as nobody else deletes anything, and afterwards the slot is empty. -/
theorem held_since_read
    (attempted : ∀ i, (clients i).Attempts (Script.removing type key (options i)))
    (kept : m.WellKept) {earlier : List (Move ι)} (preserved : ∀ move ∈ earlier, Preserves move)
    {i : ι} {stamp : Stamp} {given : DeleteOptions} {payload : Option Payload}
    (asked : (clients i).turn ((run clients m earlier).heard i) = .asks (.delete type key given))
    (done : (Memory.step (.call stamp (.delete type key given)) (run clients m earlier).memory).1 =
      .ok payload) :
    (∃ before start between read token, earlier = before ++ .client i start :: between ∧
      (∀ later, Move.client i later ∉ between) ∧
      (clients i).turn ((run clients m before).heard i) = .asks (.get type key) ∧
      (Memory.step (.call start (.get type key)) (run clients m before).memory).1 =
        .ok (some (.object read)) ∧
      read.metadata.version = some token ∧ given.precondition = some token ∧
      ∀ middle rest, between = middle ++ rest →
        (run clients m (before ++ .client i start :: middle)).memory.objects.find?
          (Memory.slotAt type key) = some read) ∧
    (run clients m (earlier ++ [.client i stamp])).memory.objects.find?
      (Memory.slotAt type key) = none := by
  obtain ⟨⟨current, hcurrent, hguard⟩, hgone⟩ := Memory.delete_answer done
  have hafter : (run clients m (earlier ++ [.client i stamp])).memory =
      (Memory.step (.call stamp (.delete type key given)) (run clients m earlier).memory).2 := by
    rw [run_concat, advance, asked]
    rfl
  refine ⟨?_, by rw [hafter]; exact hgone⟩
  rw [turn_eq attempted] at asked
  obtain ⟨read, hgiven, before, start, between, rfl, hforeign, hget, hbrought⟩ :=
    (poised_run attempted m earlier i).eq_deleting asked
  obtain ⟨_, hguarded⟩ := guarded_of_read kept hget hbrought
  have hbetween : ∀ move ∈ between, Preserves move := fun move hmove =>
    preserved move (List.mem_append_right _ (List.mem_cons_of_mem _ hmove))
  rw [List.append_cons] at hcurrent
  -- What the delete removes carries the token that was read, and only one object does.
  have hend : Guarded type key read (run clients m (before ++ [.client i start] ++ between)) :=
    invariant_run (fun _ => Preserves) _ hguarded
      (fun _ _ h preserves => h.advance attempted preserves)
      fun first move later h => hbetween move (by rw [h]; simp)
  obtain ⟨number, _, hnumber⟩ := hend.sole.used
  have hprecondition : given.precondition = some (Memory.token number) := by
    rw [hgiven]
    exact hnumber
  obtain ⟨_, rfl⟩ := hend.sole.only hcurrent ((hguard _ hprecondition).trans hnumber.symm)
  refine ⟨before, start, between, current, Memory.token number, rfl, hforeign, hget, hbrought,
    hnumber, hprecondition, fun middle rest hsplit => ?_⟩
  rw [List.append_cons]
  exact held_of_held attempted hbetween hguarded hcurrent middle rest hsplit

end Run

end Commons

end Reconciliation
