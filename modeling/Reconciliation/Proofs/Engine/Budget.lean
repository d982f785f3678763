import Mathlib.Data.Fintype.Card
import Reconciliation.Proofs.Engine.Contention
import Reconciliation.Proofs.Memory.Serving

namespace Reconciliation

/-!
# How many attempts contending clients need

* `Shared.conflicts` — how often a client has been told of a conflict;
* `Shared.others` — how many updates of all other clients have been accepted;
* `Updater.Phase.Affords` — a client has been told of no more conflicts than others have had updates
  accepted, and of fewer if it is bound to be told of one more;
* `Shared.Budgeted` — what holds at every moment of a run, beside its consistency;
* `Shared.updates_within_budget` — with as many attempts as there are clients, no client fails.

Each conflict of a client is charged to an update that was accepted after the client had read.  When a
client has been told of a conflict it reads again, so that no update is charged twice; and a client
that has had its update accepted has ended, so that there are fewer updates to charge than clients.
-/

/-- Whether an answer tells of a conflict. -/
def Store.Answer.isConflict (answer : Store.Answer) : Bool :=
  answer.failure?.any StoreError.isConflict

/-! ### What a client can afford -/

namespace Updater.Phase

variable {Own : Type}

/-- Where a client is that has some attempts, whose slot holds what it holds, and that has been told of
    some conflicts while others have had some updates accepted. -/
inductive Affords (attempts : Nat) (slot : Slot) (held : Option Object) (conflicts others : Nat) :
    Phase Own → Prop
  | reading {left : Nat} {notes : Notes Own} (spent : left + 1 + conflicts = attempts)
      (few : conflicts ≤ others) : Affords attempts slot held conflicts others (.reading left notes)
  /-- If what it read is not there any more, an update pays for its next conflict. -/
  | writing {left : Nat} {read next : Object} {notes : Notes Own}
      (spent : left + 1 + conflicts = attempts) (few : conflicts ≤ others)
      (lost : held ≠ some read → conflicts < others) (filed : Memory.Belongs slot next) :
      Affords attempts slot held conflicts others (.writing left read next notes)
  | ended {object : Object} {notes : Notes Own} (few : conflicts ≤ others) :
      Affords attempts slot held conflicts others (.ended (.done (some (.object object))) notes)

variable {attempts conflicts others : Nat} {slot : Slot} {held : Option Object} {phase : Phase Own}

theorem Affords.conflicts_le (h : Affords attempts slot held conflicts others phase) :
    conflicts ≤ others := by
  cases h with
  | reading _ few | writing _ few _ _ | ended few => exact few

/-- An update of somebody else pays for whatever it makes of the slot. -/
theorem Affords.overtaken (h : Affords attempts slot held conflicts others phase)
    (later : Option Object) : Affords attempts slot later conflicts (others + 1) phase := by
  cases h with
  | reading spent few => exact .reading spent (by omega)
  | writing spent few _ filed => exact .writing spent (by omega) (fun _ => by omega) filed
  | ended few => exact .ended (by omega)

/-- A client that does nothing more is done with an object. -/
theorem Affords.done {type : ResourceType} {key : Key} {outcome : Outcome}
    (h : Affords attempts slot held conflicts others phase)
    (hends : phase.turn type key = .ends outcome) :
    ∃ object, outcome = .done (some (.object object)) := by
  cases h with
  | reading | writing => cases hends
  | ended _ =>
    cases hends
    exact ⟨_, rfl⟩

/-- **Step.** A read brings what the slot holds, so that nothing is lost yet. -/
theorem Affords.hear_read {u : Updater Own} {key : Key} {left : Nat} {notes : Notes Own}
    {current : Object}
    (h : Affords attempts slot (some current) conflicts others (.reading left notes))
    (succeeds : (u.mutate current notes.own).1.isOk)
    (files : ∀ next own, u.mutate current notes.own = (.ok (some next), own) →
      Memory.Belongs slot next) :
    Affords attempts slot (some current) conflicts others
      ((Phase.reading left notes).hear u key (.ok (some (.object current)))) := by
  cases h with
  | reading spent few =>
    rw [hear]
    dsimp only [Dialogue.objectOf]
    rcases hmutate : u.mutate current notes.own with ⟨failure | _ | next, own⟩
    · rw [hmutate] at succeeds
      cases succeeds
    · exact .ended few
    · exact .writing spent few (fun hlost => absurd rfl hlost) (files next own hmutate)

/-- **Step.** A conflict of a client that has lost what it read, and has an attempt left. -/
theorem Affords.hear_conflict {u : Updater Own} {key : Key} {left : Nat} {read next : Object}
    {notes : Notes Own} {failure : StoreError}
    (h : Affords attempts slot held conflicts others (.writing left read next notes))
    (lost : held ≠ some read) (enough : others < attempts) :
    Affords attempts slot held (conflicts + 1) others
      ((Phase.writing left read next notes).hear u key (.error failure)) := by
  cases h with
  | writing spent few hlost _ =>
    have hpaid := hlost lost
    obtain ⟨fewer, rfl⟩ : ∃ fewer, left = fewer + 1 := ⟨left - 1, by omega⟩
    exact .reading (by omega) (by omega)

end Updater.Phase

namespace Shared

variable {ι : Type}

/-- How often a client has been told of a conflict. -/
def conflicts (s : Shared ι) (i : ι) : Nat := (s.heard i).countP Store.Answer.isConflict

variable [DecidableEq ι]

/-- How many updates of all other clients have been accepted. -/
def others (s : Shared ι) (i : ι) : Nat := s.log.countP fun entry => entry.1 ≠ i

variable {Own : ι → Type} {clients : (i : ι) → Updater (Own i)} {type : ResourceType} {key : Key}
  {m : Memory} {initial : Object} {s : Shared ι}

/-! ### How many updates there are to charge -/

/-- Each client has one accepted update at most. -/
theorem Consistent.nodup_log (h : Consistent clients type key m initial s) :
    (s.log.map Prod.fst).Nodup := by
  rw [List.nodup_iff_count_le_one]
  intro i
  rw [List.count, List.countP_map]
  refine Nat.le_trans (Nat.le_of_eq ?_)
    (Nat.le_trans (Nat.le_of_eq (h.counted i)) (Updater.Phase.applied_le_one _))
  exact List.countP_congr fun entry _ => by simp

/-- All others together have fewer updates accepted than there are clients. -/
theorem Consistent.others_lt_card [Fintype ι] (h : Consistent clients type key m initial s) (i : ι) :
    s.others i < Fintype.card ι := by
  have hnodup : (i :: (s.log.map Prod.fst).filter fun j => j ≠ i).Nodup :=
    List.nodup_cons.mpr ⟨by simp, h.nodup_log.filter _⟩
  have hlength : ((s.log.map Prod.fst).filter fun j => j ≠ i).length = s.others i := by
    rw [← List.countP_eq_length_filter, List.countP_map]
    rfl
  have hcard := hnodup.length_le_card
  rw [List.length_cons, hlength] at hcard
  exact hcard

/-! ### What holds at every moment -/

variable (clients type key)

/-- What holds at every moment of a run, beside its consistency. -/
structure Budgeted (s : Shared ι) : Prop where
  quiet : s.memory.faults = []
  known : s.memory.knows type.group type.kind = true
  affords : ∀ i, (s.phase clients key i).Affords (clients i).policy.attempts.toNat
    (Memory.slotAt type key) (s.memory.objects.find? (Memory.slotAt type key)) (s.conflicts i)
    (s.others i)

variable {clients type key}

theorem conflicts_heardWith_self (i : ι) (answer : Store.Answer) (memory : Memory)
    (log : List (ι × Object)) :
    conflicts ⟨memory, s.heardWith i answer, log⟩ i = s.conflicts i + answer.isConflict.toNat := by
  show (s.heardWith i answer i).countP Store.Answer.isConflict = _
  rw [heardWith_self, List.countP_append]
  cases hconflict : answer.isConflict <;> simp [hconflict, conflicts]

theorem conflicts_heardWith_of_ne {i j : ι} (h : j ≠ i) (answer : Store.Answer) (memory : Memory)
    (log : List (ι × Object)) :
    conflicts ⟨memory, s.heardWith i answer, log⟩ j = s.conflicts j := by
  show (s.heardWith i answer j).countP Store.Answer.isConflict = _
  rw [heardWith_of_ne h, conflicts]

/-- **Step.** An answer that comes with no change of the slot. -/
theorem Budgeted.idle (h : Budgeted clients type key s) {i : ι} {memory : Memory}
    {answer : Store.Answer} (settings : Memory.SameSettings s.memory memory)
    (same : memory.objects = s.memory.objects)
    (self : ((s.phase clients key i).hear (clients i) key answer).Affords
      (clients i).policy.attempts.toNat (Memory.slotAt type key)
      (s.memory.objects.find? (Memory.slotAt type key))
      (s.conflicts i + answer.isConflict.toNat) (s.others i)) :
    Budgeted clients type key ⟨memory, s.heardWith i answer, s.log⟩ where
  quiet := settings.1.trans h.quiet
  known := (settings.knows _ _).trans h.known
  affords j := by
    by_cases hj : j = i
    · subst hj
      rw [phase_heardWith_self, conflicts_heardWith_self]
      dsimp only
      rw [same]
      exact self
    · rw [phase_heardWith_of_ne hj, conflicts_heardWith_of_ne hj]
      dsimp only
      rw [same]
      exact h.affords j

/-- **Step.** An update that is accepted.  It pays for one conflict of each other client. -/
theorem Budgeted.accepted (h : Budgeted clients type key s) {i : ι} {left : Nat}
    {read next entry : Object} {notes : Updater.Notes (Own i)} {memory : Memory}
    (settings : Memory.SameSettings s.memory memory)
    (hphase : s.phase clients key i = .writing left read next notes) :
    Budgeted clients type key
      ⟨memory, s.heardWith i (.ok (some (.object entry))), s.log ++ [(i, entry)]⟩ where
  quiet := settings.1.trans h.quiet
  known := (settings.knows _ _).trans h.known
  affords j := by
    by_cases hj : j = i
    · subst hj
      have hothers : others ⟨memory, s.heardWith j (.ok (some (.object entry))),
          s.log ++ [(j, entry)]⟩ j = s.others j := by simp [others]
      rw [phase_heardWith_self, conflicts_heardWith_self, hothers, hphase]
      exact .ended (h.affords j).conflicts_le
    · have hothers : others ⟨memory, s.heardWith i (.ok (some (.object entry))),
          s.log ++ [(i, entry)]⟩ j = s.others j + 1 := by simp [others, Ne.symm hj]
      rw [phase_heardWith_of_ne hj, conflicts_heardWith_of_ne hj, hothers]
      exact (h.affords j).overtaken _

/-- There is always an object in the slot. -/
theorem Consistent.held (h : Consistent clients type key m initial s) :
    ∃ current, s.memory.objects.find? (Memory.slotAt type key) = some current := by
  rw [h.content, contents, List.getLast?_cons]
  exact ⟨_, rfl⟩

/-- **Step.** A call of any client keeps a shared store within the budget. -/
theorem Budgeted.advance (h : Budgeted clients type key s)
    (consistent : Consistent clients type key m initial s)
    (succeeds : ∀ i object own, ((clients i).mutate object own).1.isOk)
    (keeps : ∀ i object own next own', (clients i).mutate object own = (.ok (some next), own') →
      next.metadata.version = object.metadata.version ∧ next.gvk = object.gvk ∧
        next.key = object.key)
    (enough : ∀ i, s.others i < (clients i).policy.attempts.toNat) (turn : ι × Stamp) :
    Budgeted clients type key (s.advance clients type key turn) := by
  obtain ⟨i, stamp⟩ := turn
  have hturn := ((clients i).turn_eq type key (s.heard i)).1
  have haffords := h.affords i
  obtain ⟨current, hcurrent⟩ := consistent.held
  unfold Shared.advance
  dsimp only
  rw [hturn]
  cases hphase : (clients i).phase key (s.heard i) with
  | ended outcome notes => exact h
  | reading left notes =>
    have hreading : s.phase clients key i = .reading left notes := hphase
    have hstep := Memory.step_get h.quiet stamp type key
    rw [Memory.visible_of_knows h.known, hcurrent] at hstep
    dsimp only [Updater.Phase.turn]
    rw [hstep]
    dsimp only [accepted?, Option.map_none, Option.toList_none, Option.elim]
    rw [List.append_nil]
    refine h.idle ⟨rfl, rfl⟩ rfl ?_
    rw [hreading, hcurrent] at haffords ⊢
    refine haffords.hear_read (succeeds i _ _) fun next own hmade => ?_
    obtain ⟨_, htyped, hkeyed⟩ := keeps i _ _ _ _ hmade
    exact (consistent.kept.kept hcurrent).belongs htyped hkeyed
  | writing left read next notes =>
    have hwriting : s.phase clients key i = .writing left read next notes := hphase
    obtain ⟨hsole, _, own, hmade⟩ := consistent.resting hwriting
    obtain ⟨number, _, hnumber⟩ := hsole.used
    have hown := (keeps i _ _ _ _ hmade).1.trans hnumber
    rw [hwriting] at haffords
    have hfiled : Memory.Belongs (Memory.slotAt type key) next := by
      cases haffords with
      | writing _ _ _ filed => exact filed
    dsimp only [Updater.Phase.turn]
    by_cases hsame : current = read
    · subst hsame
      rw [Memory.step_update_of_same h.quiet stamp hfiled hcurrent hown hnumber]
      exact h.accepted ⟨rfl, rfl⟩ hwriting
    · -- The token of what the client read is not in the slot any more.
      have hstale : current.metadata.version ≠ some (Memory.token number) := fun heq =>
        hsame (hsole.only hcurrent (heq.trans hnumber.symm)).2
      obtain ⟨reason, hstep⟩ := Memory.step_update_of_ne h.quiet stamp hfiled hcurrent hown hstale
      rw [hstep]
      dsimp only [accepted?, Option.map_none, Option.toList_none]
      rw [List.append_nil]
      refine h.idle ⟨rfl, rfl⟩ rfl ?_
      rw [hwriting]
      exact haffords.hear_conflict (by rw [hcurrent]; exact fun h => hsame (Option.some.inj h))
        (enough i)

/-- A shared store is within the budget before the first call. -/
theorem budgeted_start (quiet : m.faults = []) (known : m.knows type.group type.kind = true) :
    Budgeted clients type key (start m) where
  quiet := quiet
  known := known
  affords i := .reading (by have := (clients i).policy.positive; show _ - 1 + 1 + 0 = _; omega)
    (Nat.zero_le _)

/-- **Run.** A shared store stays within the budget if each client has as many attempts as there are
    clients. -/
theorem budgeted_run [Fintype ι] (reachable : m.Reachable) (quiet : m.faults = [])
    (found : m.visible type key = some initial)
    (budget : ∀ i, Fintype.card ι ≤ (clients i).policy.attempts.toNat)
    (succeeds : ∀ i object own, ((clients i).mutate object own).1.isOk)
    (keeps : ∀ i object own next own', (clients i).mutate object own = (.ok (some next), own') →
      next.metadata.version = object.metadata.version ∧ next.gvk = object.gvk ∧
        next.key = object.key) (schedule : List (ι × Stamp)) :
    Budgeted clients type key (run clients type key m schedule) ∧
      Consistent clients type key m initial (run clients type key m schedule) := by
  obtain ⟨hknown, hheld⟩ := Memory.visible_eq_some_iff.mp found
  unfold run
  generalize hstart : start m = s
  have h : Budgeted clients type key s ∧ Consistent clients type key m initial s :=
    hstart ▸ ⟨budgeted_start quiet hknown, consistent_start reachable hheld⟩
  clear hstart
  induction schedule generalizing s with
  | nil => exact h
  | cons turn rest ih =>
    obtain ⟨hbudgeted, hconsistent⟩ := h
    refine ih _ ⟨hbudgeted.advance hconsistent succeeds keeps (fun i => ?_) turn,
      hconsistent.advance (fun i object own next own' h => (keeps i object own next own' h).1) turn⟩
    exact Nat.lt_of_lt_of_le (hconsistent.others_lt_card i) (budget i)

/-- **Retry budget.**  Let any number of clients, each with as many attempts as there are clients,
    change one object of a shared store in which no fault waits and a read finds the object, and let
    nobody else write.  If what they make of the object never fails, and keeps its token, its type and
    its key, then in whatever order they make their calls a client that ends is done, and none is told
    of as many conflicts as there are clients. -/
theorem updates_within_budget [Fintype ι] (clients : (i : ι) → Updater (Own i))
    (type : ResourceType) (key : Key) (reachable : m.Reachable) (quiet : m.faults = [])
    (found : (Memory.get type key m).1 = .ok initial)
    (budget : ∀ i, Fintype.card ι ≤ (clients i).policy.attempts.toNat)
    (succeeds : ∀ i object own, ((clients i).mutate object own).1.isOk)
    (keeps : ∀ i object own next own', (clients i).mutate object own = (.ok (some next), own') →
      next.metadata.version = object.metadata.version ∧ next.gvk = object.gvk ∧
        next.key = object.key) (schedule : List (ι × Stamp)) :
    let s := run clients type key m schedule
    ∀ i, (∀ outcome, (clients i).turn type key (s.heard i) = .ends outcome →
        ∃ object, outcome = .done (some (.object object))) ∧
      s.conflicts i ≤ Fintype.card ι - 1 := by
  intro s i
  have hvisible : m.visible type key = some initial := by
    rw [Memory.get_of_quiet quiet] at found
    cases hvisible : m.visible type key with
    | none =>
      rw [hvisible] at found
      cases found
    | some object =>
      rw [hvisible] at found
      exact congrArg some (Except.ok.inj found)
  obtain ⟨hbudgeted, hconsistent⟩ :=
    budgeted_run reachable quiet hvisible budget succeeds keeps schedule
  have haffords := hbudgeted.affords i
  refine ⟨fun outcome hends => ?_, ?_⟩
  · rw [((clients i).turn_eq type key (s.heard i)).1] at hends
    exact haffords.done hends
  · exact Nat.le_sub_one_of_lt
      (Nat.lt_of_le_of_lt haffords.conflicts_le (hconsistent.others_lt_card i))

end Shared

/-! ### Two clients that label one object -/

namespace Shared.Labelling

open Specimen

theorem clients_keep_identity (right : Bool) (object : Object) (own : Unit) (next : Object)
    (own' : Unit) (h : (clients right).mutate object own = (.ok (some next), own')) :
    next.metadata.version = object.metadata.version ∧ next.gvk = object.gvk ∧
      next.key = object.key := by
  simp only [clients, Prod.mk.injEq, Except.ok.injEq, Option.some.injEq] at h
  obtain ⟨rfl, _⟩ := h
  exact ⟨rfl, rfl, rfl⟩

/-- The object with both labels, the second one set on what the first client wrote. -/
def labelled : Object :=
  let first := Memory.renewed initial (initial.withLabel "left" "set") (Memory.token 2)
  Memory.renewed first (first.withLabel "right" "set") (Memory.token 3)

set_option maxRecDepth 8000 in
/-- The second client is told of one conflict, the only one there can be, and is done all the same. -/
theorem one_conflict :
    labelling.conflicts true = 1 ∧ labelling.conflicts true ≤ Fintype.card Bool - 1 ∧
    ∃ object, (clients true).turn secrets (key "a") (labelling.heard true) =
      .ends (.done (some (.object object))) := by
  have hreachable : seeded.Reachable := ⟨[.insert .verbatim sample], rfl⟩
  have hfound : (Memory.get secrets (key "a") seeded).1 = .ok initial := by decide
  have henough : Fintype.card Bool ≤ RetryPolicy.standard.attempts.toNat := by decide
  have hends : (clients true).turn secrets (key "a") (labelling.heard true) =
      .ends (.done (some (.object labelled))) := by decide
  obtain ⟨hdone, hconflicts⟩ := updates_within_budget clients secrets (key "a") hreachable rfl hfound
    (fun _ => henough) (fun _ _ _ => rfl) clients_keep_identity schedule true
  obtain ⟨object, hobject⟩ := hdone _ hends
  exact ⟨by decide, hconflicts, object, hends.trans (congrArg Updater.Turn.ends hobject)⟩

end Shared.Labelling

end Reconciliation
