import Reconciliation.Proofs.Engine.Removal

namespace Reconciliation

/-!
# Deleters that race for one object

* `Commons.ReadsOnly` — a move by which nobody but the clients writes;
* `Commons.RemovalStage` — where a client is, by the number of its calls and what a read finds;
* `Commons.Clearing` — what holds at every moment of a run in which nobody else writes;
* `guarded_removal` — no update is lost to a delete, and deleters alone remove the object once.

A client whose delete is refused has lost a race.  If only deleters write, the object is gone then, so
that the client finds nothing when it reads again.
-/

namespace Commons

variable {ι : Type} [DecidableEq ι]

/-- A move by which nobody but the clients writes. -/
def ReadsOnly : Move ι → Prop
  | .client _ _ => True
  | .other event => event.reads = true

/-- Whether a call of a client is a delete that succeeded. -/
def removed : ι × Store.Call × Store.Answer → Bool
  | (_, .delete _ _ _, .ok _) => true
  | _ => false

/-! ### Where a client is -/

/-- Where a client is after some calls, by what a read found at the start of the run and finds now. -/
inductive RemovalStage (type : ResourceType) (key : Key) (options : DeleteOptions)
    (initial now : Option Object) : Nat → Script → Prop
  /-- It has not read yet. -/
  | fresh {left : Nat} (more : 0 < left) :
      RemovalStage type key options initial now 0 ((Script.removing type key options).again left)
  /-- It read when the object was there. -/
  | deleting {left : Nat} {read : Object} (more : 0 < left) (found : initial = some read) :
      RemovalStage type key options initial now 1
        ((Script.deleting type key (options.guardedBy read)).andThen
          (Script.settle (Script.removing type key options) left))
  /-- Somebody else's delete came first. -/
  | back {left : Nat} (gone : now = none) :
      RemovalStage type key options initial now 2 ((Script.removing type key options).again left)
  | ended {calls : Nat} (few : calls ≤ 3) (gone : now = none) :
      RemovalStage type key options initial now calls (.ends (.done none))

namespace RemovalStage

variable {type : ResourceType} {key : Key} {options : DeleteOptions} {initial now later : Option Object}
  {calls : Nat} {script : Script}

/-- A client stays where it is while what is gone stays gone. -/
theorem mono (h : RemovalStage type key options initial now calls script)
    (keeps : now = none → later = none) :
    RemovalStage type key options initial later calls script := by
  cases h with
  | fresh more => exact .fresh more
  | deleting more found => exact .deleting more found
  | back gone => exact .back (keeps gone)
  | ended few gone => exact .ended few (keeps gone)

theorem calls_le (h : RemovalStage type key options initial now calls script) : calls ≤ 3 := by
  cases h with
  | ended few _ => exact few
  | _ => omega

/-- A client that does nothing more is done, and the object is gone. -/
theorem gone {outcome : Outcome} (h : RemovalStage type key options initial now calls script)
    (hends : script.turn = .ends outcome) : outcome = .done none ∧ now = none := by
  cases h with
  | fresh | deleting | back => cases hends
  | ended _ gone =>
    cases hends
    exact ⟨rfl, gone⟩

end RemovalStage

/-! ### What holds at every moment -/

section Run

variable (clients : ι → Client) (type : ResourceType) (key : Key) (options : ι → DeleteOptions)

/-- What holds at every moment of a run from a store. -/
structure Clearing (m : Memory) (s : Commons ι) : Prop where
  quiet : s.memory.faults = []
  known : s.memory.known = m.known
  /-- The object stays what it is until it is gone. -/
  unchanged : s.memory.visible type key = m.visible type key ∨ s.memory.visible type key = none
  /-- One delete makes it go, and nothing else does. -/
  counted : s.journal.countP removed + (s.memory.visible type key).isSome.toNat =
    (m.visible type key).isSome.toNat
  stage : ∀ i, RemovalStage type key (options i) (m.visible type key) (s.memory.visible type key)
    (s.heard i).length (s.toRemove clients type key options i)

variable {clients type key options} {m : Memory} {s : Commons ι}

/-- A client that has read the object knows what is there if anything is. -/
theorem Clearing.eq_of_found (h : Clearing clients type key options m s) {read current : Object}
    (found : m.visible type key = some read) (there : s.memory.visible type key = some current) :
    current = read := by
  rcases h.unchanged with hsame | hnone
  · exact Option.some.inj (there.symm.trans (hsame.trans found))
  · rw [hnone] at there
    cases there

/-- **Step.** A call of a client that leaves the objects as they are, and removes nothing. -/
theorem Clearing.idle_call (h : Clearing clients type key options m s) {i : ι} (call : Store.Call)
    {next : Store.Answer → Script} (stamp : Stamp) {answer : Store.Answer} {memory : Memory}
    (hahead : s.toRemove clients type key options i = .asks call next)
    (hstep : Memory.step (.call stamp call) s.memory = (answer, memory))
    (same : memory.objects = s.memory.objects) (idle : removed (i, call, answer) = false)
    (stage : RemovalStage type key (options i) (m.visible type key) (s.memory.visible type key)
      ((s.heard i).length + 1) (next answer)) :
    Clearing clients type key options m (s.record i call (answer, memory)) := by
  have hsettings := Memory.settings_of_uses (.call stamp call) rfl s.memory h.quiet
  rw [hstep] at hsettings
  have hvisible := Memory.visible_congr type key same hsettings
  have hstages := stages_record (fun j => RemovalStage type key (options j) (m.visible type key)
      (memory.visible type key)) call hahead stamp
    (by rw [hstep, hvisible]; exact stage) (fun j _ => by rw [hvisible]; exact h.stage j)
  rw [hstep] at hstages
  refine ⟨hsettings.1.trans h.quiet, hsettings.2.trans h.known, ?_, ?_, hstages⟩
  · show memory.visible type key = _ ∨ memory.visible type key = _
    rw [hvisible]
    exact h.unchanged
  · rw [countP_record, idle]
    show _ + (memory.visible type key).isSome.toNat = _
    rw [hvisible]
    exact h.counted

/-- **Step.** A read of a client. -/
theorem Clearing.read (h : Clearing clients type key options m s) {i : ι} {left : Nat} (stamp : Stamp)
    (hahead : s.toRemove clients type key options i =
      (Script.removing type key (options i)).again left)
    (few : (s.heard i).length ≤ 2)
    (first : s.memory.visible type key ≠ none → 0 < left ∧ (s.heard i).length = 0) :
    Clearing clients type key options m (s.record i (.get type key)
      (Memory.step (.call stamp (.get type key)) s.memory)) := by
  have hstep := Memory.step_get h.quiet stamp type key
  rw [hstep]
  refine h.idle_call (.get type key) stamp hahead hstep rfl ?_ ?_
  · cases s.memory.visible type key <;> rfl
  · cases hvisible : s.memory.visible type key with
    | none =>
      show RemovalStage _ _ _ _ _ _ (Script.settle _ left (.done none))
      rw [Script.settle_of_ne_error _ _ (fun h => by cases h)]
      exact .ended (by omega) rfl
    | some found =>
      -- What is found now was there from the start.
      have hfound : m.visible type key = some found := by
        rcases h.unchanged with hsame | hnone
        · exact hsame.symm.trans hvisible
        · rw [hvisible] at hnone
          cases hnone
      obtain ⟨more, hlength⟩ := first (by rw [hvisible]; exact fun h => by cases h)
      rw [hlength]
      exact .deleting more hfound

/-- **Step.** A delete of a client that finds the object. -/
theorem Clearing.remove (h : Clearing clients type key options m s) {i : ι} {left : Nat}
    {read : Object} (stamp : Stamp)
    (hahead : s.toRemove clients type key options i =
      (Script.deleting type key ((options i).guardedBy read)).andThen
        (Script.settle (Script.removing type key (options i)) left))
    (few : (s.heard i).length = 1) (there : s.memory.visible type key = some read) :
    Clearing clients type key options m (s.record i (.delete type key ((options i).guardedBy read))
      (Memory.step (.call stamp (.delete type key ((options i).guardedBy read))) s.memory)) := by
  have hsettings := Memory.settings_of_uses
    (.call stamp (.delete type key ((options i).guardedBy read))) rfl s.memory h.quiet
  -- The guard is the token of the object that is there.
  obtain ⟨memory, hstep⟩ : ∃ memory, Memory.step
      (.call stamp (.delete type key ((options i).guardedBy read))) s.memory = (.ok none, memory) :=
    ⟨_, Memory.step_delete_of_guarded h.quiet stamp _ (Memory.visible_eq_some_iff.mp there).2
      fun _ => id⟩
  have hgone := Memory.visible_of_none (Memory.delete_answer (congrArg Prod.fst hstep)).2
  have hstages := stages_record (fun j => RemovalStage type key (options j) (m.visible type key) none)
    (.delete type key ((options i).guardedBy read)) hahead stamp
    (by
      rw [hstep, few]
      show RemovalStage _ _ _ _ _ _ (Script.settle _ left (.done none))
      rw [Script.settle_of_ne_error _ _ (fun h => by cases h)]
      exact .ended (by omega) rfl)
    (fun j _ => (h.stage j).mono fun _ => rfl)
  have hcounted := h.counted
  rw [hstep] at hsettings hgone hstages ⊢
  rw [there] at hcounted
  refine ⟨hsettings.1.trans h.quiet, hsettings.2.trans h.known, Or.inr hgone, ?_, ?_⟩
  · rw [countP_record]
    show _ + 1 + (memory.visible type key).isSome.toNat = _
    rw [hgone]
    exact hcounted
  · show ∀ j, RemovalStage _ _ _ _ (memory.visible type key) _ _
    rw [hgone]
    exact hstages

/-- **Step.** A delete of a client, which is refused if the object is gone. -/
theorem Clearing.attempt (h : Clearing clients type key options m s) {i : ι} {left : Nat}
    {read : Object} (stamp : Stamp) (more : 0 < left)
    (hahead : s.toRemove clients type key options i =
      (Script.deleting type key ((options i).guardedBy read)).andThen
        (Script.settle (Script.removing type key (options i)) left))
    (few : (s.heard i).length = 1) (found : m.visible type key = some read) :
    Clearing clients type key options m (s.record i (.delete type key ((options i).guardedBy read))
      (Memory.step (.call stamp (.delete type key ((options i).guardedBy read))) s.memory)) := by
  cases hvisible : s.memory.visible type key with
  | some current =>
    obtain rfl := h.eq_of_found found hvisible
    exact h.remove stamp hahead few hvisible
  | none =>
    have hknows : s.memory.knows type.group type.kind = true := by
      rw [Memory.knows, h.known]
      exact (Memory.visible_eq_some_iff.mp found).1
    have hstep := Memory.step_delete_of_none h.quiet stamp ((options i).guardedBy read)
      ((Memory.visible_of_knows hknows key).symm.trans hvisible)
    rw [hstep]
    refine h.idle_call (.delete type key _) stamp hahead hstep rfl rfl ?_
    -- The client reads again, and finds nothing.
    show RemovalStage _ _ _ _ _ _ (Script.settle _ left (.error _))
    rw [Script.settle_error _ more, few]
    exact .back hvisible

/-- **Step.** Every move by which nobody else writes keeps the run clearing. -/
theorem Clearing.advance (h : Clearing clients type key options m s)
    (attempted : ∀ i, (clients i).Attempts (Script.removing type key (options i))) {move : Move ι}
    (reads : ReadsOnly move) : Clearing clients type key options m (s.advance clients move) := by
  cases move with
  | client i stamp =>
    have hstage := h.stage i
    rw [advance_client attempted]
    generalize hahead : s.toRemove clients type key options i = script at hstage
    generalize hcalls : (s.heard i).length = calls at hstage
    rw [show s.ahead clients _ i = script from hahead]
    cases hstage with
    | fresh more => exact h.read stamp hahead (by omega) fun _ => ⟨more, hcalls⟩
    | deleting more found => exact h.attempt stamp more hahead hcalls found
    | back gone => exact h.read stamp hahead (by omega) fun hthere => absurd gone hthere
    | ended few gone => exact h
  | other event =>
    have hsettings := Memory.settings_of_uses event (Memory.Event.uses_of_reads reads) s.memory h.quiet
    have hvisible := Memory.visible_congr type key
      ((Memory.step_change event s.memory).objects_of_reads reads) hsettings
    refine ⟨hsettings.1.trans h.quiet, hsettings.2.trans h.known, ?_, ?_, fun i => ?_⟩
    · show Memory.visible type key (Memory.step event s.memory).2 = _ ∨
        Memory.visible type key (Memory.step event s.memory).2 = _
      rw [hvisible]
      exact h.unchanged
    · show _ + (Memory.visible type key (Memory.step event s.memory).2).isSome.toNat = _
      rw [hvisible]
      exact h.counted
    · show RemovalStage _ _ _ _ (Memory.visible type key (Memory.step event s.memory).2) _ _
      rw [hvisible]
      exact h.stage i

/-- A run is clearing at its start. -/
theorem clearing_start (retried : ∀ i, 2 ≤ (clients i).policy.attempts.toNat)
    (quiet : m.faults = []) : Clearing clients type key options m (start m) where
  quiet := quiet
  known := rfl
  unchanged := Or.inl rfl
  counted := Nat.zero_add _
  stage i := .fresh (by have := retried i; omega)

/-- **Run.** A run is clearing as long as nobody else writes. -/
theorem clearing_run (attempted : ∀ i, (clients i).Attempts (Script.removing type key (options i)))
    (retried : ∀ i, 2 ≤ (clients i).policy.attempts.toNat) (quiet : m.faults = [])
    {schedule : List (Move ι)} (reads : ∀ move ∈ schedule, ReadsOnly move) :
    Clearing clients type key options m (run clients m schedule) :=
  invariant_run (fun _ => ReadsOnly) [] (clearing_start retried quiet)
    (fun _ _ h reads => h.advance attempted reads)
    fun middle move rest h => reads move (by rw [h]; simp)

end Run

end Commons

open Commons in
/-- **Guarded removal.**  Let any number of clients delete the object of one type and key from a shared
    store, if there is one, in whatever order all make their calls.

    If nobody else deletes anything, a delete of a client that succeeds is guarded by the token that
    the client's last call, a read, brought; the object that was read was in its slot at every moment
    since, whatever others have written in between, and afterwards the slot is empty.

    If nobody else writes, no fault waits and each client has two attempts at least, then a client that
    ends is done, a read finds nothing any more, and exactly one delete has succeeded if a read found
    the object at the start, and none if it did not; at no moment have more succeeded; and no client
    makes more than three calls. -/
theorem guarded_removal {ι : Type} [DecidableEq ι] (policies : ι → RetryPolicy) (targets : ι → Key)
    (type : ResourceType) (key : Key) (options : ι → DeleteOptions) {m : Memory}
    (reachable : m.Reachable) (schedule : List (Move ι)) :
    let clients := fun i => Client.removing (policies i) (targets i) type key (options i)
    let held := fun moves => (run clients m moves).memory.objects.find? (Memory.slotAt type key)
    let s := run clients m schedule
    let present := (Memory.get type key m).1.isOk.toNat
    ((∀ move ∈ schedule, Preserves move) →
      ∀ earlier i stamp later given payload, schedule = earlier ++ .client i stamp :: later →
        (clients i).turn ((run clients m earlier).heard i) = .asks (.delete type key given) →
        (Memory.step (.call stamp (.delete type key given)) (run clients m earlier).memory).1 =
          .ok payload →
        (∃ before start between read token, earlier = before ++ .client i start :: between ∧
          (∀ later, Move.client i later ∉ between) ∧
          (clients i).turn ((run clients m before).heard i) = .asks (.get type key) ∧
          (Memory.step (.call start (.get type key)) (run clients m before).memory).1 =
            .ok (some (.object read)) ∧
          read.metadata.version = some token ∧ given.precondition = some token ∧
          ∀ middle rest, between = middle ++ rest →
            held (before ++ .client i start :: middle) = some read) ∧
        held (earlier ++ [.client i stamp]) = none) ∧
    ((∀ move ∈ schedule, ReadsOnly move) → m.faults = [] →
      (∀ i, 2 ≤ (policies i).attempts.toNat) →
        (∀ i outcome, (clients i).turn (s.heard i) = .ends outcome →
          outcome = .done none ∧
          (Memory.get type key s.memory).1 = .error (.absent type.kind key) ∧
          s.journal.countP removed = present) ∧
        s.journal.countP removed ≤ present ∧ ∀ i, (s.heard i).length ≤ 3) := by
  intro clients held s present
  have attempted : ∀ i, (clients i).Attempts (Script.removing type key (options i)) := fun i =>
    Client.attempts_removing (policies i) (targets i) type key (options i)
  refine ⟨?_, fun reads quiet retried => ?_⟩
  · rintro preserved earlier i stamp later given payload rfl asked done
    exact held_since_read attempted reachable.wellKept
      (fun move hmove => preserved move (List.mem_append_left _ hmove)) asked done
  · have h : Clearing clients type key options m s := clearing_run attempted retried quiet reads
    have hpresent : present = (m.visible type key).isSome.toNat := by
      show (Memory.get type key m).1.isOk.toNat = _
      rw [Memory.get_of_quiet quiet]
      cases m.visible type key <;> rfl
    have hcounted := h.counted
    rw [hpresent]
    refine ⟨fun i outcome hends => ?_, by omega, fun i => (h.stage i).calls_le⟩
    rw [turn_eq attempted] at hends
    obtain ⟨hdone, hgone⟩ := (h.stage i).gone hends
    refine ⟨hdone, ?_, ?_⟩
    · rw [Memory.get_of_quiet h.quiet, hgone]
      rfl
    · rw [hgone] at hcounted
      exact hcounted

/-! ### Two clients that delete one object -/

namespace Commons.Deleting

open Specimen Shared.Labelling

/-- The object with a label, as somebody writes it who has read the first version. -/
def labelled : Object := initial.withLabel "by" "somebody"

/-- The clients. -/
def clients (_ : Bool) : Client := .removing .standard (key "a") secrets (key "a") ⟨none, some .orphan⟩

/-- Somebody updates the object after the first client has read it, so that its delete is refused; it
    reads again. -/
def updated : List (Move Bool) :=
  [.client false .verbatim, .other (.call .verbatim (.update labelled)), .client false .verbatim,
    .client false .verbatim]

/-- Both clients read before either deletes. -/
def raced : List (Move Bool) :=
  [.client false .verbatim, .client true .verbatim, .client true .verbatim, .client false .verbatim,
    .client false .verbatim]

set_option maxRecDepth 8000 in
/-- The second delete of the first client removes the second version, and of two clients that race one
    removes the object. -/
theorem second_version_removed :
    (∃ before start between read token, updated = before ++ .client false start :: between ∧
      read.metadata.version = some token ∧ some token = some ⟨"2"⟩ ∧
      ∀ middle rest, between = middle ++ rest →
        (run clients seeded (before ++ .client false start :: middle)).memory.objects.find?
          (Memory.slotAt secrets (key "a")) = some read) ∧
    (clients false).turn ((run clients seeded raced).heard false) = .ends (.done none) ∧
    (run clients seeded raced).journal.countP removed = 1 := by
  have hreachable : seeded.Reachable := ⟨[.insert .verbatim sample], rfl⟩
  have hends : (clients false).turn ((run clients seeded raced).heard false) =
      .ends (.done none) := by decide
  obtain ⟨hread, _⟩ := guarded_removal (fun _ => .standard) (fun _ => key "a") secrets (key "a")
    (fun _ : Bool => ⟨none, some .orphan⟩) hreachable (updated ++ [.client false .verbatim])
  obtain ⟨_, hraced⟩ := guarded_removal (fun _ => .standard) (fun _ => key "a") secrets (key "a")
    (fun _ : Bool => ⟨none, some .orphan⟩) hreachable raced
  obtain ⟨⟨before, start, between, read, token, hsplit, _, _, _, hversion, hguard, hheld⟩, _⟩ :=
    hread (by simp [updated, Preserves, Memory.Event.deletes]) updated false .verbatim []
      ⟨some ⟨"2"⟩, some .orphan⟩ none rfl (by decide) (by decide)
  obtain ⟨hdone, _⟩ := hraced (by simp [raced, ReadsOnly]) rfl (fun _ => by decide)
  exact ⟨⟨before, start, between, read, token, hsplit, hversion, hguard.symm, hheld⟩, hends,
    (hdone false _ hends).2.2⟩

end Commons.Deleting

end Reconciliation
