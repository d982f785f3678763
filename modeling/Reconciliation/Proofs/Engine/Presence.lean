import Reconciliation.Proofs.Engine.Commons
import Reconciliation.Proofs.Memory.Serving

namespace Reconciliation

/-!
# Clients that make sure of one object

* `Client.ensuring` — a client that creates an object unless there is one, with retries;
* `Client.attempts_ensuring` — each attempt of it reads, and creates if nothing was read;
* `Commons.Spares` — a move by which nobody but the clients changes what a slot holds;
* `Commons.Stage` — where a client is, by the number of its calls and what the slot holds;
* `Commons.Converging` — what holds at every moment of a run;
* `ensureExists_converges` — all clients come to the one object that is stored, which is created once.

A client whose create is refused has lost a race, so that it finds the object when it reads again.
-/

/-! ### What a client does -/

namespace Script

/-- What follows the create of an attempt. -/
def afterCreate (object : Object) (answer : Store.Answer) : Script :=
  match Dialogue.objectOf answer with
  | .ok stored => ends (.done (some (.object stored)))
  | .error failure => ends (.error (.store .create object.key.display failure))

/-- The create of an attempt. -/
def creating (object : Object) : Script := asks (.create object) (afterCreate object)

/-- What follows the read of an attempt. -/
def afterRead (object : Object) (answer : Store.Answer) : Script :=
  match Dialogue.objectOf answer with
  | .ok found => ends (.done (some (.object found)))
  | .error failure =>
    if failure.isNotFound then creating object
    else ends (.error (.store .get object.key.display failure))

/-- An attempt to make sure of an object. -/
def ensuring (type : ResourceType) (object : Object) : Script :=
  asks (.get type object.key) (afterRead object)

theorem exec_creating {ρ : Type} (store : Store ρ) (object : Object) (rest : ρ) :
    (creating object).exec store rest =
      match store.create object rest with
      | (.error failure, rest) => (.error (.store .create object.key.display failure), rest)
      | (.ok stored, rest) => (.done (some (.object stored)), rest) := by
  show (afterCreate object (Except.map (fun stored => some (.object stored))
    (store.create object rest).1)).exec store (store.create object rest).2 = _
  rcases store.create object rest with ⟨failure | stored, rest⟩
  · rfl
  · rfl

theorem exec_ensuring {ρ : Type} (store : Store ρ) (type : ResourceType) (object : Object) (rest : ρ) :
    (ensuring type object).exec store rest =
      match store.get type object.key rest with
      | (.ok found, rest) => (.done (some (.object found)), rest)
      | (.error failure, rest) =>
        if failure.isNotFound then (creating object).exec store rest
        else (.error (.store .get object.key.display failure), rest) := by
  show (afterRead object (Except.map (fun found => some (.object found))
    (store.get type object.key rest).1)).exec store (store.get type object.key rest).2 = _
  rcases store.get type object.key rest with ⟨failure | found, rest⟩
  · show (if failure.isNotFound then creating object else _ : Script).exec store rest = _
    dsimp only
    split <;> rfl
  · rfl

end Script

namespace Client

/-- A client that creates an object unless there is one. -/
def ensuring (policy : RetryPolicy) (target : Key) (type : ResourceType) (object : Object) : Client :=
  ⟨policy, target, fun _ => ⟨[.ensureExists type object]⟩⟩

theorem attempts_ensuring (policy : RetryPolicy) (target : Key) (type : ResourceType)
    (object : Object) :
    (ensuring policy target type object).Attempts (Script.ensuring type object) := by
  intro ρ store rest
  rw [Script.exec_ensuring]
  simp only [Script.exec_creating]
  exact Chain.run_ensureExists (fun _ => rfl) type object rest

end Client

namespace Commons

variable {ι : Type} [DecidableEq ι]

/-- A move by which nobody but the clients changes what a slot holds: others only use the store, and
    what they do leaves the slot as it is. -/
def Spares (slot : Slot) (s : Commons ι) : Move ι → Prop
  | .client _ _ => True
  | .other event => event.uses = true ∧
      (Memory.step event s.memory).2.objects.find? slot = s.memory.objects.find? slot

/-- Whether a call of a client is a create that succeeded. -/
def created : ι × Store.Call × Store.Answer → Bool
  | (_, .create _, .ok _) => true
  | _ => false

/-! ### Where a client is -/

/-- Where a client is after some calls, when its slot holds what it holds. -/
inductive Stage (type : ResourceType) (object : Object) (held : Option Object) : Nat → Script → Prop
  /-- It has not read yet. -/
  | fresh {left : Nat} (more : 0 < left) :
      Stage type object held 0 ((Script.ensuring type object).again left)
  /-- It read when there was nothing. -/
  | creating {left : Nat} (more : 0 < left) :
      Stage type object held 1
        ((Script.creating object).andThen (Script.settle (Script.ensuring type object) left))
  /-- Somebody else's create came first. -/
  | back {left : Nat} {stored : Object} (there : held = some stored) :
      Stage type object held 2 ((Script.ensuring type object).again left)
  | ended {calls : Nat} {stored : Object} (few : calls ≤ 3) (there : held = some stored) :
      Stage type object held calls (.ends (.done (some (.object stored))))

/-- A client stays where it is while a stored object stays what it is. -/
theorem Stage.mono {type : ResourceType} {object : Object} {held later : Option Object} {calls : Nat}
    {script : Script} (h : Stage type object held calls script)
    (keeps : ∀ stored, held = some stored → later = some stored) :
    Stage type object later calls script := by
  cases h with
  | fresh more => exact .fresh more
  | creating more => exact .creating more
  | back there => exact .back (keeps _ there)
  | ended few there => exact .ended few (keeps _ there)

theorem Stage.calls_le {type : ResourceType} {object : Object} {held : Option Object} {calls : Nat}
    {script : Script} (h : Stage type object held calls script) : calls ≤ 3 := by
  cases h with
  | ended few _ => exact few
  | _ => omega

/-- A client that does nothing more is done with the object that is stored. -/
theorem Stage.stored {type : ResourceType} {object : Object} {held : Option Object} {calls : Nat}
    {script : Script} {outcome : Outcome} (h : Stage type object held calls script)
    (hends : script.turn = .ends outcome) :
    ∃ stored, outcome = .done (some (.object stored)) ∧ held = some stored := by
  cases h with
  | fresh | creating | back => cases hends
  | ended _ there =>
    cases hends
    exact ⟨_, rfl, there⟩

/-! ### What holds at every moment -/

section Run

variable (clients : ι → Client) (type : ResourceType) (key : Key) (objects : ι → Object)

/-- What a client has still to do. -/
abbrev toEnsure (s : Commons ι) (i : ι) : Script :=
  s.ahead clients (fun i => Script.ensuring type (objects i)) i

/-- What holds at every moment of a run from a store. -/
structure Converging (m : Memory) (s : Commons ι) : Prop where
  quiet : s.memory.faults = []
  known : s.memory.knows type.group type.kind = true
  /-- Creates bring the object into being, and nothing else does. -/
  counted : s.journal.countP created + (m.objects.find? (Memory.slotAt type key)).isSome.toNat =
    (s.memory.objects.find? (Memory.slotAt type key)).isSome.toNat
  stage : ∀ i, Stage type (objects i) (s.memory.objects.find? (Memory.slotAt type key))
    (s.heard i).length (s.toEnsure clients type objects i)

/-- What a move comes to: the run still converges, and what was stored is stored. -/
structure Advances (m : Memory) (s after : Commons ι) : Prop where
  converging : Converging clients type key objects m after
  keeps : ∀ {stored : Object}, s.memory.objects.find? (Memory.slotAt type key) = some stored →
    after.memory.objects.find? (Memory.slotAt type key) = some stored

variable {clients type key objects} {m : Memory} {s : Commons ι}

/-- **Step.** A call of a client that leaves the slot as it is, and creates nothing. -/
theorem Converging.idle_call (h : Converging clients type key objects m s) {i : ι}
    (call : Store.Call) {next : Store.Answer → Script} (stamp : Stamp) {answer : Store.Answer}
    {memory : Memory} (hahead : s.toEnsure clients type objects i = .asks call next)
    (hstep : Memory.step (.call stamp call) s.memory = (answer, memory))
    (same : memory.objects.find? (Memory.slotAt type key) =
      s.memory.objects.find? (Memory.slotAt type key))
    (idle : created (i, call, answer) = false)
    (stage : Stage type (objects i) (s.memory.objects.find? (Memory.slotAt type key))
      ((s.heard i).length + 1) (next answer)) :
    Advances clients type key objects m s (s.record i call (answer, memory)) := by
  have hsettings := Memory.settings_of_uses (.call stamp call) rfl s.memory h.quiet
  have hstages := stages_record (fun j => Stage type (objects j)
      (memory.objects.find? (Memory.slotAt type key))) call hahead stamp
    (by rw [hstep, same]; exact stage) (fun j _ => by rw [same]; exact h.stage j)
  rw [hstep] at hsettings hstages
  refine ⟨⟨hsettings.1.trans h.quiet, (hsettings.knows _ _).trans h.known, ?_, hstages⟩, same.trans⟩
  rw [countP_record, idle]
  show _ = (memory.objects.find? _).isSome.toNat
  rw [same]
  exact h.counted

/-- **Step.** A create of a client that finds the slot free. -/
theorem Converging.create (h : Converging clients type key objects m s) {i : ι} {left : Nat}
    {stamp : Stamp} {stored : Object} {memory : Memory}
    (hahead : s.toEnsure clients type objects i =
      (Script.creating (objects i)).andThen (Script.settle (Script.ensuring type (objects i)) left))
    (few : (s.heard i).length = 1)
    (hstep : Memory.step (.call stamp (.create (objects i))) s.memory =
      (.ok (some (.object stored)), memory))
    (free : s.memory.objects.find? (Memory.slotAt type key) = none)
    (filled : memory.objects.find? (Memory.slotAt type key) = some stored) :
    Advances clients type key objects m s
      (s.record i (.create (objects i)) (.ok (some (.object stored)), memory)) := by
  have hsettings :=
    Memory.settings_of_uses (.call stamp (.create (objects i))) rfl s.memory h.quiet
  -- Nothing was stored before, so that nothing has to stay and no other client rests on anything.
  have hstages := stages_record (fun j => Stage type (objects j)
      (memory.objects.find? (Memory.slotAt type key))) (.create (objects i)) hahead stamp
    (by
      rw [hstep, few, filled]
      show Stage _ _ _ _ (Script.settle _ left (.done (some (.object stored))))
      rw [Script.settle_of_ne_error _ _ (fun h => by cases h)]
      exact .ended (by omega) rfl)
    (fun j _ => (h.stage j).mono fun _ hsome => by rw [free] at hsome; cases hsome)
  rw [hstep] at hsettings hstages
  refine ⟨⟨hsettings.1.trans h.quiet, (hsettings.knows _ _).trans h.known, ?_, hstages⟩,
    fun hsome => by rw [free] at hsome; cases hsome⟩
  have hcounted := h.counted
  rw [free] at hcounted
  rw [countP_record]
  show _ + 1 + _ = (memory.objects.find? _).isSome.toNat
  rw [filled]
  simp only [Option.isSome_none, Option.isSome_some, Bool.toNat_false, Bool.toNat_true] at hcounted ⊢
  omega

/-- **Step.** A read of a client. -/
theorem Converging.read (h : Converging clients type key objects m s) {i : ι} {left : Nat}
    (belong : Memory.Belongs (Memory.slotAt type key) (objects i)) (stamp : Stamp)
    (hahead : s.toEnsure clients type objects i = (Script.ensuring type (objects i)).again left)
    (few : (s.heard i).length ≤ 2)
    (first : s.memory.objects.find? (Memory.slotAt type key) = none →
      0 < left ∧ (s.heard i).length = 0) :
    Advances clients type key objects m s (s.record i (.get type (objects i).key)
      (Memory.step (.call stamp (.get type (objects i).key)) s.memory)) := by
  have hstep := Memory.step_get h.quiet stamp type (objects i).key
  rw [Memory.visible_of_knows h.known, belong.key_eq] at hstep
  rw [belong.key_eq, hstep]
  refine h.idle_call (.get type key) stamp
    (hahead.trans (by rw [← belong.key_eq]; rfl)) hstep rfl ?_ ?_
  · cases s.memory.objects.find? (Memory.slotAt type key) <;> rfl
  · cases hfind : s.memory.objects.find? (Memory.slotAt type key) with
    | none =>
      obtain ⟨more, hlength⟩ := first hfind
      rw [hlength]
      exact .creating more
    | some stored =>
      show Stage _ _ _ _ (Script.settle _ left (.done (some (.object stored))))
      rw [Script.settle_of_ne_error _ _ (fun h => by cases h)]
      exact .ended (by omega) rfl

/-- **Step.** A create of a client, which is refused if the slot is taken. -/
theorem Converging.attempt (h : Converging clients type key objects m s) {i : ι} {left : Nat}
    (belong : Memory.Belongs (Memory.slotAt type key) (objects i))
    (named : validateName key.name.text = .ok ()) (stamp : Stamp) (more : 0 < left)
    (hahead : s.toEnsure clients type objects i =
      (Script.creating (objects i)).andThen (Script.settle (Script.ensuring type (objects i)) left))
    (few : (s.heard i).length = 1) :
    Advances clients type key objects m s (s.record i (.create (objects i))
      (Memory.step (.call stamp (.create (objects i))) s.memory)) := by
  have hstep := Memory.step_create h.quiet stamp h.known belong named
  cases hfind : s.memory.objects.find? (Memory.slotAt type key) with
  | none =>
    rw [hfind] at hstep
    rw [hstep]
    refine h.create hahead few hstep hfind ?_
    show (Table.insert _ _ _).find? _ = _
    rw [Table.find?_insert, if_pos rfl]
  | some stored =>
    rw [hfind] at hstep
    rw [hstep]
    -- The client reads again, and finds what is stored.
    refine h.idle_call (.create (objects i)) stamp hahead hstep rfl rfl ?_
    show Stage _ _ _ _ (Script.settle _ left (.error _))
    rw [Script.settle_error _ more, few]
    exact .back hfind

/-- **Step.** Every move that spares the slot keeps a converging run converging. -/
theorem Converging.advance (h : Converging clients type key objects m s)
    (attempted : ∀ i, (clients i).Attempts (Script.ensuring type (objects i)))
    (belong : ∀ i, Memory.Belongs (Memory.slotAt type key) (objects i))
    (named : validateName key.name.text = .ok ()) {move : Move ι}
    (spares : Spares (Memory.slotAt type key) s move) :
    Advances clients type key objects m s (s.advance clients move) := by
  cases move with
  | client i stamp =>
    have hstage := h.stage i
    rw [advance_client attempted]
    generalize hahead : s.toEnsure clients type objects i = script at hstage
    generalize hcalls : (s.heard i).length = calls at hstage
    rw [show s.ahead clients _ i = script from hahead]
    cases hstage with
    | fresh more => exact h.read (belong i) stamp hahead (by omega) fun _ => ⟨more, hcalls⟩
    | creating more => exact h.attempt (belong i) named stamp more hahead hcalls
    | back there =>
      exact h.read (belong i) stamp hahead (by omega) fun hnone => by rw [there] at hnone; cases hnone
    | ended few there => exact ⟨h, id⟩
  | other event =>
    obtain ⟨huses, hsame⟩ := spares
    have hsettings := Memory.settings_of_uses event huses s.memory h.quiet
    refine ⟨⟨hsettings.1.trans h.quiet, (hsettings.knows _ _).trans h.known, ?_, fun i => ?_⟩,
      hsame.trans⟩
    · show _ = (Option.isSome (Table.find? (Memory.step event s.memory).2.objects _)).toNat
      rw [hsame]
      exact h.counted
    · show Stage type (objects i) (Table.find? (Memory.step event s.memory).2.objects _) _ _
      rw [hsame]
      exact h.stage i

/-- A run converges from its start. -/
theorem converging_start (retried : ∀ i, 2 ≤ (clients i).policy.attempts.toNat)
    (quiet : m.faults = []) (known : m.knows type.group type.kind = true) :
    Converging clients type key objects m (start m) where
  quiet := quiet
  known := known
  counted := Nat.zero_add _
  stage i := .fresh (by have := retried i; omega)

/-- **Run.** A run converges as long as its moves spare the slot. -/
theorem converging_run (attempted : ∀ i, (clients i).Attempts (Script.ensuring type (objects i)))
    (retried : ∀ i, 2 ≤ (clients i).policy.attempts.toNat)
    (belong : ∀ i, Memory.Belongs (Memory.slotAt type key) (objects i))
    (named : validateName key.name.text = .ok ()) (quiet : m.faults = [])
    (known : m.knows type.group type.kind = true) {schedule : List (Move ι)}
    (spared : ∀ earlier move later, schedule = earlier ++ move :: later →
      Spares (Memory.slotAt type key) (run clients m earlier) move) :
    Converging clients type key objects m (run clients m schedule) :=
  invariant_run (Spares (Memory.slotAt type key)) [] (converging_start retried quiet known)
    (fun _ _ h spares => (h.advance attempted belong named spares).converging) spared

end Run

end Commons

open Commons in
/-- **Convergence.**  Let any number of clients, each with two attempts at least, make sure of objects
    of one type and key in a shared store, and let nobody else change what the slot holds.  In
    whatever order all make their calls: a client that ends is done with the object that is stored,
    and then exactly one create has succeeded if the object was absent, and none if it was present;
    at no moment have more succeeded; an object that is stored stays what it is; and no client makes
    more than three calls. -/
theorem ensureExists_converges {ι : Type} [DecidableEq ι] (policies : ι → RetryPolicy)
    (targets : ι → Key) (type : ResourceType) (key : Key) (objects : ι → Object) (m : Memory)
    (retried : ∀ i, 2 ≤ (policies i).attempts.toNat)
    (belong : ∀ i, Memory.Belongs (Memory.slotAt type key) (objects i))
    (named : validateName key.name.text = .ok ()) (known : m.knows type.group type.kind = true)
    (quiet : m.faults = []) (schedule : List (Move ι)) :
    let clients := fun i => Client.ensuring (policies i) (targets i) type (objects i)
    let held := fun m : Memory => m.objects.find? (Memory.slotAt type key)
    let s := run clients m schedule
    (∀ earlier move later, schedule = earlier ++ move :: later →
      Spares (Memory.slotAt type key) (run clients m earlier) move) →
    (∀ i outcome, (clients i).turn (s.heard i) = .ends outcome →
      (∃ stored, outcome = .done (some (.object stored)) ∧ held s.memory = some stored) ∧
      s.journal.countP created = if (held m).isSome then 0 else 1) ∧
    (s.journal.countP created ≤ if (held m).isSome then 0 else 1) ∧
    (∀ earlier later stored, schedule = earlier ++ later →
      held (run clients m earlier).memory = some stored → held s.memory = some stored) ∧
    ∀ i, (s.heard i).length ≤ 3 := by
  intro clients held s spared
  have attempted : ∀ i, (clients i).Attempts (Script.ensuring type (objects i)) := fun i =>
    Client.attempts_ensuring (policies i) (targets i) type (objects i)
  have hconverging : ∀ {earlier later : List (Move ι)}, schedule = earlier ++ later →
      Converging clients type key objects m (run clients m earlier) := by
    intro earlier later hschedule
    refine converging_run attempted retried belong named quiet known fun before move rest h => ?_
    exact spared before move (rest ++ later) (by rw [hschedule, h, List.append_assoc, List.cons_append])
  have h : Converging clients type key objects m s := hconverging (List.append_nil schedule).symm
  have hcounted : s.journal.countP created + (held m).isSome.toNat = (held s.memory).isSome.toNat :=
    h.counted
  have hmost : (if (held m).isSome then 0 else 1) = 1 - (held m).isSome.toNat := by
    cases (held m).isSome <;> rfl
  rw [hmost]
  refine ⟨fun i outcome hends => ?_, ?_, ?_, fun i => (h.stage i).calls_le⟩
  · rw [turn_eq attempted] at hends
    obtain ⟨stored, houtcome, hstored⟩ := (h.stage i).stored hends
    refine ⟨⟨stored, houtcome, hstored⟩, ?_⟩
    rw [show held s.memory = some stored from hstored, Option.isSome_some, Bool.toNat_true]
      at hcounted
    omega
  · have hpresent := Bool.toNat_le (held s.memory).isSome
    omega
  · rintro earlier later stored rfl hstored
    -- What is stored after the earlier moves is kept by each later one.
    have hlater : Converging clients type key objects m s ∧ held s.memory = some stored :=
      invariant_run (P := fun s => Converging clients type key objects m s ∧
          held s.memory = some stored) (Spares (Memory.slotAt type key)) earlier
        ⟨hconverging rfl, hstored⟩
        (fun _ _ h spares =>
          let advances := h.1.advance attempted belong named spares
          ⟨advances.converging, advances.keeps h.2⟩)
        fun middle move rest hmiddle => spared (earlier ++ middle) move rest
          (by rw [hmiddle, List.append_assoc])
    exact hlater.2

/-! ### Two clients that race for one object -/

namespace Commons.Racing

open Specimen

/-- Each client has a default of its own. -/
def wanted (right : Bool) : Object :=
  (secret (key "a")).withLabel "by" (if right then "right" else "left")

/-- An object with another key. -/
def stranger : Object := secret (key "b")

/-- The clients. -/
def clients (right : Bool) : Client := .ensuring .standard (key "a") secrets (wanted right)

/-- Both read before either creates; somebody seeds another object; the first client loses the race
    and reads again. -/
def schedule : List (Move Bool) :=
  [.client false .verbatim, .client true .verbatim, .other (.insert .verbatim stranger),
    .client true .verbatim, .client false .verbatim, .client false .verbatim]

/-- The run. -/
def race : Commons Bool := run clients .empty schedule

/-- The default of the second client as it is stored. -/
def stored : Object :=
  Memory.stamped .verbatim (Memory.slotAt secrets (key "a")) 2 (Memory.asNew (wanted true))

theorem spares_schedule (earlier : List (Move Bool)) (move : Move Bool) (later : List (Move Bool))
    (h : schedule = earlier ++ move :: later) :
    Spares (Memory.slotAt secrets (key "a")) (run clients .empty earlier) move := by
  cases move with
  | client i stamp => trivial
  | other event =>
    have hmem : Move.other event ∈ schedule := by
      rw [h]
      exact List.mem_append_right _ List.mem_cons_self
    simp only [schedule, List.mem_cons, List.not_mem_nil, reduceCtorEq, Move.other.injEq, false_or,
      or_false] at hmem
    subst hmem
    refine ⟨rfl, ?_⟩
    show (Table.insert _ (Memory.slotAt secrets (key "b")) _).find? _ = _
    rw [Table.find?_insert, if_neg (by decide)]

set_option maxRecDepth 8000 in
/-- Both clients are done with the default of the second one, which was created once. -/
theorem one_create :
    race.memory.objects.find? (Memory.slotAt secrets (key "a")) = some stored ∧
    (clients false).turn (race.heard false) = .ends (.done (some (.object stored))) ∧
    (clients true).turn (race.heard true) = .ends (.done (some (.object stored))) ∧
    race.journal.countP created = 1 ∧ (race.heard false).length ≤ 3 := by
  have hleft : (clients false).turn (race.heard false) = .ends (.done (some (.object stored))) := by
    decide
  have hright : (clients true).turn (race.heard true) = .ends (.done (some (.object stored))) := by
    decide
  obtain ⟨hdone, _, _, hcalls⟩ := ensureExists_converges (fun _ => .standard) (fun _ => key "a")
    secrets (key "a") wanted .empty (fun _ => by decide)
    (fun right => ⟨secrets.gvk, by cases right <;> rfl, by cases right <;> rfl⟩) (by rfl) rfl rfl
    schedule spares_schedule
  obtain ⟨⟨found, hfound, hheld⟩, hcount⟩ := hdone false _ hleft
  cases hfound
  exact ⟨hheld, hleft, hright, hcount, hcalls false⟩

end Commons.Racing

end Reconciliation
