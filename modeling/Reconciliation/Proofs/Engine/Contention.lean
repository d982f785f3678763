import Reconciliation.Proofs.Engine.Updater
import Reconciliation.Proofs.Memory.Tokens

namespace Reconciliation

/-!
# Clients that contend for one object

* `Memory.Sole` — no object but one carries its token;
* `Memory.renewed` — what an accepted update leaves in the place of an object;
* `Shared`, `Shared.run` — a store in memory that clients share, with calls in any order;
* `Shared.run_alone` — a client that makes its calls alone does what its run does;
* `Shared.Consistent` — what holds at every moment of such a run;
* `no_lost_update` — every accepted update is what its client makes of the entry before it, and no
  client contributes more than one.

A client that waits for its update rests on an object that it read.  Nothing else in the store carries
the token of that object, so that the update is accepted only while the object is still there.
-/

namespace Memory

/-! ### What an update rests on -/

/-- The token of an object was handed out, and nothing carries it but the object in its slot. -/
structure Sole (m : Memory) (slot : Slot) (object : Object) : Prop where
  used : ∃ number, number ≤ m.version ∧ object.metadata.version = some (token number)
  only : ∀ {other : Slot} {twin : Object}, m.objects.find? other = some twin →
    twin.metadata.version = object.metadata.version → other = slot ∧ twin = object

/-- An object that is held is the only one with its token. -/
theorem WellKept.sole {m : Memory} (h : WellKept m) {slot : Slot} {object : Object}
    (held : m.objects.find? slot = some object) : Sole m slot object := by
  obtain ⟨number, _, hle, hnumber⟩ := (h.kept held).numbered
  refine ⟨⟨number, hle, hnumber⟩, fun {other twin} hfind hsame => ?_⟩
  obtain rfl := h.distinct hfind held hsame
  rw [held] at hfind
  exact ⟨rfl, (Option.some.inj hfind).symm⟩

/-- An event that orphans nothing leaves a token to its object. -/
theorem Change.sole {m m' : Memory} {event : Event} {answer : Store.Answer}
    (c : Change m event answer m') (quiet : m.orphaned event answer = []) {slot : Slot}
    {object : Object} (h : Sole m slot object) : Sole m' slot object := by
  obtain ⟨number, hle, hnumber⟩ := h.used
  refine ⟨⟨number, Nat.le_trans hle c.version_le, hnumber⟩, fun {other twin} hfind hsame => ?_⟩
  obtain ⟨before, hbefore, hversion, rfl⟩ := c.carried hfind hle (hsame.trans hnumber)
  rw [quiet, Object.withoutOwners_nil]
  exact h.only hbefore (hversion.trans hnumber.symm)

/-- What an accepted update leaves in the place of an object: identity and time of creation are kept,
    and the token is a new one. -/
def renewed (previous next : Object) (version : ResourceVersion) : Object :=
  { inPlaceOf previous next with
    metadata := { (inPlaceOf previous next).metadata with version := some version } }

/-- What is written in the place of a kept object has its identity and its time of creation. -/
theorem stamped_inPlaceOf {version : Nat} {slot : Slot} {previous : Object}
    (h : Kept version slot previous) (stamp : Stamp) (place : Slot) (number : Nat) (next : Object) :
    stamped stamp place number (inPlaceOf previous next) = renewed previous next (token number) := by
  obtain ⟨uid, huid⟩ := Option.isSome_iff_exists.mp h.identified
  obtain ⟨created, hcreated⟩ := Option.isSome_iff_exists.mp h.dated
  simp [stamped, renewed, inPlaceOf, token, huid, hcreated]

/-- A read changes nothing. -/
theorem get_frame (stamp : Stamp) (type : ResourceType) (key : Key) (m : Memory) :
    (step (.call stamp (.get type key)) m).2.objects = m.objects ∧
    (step (.call stamp (.get type key)) m).2.version = m.version := by
  have c := get_change stamp type key m
  generalize (step (.call stamp (.get type key)) m).1 = answer at c
  generalize (step (.call stamp (.get type key)) m).2 = m' at c
  cases c with
  | keep _ objects version => exact ⟨objects, version⟩
  | write puts _ _ _ => cases puts

/-- A read that succeeds brings what is in the slot. -/
theorem get_answer {stamp : Stamp} {type : ResourceType} {key : Key} {m : Memory} {object : Object}
    (h : Dialogue.objectOf (step (.call stamp (.get type key)) m).1 = .ok object) :
    m.objects.find? (slotAt type key) = some object := by
  dsimp only [step, Store.perform, store, get, mapAnswer] at h
  rcases call_cases .get _ m with ⟨failure, rest, _, hcall⟩ | ⟨_, hcall⟩
  · rw [hcall] at h
    cases h
  · rw [hcall] at h
    dsimp only at h
    split at h
    · split at h
      · rename_i found hfound
        obtain rfl : found = object := Except.ok.inj h
        exact hfound
      · cases h
    · cases h

/-- An update either fails and changes nothing, or replaces the only object with the token that it
    carries. -/
theorem update_answer (stamp : Stamp) {slot : Slot} {read next : Object} {m : Memory}
    (hm : WellKept m) (sole : Sole m slot read)
    (own : next.metadata.version = read.metadata.version) :
    (∃ failure, (step (.call stamp (.update next)) m).1 = .error failure ∧
      (step (.call stamp (.update next)) m).2.objects = m.objects ∧
      (step (.call stamp (.update next)) m).2.version = m.version) ∨
    (m.objects.find? slot = some read ∧
      (step (.call stamp (.update next)) m).1 =
        .ok (some (.object (renewed read next (token (m.version + 1))))) ∧
      (step (.call stamp (.update next)) m).2.objects =
        m.objects.insert slot (renewed read next (token (m.version + 1))) ∧
      (step (.call stamp (.update next)) m).2.version = m.version + 1) := by
  have c := step_change (.call stamp (.update next)) m
  generalize hanswer : (step (.call stamp (.update next)) m).1 = answer at c
  generalize hafter : (step (.call stamp (.update next)) m).2 = m' at c
  cases c with
  | keep idle objects version =>
    obtain ⟨failure, rfl⟩ := idle rfl
    exact Or.inl ⟨failure, rfl, objects, version⟩
  | write puts typed objects version =>
    cases puts with
    | update _ _ current spent held hown hsame =>
      -- The object that is replaced carries the token of what was read.
      obtain ⟨hslot, rfl⟩ := sole.only held (hsame.trans (hown.symm.trans own))
      rw [stamped_inPlaceOf (hm.kept held)] at objects
      refine Or.inr ⟨hslot ▸ held, ?_, ?_, version⟩
      · rw [stamped_inPlaceOf (hm.kept held)]
      · rw [objects, hslot]

end Memory

/-! ### What an answer does to a client -/

namespace Updater.Phase

variable {Own : Type}

/-- How often a client in a phase has had an update accepted. -/
def applied : Phase Own → Nat
  | ended (.done _) ⟨_, some (.ok (some _))⟩ => 1
  | _ => 0

/-- `mutate` made `next` of an object when it was asked last. -/
def Made (u : Updater Own) (read next : Object) (notes : Notes Own) : Prop :=
  notes.last = some (.ok (some next)) ∧ ∃ own, u.mutate read own = (.ok (some next), notes.own)

theorem applied_failed (cause : EngineError) (notes : Notes Own) (left : Nat) :
    (failed cause notes left).applied = 0 := by
  cases left <;> rfl

theorem applied_done {notes : Notes Own} {next : Object} (h : notes.last = some (.ok (some next)))
    (payload : Option Payload) : (ended (.done payload) notes).applied = 1 := by
  obtain ⟨own, last⟩ := notes
  obtain rfl : last = some (.ok (some next)) := h
  rfl

theorem applied_le_one (phase : Phase Own) : phase.applied ≤ 1 := by
  unfold applied
  split <;> omega

/-- Only a client that has ended makes no call any more. -/
theorem eq_ended {type : ResourceType} {key : Key} {phase : Phase Own} {outcome : Outcome}
    (h : phase.turn type key = .ends outcome) : phase = ended outcome phase.notes := by
  cases phase with
  | reading left notes => cases h
  | writing left read next notes => cases h
  | ended other notes =>
    cases h
    rfl

theorem failed_ne_writing (cause : EngineError) (notes : Notes Own) (left : Nat) {left' : Nat}
    {read next : Object} {notes' : Notes Own} :
    failed cause notes left ≠ writing left' read next notes' := by
  cases left <;> exact fun h => by cases h

/-- An answer to a read adds nothing, and a client writes only what it made of the object that was
    brought. -/
theorem hear_reading (u : Updater Own) (key : Key) (answer : Store.Answer) (left : Nat)
    (notes : Notes Own) :
    ((reading left notes).hear u key answer).applied = 0 ∧
    ∀ left' read next notes', (reading left notes).hear u key answer = writing left' read next notes' →
      Dialogue.objectOf answer = .ok read ∧ Made u read next notes' := by
  rw [hear]
  cases hanswer : Dialogue.objectOf answer with
  | error failure =>
    dsimp only
    split
    · exact ⟨rfl, fun _ _ _ _ h => by cases h⟩
    · exact ⟨applied_failed _ _ _, fun _ _ _ _ h => absurd h (failed_ne_writing _ _ _)⟩
  | ok object =>
    dsimp only
    rcases hmutate : u.mutate object notes.own with ⟨failure | _ | next, own⟩
    · exact ⟨applied_failed _ _ _, fun _ _ _ _ h => absurd h (failed_ne_writing _ _ _)⟩
    · exact ⟨rfl, fun _ _ _ _ h => by cases h⟩
    · refine ⟨rfl, fun left' read next' notes' h => ?_⟩
      cases h
      exact ⟨rfl, rfl, notes.own, hmutate⟩

end Updater.Phase

/-! ### A shared store -/

/-- A store in memory that clients share. -/
structure Shared (ι : Type) where
  memory : Memory
  /-- What each client has heard. -/
  heard : ι → List Store.Answer
  /-- The objects that accepted updates left, in order, each with its client. -/
  log : List (ι × Object)

namespace Shared

variable {ι : Type}

/-- Nobody has made a call yet. -/
def start (m : Memory) : Shared ι := ⟨m, fun _ => [], []⟩

/-- The successive contents of the slot in which the clients meet. -/
def contents (initial : Object) (s : Shared ι) : List Object := initial :: s.log.map Prod.snd

/-- The object that a call left if it was an update that was accepted. -/
def accepted? : Store.Call → Store.Answer → Option Object
  | .update _, .ok (some (.object stored)) => some stored
  | _, _ => none

variable [DecidableEq ι]

/-- What each client has heard when one has got another answer. -/
def heardWith (s : Shared ι) (i : ι) (answer : Store.Answer) : ι → List Store.Answer :=
  fun j => if j = i then s.heard j ++ [answer] else s.heard j

variable {Own : ι → Type} (clients : (i : ι) → Updater (Own i))
  (type : ResourceType) (key : Key)

/-- A client makes its next call, unless it has ended. -/
def advance (s : Shared ι) (turn : ι × Stamp) : Shared ι :=
  match (clients turn.1).turn type key (s.heard turn.1) with
  | .ends _ => s
  | .asks call =>
    let (answer, memory) := Memory.step (.call turn.2 call) s.memory
    { memory := memory
      heard := s.heardWith turn.1 answer
      log := s.log ++ ((accepted? call answer).map (Prod.mk turn.1)).toList }

/-- The clients make calls in some order. -/
def run (m : Memory) (schedule : List (ι × Stamp)) : Shared ι :=
  schedule.foldl (advance clients type key) (start m)

/-- Where a client is. -/
def phase (s : Shared ι) (i : ι) : Updater.Phase (Own i) := (clients i).phase key (s.heard i)

/-- An accepted update left what its client made last, of the entry before it. -/
def Follows (m : Memory) (initial : Object) (s : Shared ι) (n : Nat) (i : ι) (entry : Object) : Prop :=
  ∃ previous next own own', (s.contents initial)[n]? = some previous ∧
    (clients i).mutate previous own = (.ok (some next), own') ∧
    (clients i).lastReport type key (s.heard i) = some (.ok (some next)) ∧
    entry = Memory.renewed previous next (Memory.token (m.version + n + 1))

/-- What holds at every moment of a run. -/
structure Consistent (m : Memory) (initial : Object) (s : Shared ι) : Prop where
  kept : Memory.WellKept s.memory
  version : s.memory.version = m.version + s.log.length
  content : s.memory.objects.find? (Memory.slotAt type key) = (s.contents initial).getLast?
  follows : ∀ {n : Nat} {i : ι} {entry : Object}, s.log[n]? = some (i, entry) →
    Follows clients type key m initial s n i entry
  counted : ∀ i, s.log.countP (fun entry => entry.1 = i) = (s.phase clients key i).applied
  resting : ∀ {i : ι} {left : Nat} {read next : Object} {notes : Updater.Notes (Own i)},
    s.phase clients key i = .writing left read next notes →
      s.memory.Sole (Memory.slotAt type key) read ∧ Updater.Phase.Made (clients i) read next notes

variable {clients type key} {m : Memory} {initial : Object} {s : Shared ι}

theorem heardWith_self (i : ι) (answer : Store.Answer) :
    s.heardWith i answer i = s.heard i ++ [answer] := by
  rw [heardWith, if_pos rfl]

theorem heardWith_of_ne {i j : ι} (h : j ≠ i) (answer : Store.Answer) :
    s.heardWith i answer j = s.heard j := by
  rw [heardWith, if_neg h]

/-- The client that got an answer goes on with it. -/
theorem phase_heardWith_self (i : ι) (answer : Store.Answer) (memory : Memory)
    (log : List (ι × Object)) :
    phase clients key ⟨memory, s.heardWith i answer, log⟩ i =
      (s.phase clients key i).hear (clients i) key answer := by
  show (clients i).phase key (s.heardWith i answer i) = _
  rw [heardWith_self, Updater.phase_concat, phase]

/-- All others stay where they are. -/
theorem phase_heardWith_of_ne {i j : ι} (h : j ≠ i) (answer : Store.Answer) (memory : Memory)
    (log : List (ι × Object)) :
    phase clients key ⟨memory, s.heardWith i answer, log⟩ j = s.phase clients key j := by
  show (clients j).phase key (s.heardWith i answer j) = _
  rw [heardWith_of_ne h, phase]

/-- **Run.** A client that makes its calls alone plays them in front of the store. -/
theorem foldl_advance_alone (clients : (i : ι) → Updater (Own i)) (type : ResourceType) (key : Key)
    (s : Shared ι) (i : ι) (stamp : Stamp) (calls : Nat) :
    ((List.replicate calls (i, stamp)).foldl (advance clients type key) s).phase clients key i =
        ((clients i).play type key (Memory.store stamp) calls (s.phase clients key i, s.memory)).1 ∧
      ((List.replicate calls (i, stamp)).foldl (advance clients type key) s).memory =
        ((clients i).play type key (Memory.store stamp) calls
          (s.phase clients key i, s.memory)).2 := by
  induction calls generalizing s with
  | zero => exact ⟨rfl, rfl⟩
  | succ calls ih =>
    have hturn := ((clients i).turn_eq type key (s.heard i)).1
    rw [List.replicate_succ, List.foldl_cons, Updater.play]
    cases hnext : (s.phase clients key i).turn type key with
    | ends outcome =>
      have hsame : s.advance clients type key (i, stamp) = s := by
        unfold advance
        dsimp only
        rw [hturn.trans hnext]
      rw [hsame]
      -- Neither the shared store nor the client goes on from here.
      have hended := Updater.Phase.eq_ended hnext
      obtain ⟨hphase, hmemory⟩ := ih s
      rw [hended, Updater.play_ended] at hphase hmemory
      rw [hphase, hmemory, ← hended]
      exact ⟨rfl, rfl⟩
    | asks call =>
      obtain ⟨hphase, hmemory⟩ := ih (s.advance clients type key (i, stamp))
      rw [hphase, hmemory]
      unfold advance
      dsimp only
      rw [hturn.trans hnext]
      dsimp only
      rw [phase_heardWith_self]
      exact ⟨rfl, rfl⟩

/-- A client that makes its calls alone comes to what its run comes to, and leaves the store as the
    run leaves it. -/
theorem run_alone (clients : (i : ι) → Updater (Own i)) (type : ResourceType) (key : Key)
    (m : Memory) (i : ι) (stamp : Stamp) :
    let s := run clients type key m
      (List.replicate (2 * (clients i).policy.attempts.toNat) (i, stamp))
    let result := (clients i).run type key (Memory.store stamp) m
    (clients i).turn type key (s.heard i) = .ends result.1 ∧ s.memory = result.2.2 := by
  intro s result
  have hreaches := (clients i).reaches_run type key (Memory.store stamp) m
  obtain ⟨hphase, hmemory⟩ := foldl_advance_alone clients type key (start m) i stamp
    (2 * (clients i).policy.attempts.toNat)
  rw [show ((start m).phase clients key i, (start m).memory) = ((clients i).phase key [], m) from rfl,
    hreaches] at hphase hmemory
  refine ⟨?_, hmemory⟩
  rw [((clients i).turn_eq type key (s.heard i)).1]
  exact congrArg (Updater.Phase.turn type key) hphase

/-- A client without accepted updates is not in the log. -/
theorem Consistent.not_logged (h : Consistent clients type key m initial s) {i : ι}
    (idle : (s.phase clients key i).applied = 0) {n : Nat} {entry : Object} :
    s.log[n]? ≠ some (i, entry) := by
  intro hentry
  have hcount := h.counted i
  rw [idle, List.countP_eq_zero] at hcount
  exact hcount _ (List.mem_of_getElem? hentry) (by simp)

/-- An answer to a client without accepted updates leaves the entries of the log what they are. -/
theorem Consistent.follows_heardWith (h : Consistent clients type key m initial s) {i : ι}
    (idle : (s.phase clients key i).applied = 0) (answer : Store.Answer) (memory : Memory) {n : Nat}
    {j : ι} {entry : Object} (hentry : s.log[n]? = some (j, entry)) :
    j ≠ i ∧ Follows clients type key m initial ⟨memory, s.heardWith i answer, s.log⟩ n j entry := by
  have hne : j ≠ i := by
    rintro rfl
    exact h.not_logged idle hentry
  obtain ⟨previous, next, own, own', hprevious, hmade, hreport, heq⟩ := h.follows hentry
  refine ⟨hne, previous, next, own, own', hprevious, hmade, ?_, heq⟩
  dsimp only
  rw [heardWith_of_ne hne]
  exact hreport

/-- **Step.** An answer that comes with no change of the objects. -/
theorem Consistent.quiet (h : Consistent clients type key m initial s) {i : ι} {memory : Memory}
    {event : Memory.Event} {answer : Store.Answer} (c : Memory.Change s.memory event answer memory)
    (objects : memory.objects = s.memory.objects) (version : memory.version = s.memory.version)
    (idle : (s.phase clients key i).applied = 0)
    (still : ((s.phase clients key i).hear (clients i) key answer).applied = 0)
    (rests : ∀ left read next notes,
      (s.phase clients key i).hear (clients i) key answer = .writing left read next notes →
        s.memory.objects.find? (Memory.slotAt type key) = some read ∧
          Updater.Phase.Made (clients i) read next notes) :
    Consistent clients type key m initial ⟨memory, s.heardWith i answer, s.log⟩ where
  kept := c.wellKept h.kept
  version := version.trans h.version
  content := by
    dsimp only
    rw [objects]
    exact h.content
  follows hentry := (h.follows_heardWith idle answer memory hentry).2
  counted j := by
    -- The client that got the answer had nothing accepted before and has nothing accepted now.
    by_cases hj : j = i
    · subst hj
      rw [phase_heardWith_self, still, ← idle]
      exact h.counted j
    · rw [phase_heardWith_of_ne hj]
      exact h.counted j
  resting {j left read next notes} hphase := by
    by_cases hj : j = i
    · subst hj
      rw [phase_heardWith_self] at hphase
      -- A client that starts to wait for its update has just read the object from the slot.
      obtain ⟨hread, hmade⟩ := rests left read next notes hphase
      refine ⟨(c.wellKept h.kept).sole ?_, hmade⟩
      rw [objects]
      exact hread
    · rw [phase_heardWith_of_ne hj] at hphase
      obtain ⟨hsole, hmade⟩ := h.resting hphase
      exact ⟨⟨by rw [version]; exact hsole.used, by rw [objects]; exact hsole.only⟩, hmade⟩

/-- The entry before the next one is what the slot holds. -/
theorem Consistent.last (h : Consistent clients type key m initial s) :
    (s.contents initial)[s.log.length]? =
      s.memory.objects.find? (Memory.slotAt type key) := by
  rw [h.content, List.getLast?_eq_getElem?]
  simp [contents]

/-- A new entry follows those before it, which stay what they are. -/
theorem Consistent.follows_append (h : Consistent clients type key m initial s) {i : ι}
    (idle : (s.phase clients key i).applied = 0) {read next entry : Object} {own own' : Own i}
    {answer : Store.Answer} (memory : Memory)
    (held : s.memory.objects.find? (Memory.slotAt type key) = some read)
    (hmade : (clients i).mutate read own = (.ok (some next), own'))
    (hreport : (clients i).lastReport type key (s.heard i ++ [answer]) = some (.ok (some next)))
    (hentry : entry = Memory.renewed read next (Memory.token (s.memory.version + 1)))
    {n : Nat} {j : ι} {other : Object} (hfind : (s.log ++ [(i, entry)])[n]? = some (j, other)) :
    Follows clients type key m initial
      ⟨memory, s.heardWith i answer, s.log ++ [(i, entry)]⟩ n j other := by
  have hcontents : ∀ {previous}, (s.contents initial)[n]? = some previous →
      (contents initial ⟨memory, s.heardWith i answer, s.log ++ [(i, entry)]⟩)[n]? =
        some previous := by
    intro previous hprevious
    have happend : contents initial ⟨memory, s.heardWith i answer, s.log ++ [(i, entry)]⟩ =
        s.contents initial ++ [entry] := by simp [contents]
    rw [happend, List.getElem?_append_left (List.getElem?_eq_some_iff.mp hprevious).1]
    exact hprevious
  -- An entry is an old one, or it is the last one.
  by_cases hlt : n < s.log.length
  · rw [List.getElem?_append_left hlt] at hfind
    obtain ⟨hne, previous, made, own, own', hprevious, hrest⟩ :=
      h.follows_heardWith idle answer memory hfind
    exact ⟨previous, made, own, own', hcontents hprevious, hrest⟩
  · have hn : n = s.log.length := by
      have := (List.getElem?_eq_some_iff.mp hfind).1
      simp at this
      omega
    subst hn
    rw [List.getElem?_append_right (Nat.le_refl _), Nat.sub_self] at hfind
    obtain ⟨rfl, rfl⟩ := Prod.mk.inj (Option.some.inj hfind)
    refine ⟨read, next, own, own', hcontents (h.last.trans held), hmade, ?_, ?_⟩
    · dsimp only
      rw [heardWith, if_pos rfl]
      exact hreport
    · rw [hentry, h.version]

/-- **Step.** An update that is accepted. -/
theorem Consistent.accepted (h : Consistent clients type key m initial s) {i : ι} {left : Nat}
    {read next entry : Object} {notes : Updater.Notes (Own i)} {memory : Memory} {stamp : Stamp}
    (hphase : s.phase clients key i = .writing left read next notes)
    (held : s.memory.objects.find? (Memory.slotAt type key) = some read)
    (hentry : entry = Memory.renewed read next (Memory.token (s.memory.version + 1)))
    (c : Memory.Change s.memory (.call stamp (.update next)) (.ok (some (.object entry))) memory)
    (objects : memory.objects = s.memory.objects.insert (Memory.slotAt type key) entry)
    (version : memory.version = s.memory.version + 1) :
    Consistent clients type key m initial
      ⟨memory, s.heardWith i (.ok (some (.object entry))), s.log ++ [(i, entry)]⟩ := by
  have idle : (s.phase clients key i).applied = 0 := by rw [hphase]; rfl
  obtain ⟨_, hlast, own, hmade⟩ := h.resting hphase
  have hends : (s.phase clients key i).hear (clients i) key (.ok (some (.object entry))) =
      .ended (.done (some (.object entry))) notes := by
    rw [hphase]
    rfl
  -- In the order of the fields: version, content, follows, counted and resting.
  refine ⟨c.wellKept h.kept, ?_, ?_, ?_, ?_, ?_⟩
  · dsimp only
    rw [version, h.version, List.length_append, List.length_singleton]
    omega
  · dsimp only
    rw [objects, Table.find?_insert, if_pos rfl]
    simp [contents, List.getLast?_cons]
  · intro n j other hfind
    refine h.follows_append idle memory held hmade ?_ hentry hfind
    rw [((clients i).turn_eq type key _).2, Updater.phase_concat]
    rw [phase] at hends
    rw [hends]
    exact hlast
  · intro j
    by_cases hj : j = i
    · subst hj
      rw [phase_heardWith_self, hends, Updater.Phase.applied_done hlast, List.countP_append,
        h.counted j, idle]
      simp
    · rw [phase_heardWith_of_ne hj, ← h.counted j, List.countP_append]
      simp [Ne.symm hj]
  · intro j left' read' next' notes' hwriting
    by_cases hj : j = i
    · subst hj
      rw [phase_heardWith_self, hends] at hwriting
      cases hwriting
    · rw [phase_heardWith_of_ne hj] at hwriting
      obtain ⟨hsole, hmade⟩ := h.resting hwriting
      -- What another client rests on may be gone now, but nothing else gets its token.
      exact ⟨c.sole rfl hsole, hmade⟩

/-- **Step.** A call of any client keeps a shared store consistent. -/
theorem Consistent.advance (h : Consistent clients type key m initial s)
    (keeps : ∀ i object own next own', (clients i).mutate object own = (.ok (some next), own') →
      next.metadata.version = object.metadata.version) (turn : ι × Stamp) :
    Consistent clients type key m initial (s.advance clients type key turn) := by
  obtain ⟨i, stamp⟩ := turn
  have hturn := ((clients i).turn_eq type key (s.heard i)).1
  unfold Shared.advance
  dsimp only
  rw [hturn]
  cases hphase : (clients i).phase key (s.heard i) with
  | ended outcome notes => exact h
  | reading left notes =>
    -- A read changes nothing, and what it brings is what the slot holds.
    have hreading : s.phase clients key i = .reading left notes := hphase
    obtain ⟨hobjects, hversion⟩ := Memory.get_frame stamp type key s.memory
    have c := Memory.get_change stamp type key s.memory
    dsimp only [Updater.Phase.turn, accepted?, Option.map_none, Option.toList_none]
    rw [List.append_nil]
    obtain ⟨hstill, hwrites⟩ := Updater.Phase.hear_reading (clients i) key
      (Memory.step (.call stamp (.get type key)) s.memory).1 left notes
    refine h.quiet c hobjects hversion (by rw [hreading]; rfl) (by rw [hreading]; exact hstill) ?_
    intro left' read next notes' hwriting
    rw [hreading] at hwriting
    obtain ⟨hread, hmade⟩ := hwrites left' read next notes' hwriting
    exact ⟨Memory.get_answer hread, hmade⟩
  | writing left read next notes =>
    -- An update is refused and changes nothing, or it replaces just what the client has read.
    have hwriting : s.phase clients key i = .writing left read next notes := hphase
    obtain ⟨hsole, hlast, own, hmade⟩ := h.resting hwriting
    have c := Memory.update_change stamp next s.memory
    dsimp only [Updater.Phase.turn]
    rcases Memory.update_answer stamp h.kept hsole (keeps i _ _ _ _ hmade) with
      ⟨failure, hanswer, hobjects, hversion⟩ | ⟨hheld, hanswer, hobjects, hversion⟩
    · rw [hanswer] at c ⊢
      dsimp only [accepted?, Option.map_none, Option.toList_none]
      rw [List.append_nil]
      have hfails : (s.phase clients key i).hear (clients i) key (.error failure) =
          .failed (.store .update next.key.display failure) notes left := by
        rw [hwriting]
        rfl
      refine h.quiet c hobjects hversion (by rw [hwriting]; rfl) ?_ ?_
      · rw [hfails, Updater.Phase.applied_failed]
      · intro left' read' next' notes' hagain
        rw [hfails] at hagain
        exact absurd hagain (Updater.Phase.failed_ne_writing _ _ _)
    · rw [hanswer] at c ⊢
      exact h.accepted hwriting hheld rfl c hobjects hversion

/-- A shared store is consistent before the first call. -/
theorem consistent_start (reachable : m.Reachable)
    (held : m.objects.find? (Memory.slotAt type key) = some initial) :
    Consistent clients type key m initial (start m) where
  kept := reachable.wellKept
  version := by simp [start]
  content := by simpa [start, contents] using held
  follows h := by cases h
  counted i := rfl
  resting h := by cases h

/-- **Run.** A shared store is consistent whatever calls its clients have made. -/
theorem consistent_run (reachable : m.Reachable)
    (held : m.objects.find? (Memory.slotAt type key) = some initial)
    (keeps : ∀ i object own next own', (clients i).mutate object own = (.ok (some next), own') →
      next.metadata.version = object.metadata.version) (schedule : List (ι × Stamp)) :
    Consistent clients type key m initial (run clients type key m schedule) := by
  unfold run
  generalize hstart : start m = s
  have h : Consistent clients type key m initial s := hstart ▸ consistent_start reachable held
  clear hstart
  induction schedule generalizing s with
  | nil => exact h
  | cons turn rest ih => exact ih _ (h.advance keeps turn)

/-- The log of a run is continued by the runs that go on from it. -/
theorem log_run_append (clients : (i : ι) → Updater (Own i)) (type : ResourceType) (key : Key)
    (m : Memory) (earlier later : List (ι × Stamp)) :
    (run clients type key m earlier).log <+: (run clients type key m (earlier ++ later)).log := by
  unfold run
  rw [List.foldl_append]
  generalize earlier.foldl (advance clients type key) (start m) = s
  induction later generalizing s with
  | nil => exact List.prefix_refl _
  | cons turn rest ih =>
    refine List.IsPrefix.trans ?_ (ih _)
    unfold advance
    split
    · exact List.prefix_refl _
    · exact List.prefix_append _ _

/-- **No lost update.**  Let any number of clients, each with attempts of its own, change one object of
    a shared store by what they make of it, and let nobody else write.  In whatever order they make
    their calls, the slot holds the initial object and then one entry for each accepted update; each
    entry is what its client made last, of the entry before it, with identity and time of creation
    kept and a token of its own; and a client contributes one entry at most, one if it is done and
    its last report was a change, and none if it ends in an error. -/
theorem no_lost_update (clients : (i : ι) → Updater (Own i)) (type : ResourceType) (key : Key)
    (reachable : m.Reachable) (held : m.objects.find? (Memory.slotAt type key) = some initial)
    (keeps : ∀ i object own next own', (clients i).mutate object own = (.ok (some next), own') →
      next.metadata.version = object.metadata.version) (schedule : List (ι × Stamp)) :
    let s := run clients type key m schedule
    (∀ earlier later, schedule = earlier ++ later →
      (run clients type key m earlier).memory.objects.find? (Memory.slotAt type key) =
        (s.contents initial)[(run clients type key m earlier).log.length]?) ∧
    (∀ n i entry, s.log[n]? = some (i, entry) → Follows clients type key m initial s n i entry) ∧
    ∀ i, s.log.countP (fun entry => entry.1 = i) ≤ 1 ∧
      (∀ payload next, (clients i).turn type key (s.heard i) = .ends (.done payload) →
        (clients i).lastReport type key (s.heard i) = some (.ok (some next)) →
          s.log.countP (fun entry => entry.1 = i) = 1) ∧
      (∀ cause, (clients i).turn type key (s.heard i) = .ends (.error cause) →
        s.log.countP (fun entry => entry.1 = i) = 0) := by
  intro s
  have h := consistent_run reachable held keeps schedule
  refine ⟨?_, fun n i entry hentry => h.follows hentry, fun i => ?_⟩
  · rintro earlier later rfl
    have hearlier := consistent_run reachable held keeps earlier
    -- The entries so far are the first ones of all entries.
    obtain ⟨rest, hrest⟩ := log_run_append clients type key m earlier later
    have hcontents : s.contents initial =
        (run clients type key m earlier).contents initial ++ rest.map Prod.snd := by
      rw [contents, contents, ← hrest, List.map_append, List.cons_append]
    rw [← hearlier.last, hcontents, List.getElem?_append_left (by simp [contents])]
  · have hcount := h.counted i
    obtain ⟨hturn, hreport⟩ := (clients i).turn_eq type key (s.heard i)
    refine ⟨?_, ?_, ?_⟩
    · rw [hcount]
      exact Updater.Phase.applied_le_one _
    · intro payload next hdone hlast
      rw [hcount, phase, Updater.Phase.eq_ended (hturn.symm.trans hdone)]
      exact Updater.Phase.applied_done (hreport.symm.trans hlast) payload
    · intro cause herror
      rw [hcount, phase, Updater.Phase.eq_ended (hturn.symm.trans herror)]
      rfl

end Shared

/-! ### Two clients that label one object -/

namespace Shared.Labelling

open Specimen

/-- The store in which the object is. -/
def seeded : Memory := Memory.empty.after [.insert .verbatim sample]

/-- The object as it is stored. -/
def initial : Object := Memory.stamped .verbatim (Memory.slotAt secrets (key "a")) 1 sample

/-- Each client sets a label of its own. -/
def clients (right : Bool) : Updater Unit where
  policy := .standard
  target := key "a"
  start := ()
  mutate object own :=
    (.ok (some (object.withLabel (if right then "right" else "left") "set")), own)

/-- Both read the object before either of them writes, so that one of them has to try again. -/
def schedule : List (Bool × Stamp) :=
  [false, true, false, true, true, true].map fun right => (right, .verbatim)

/-- The run. -/
def labelling : Shared Bool := run clients secrets (key "a") seeded schedule

theorem clients_keep_version (right : Bool) (object : Object) (own : Unit) (next : Object)
    (own' : Unit) (h : (clients right).mutate object own = (.ok (some next), own')) :
    next.metadata.version = object.metadata.version := by
  simp only [clients, Prod.mk.injEq, Except.ok.injEq, Option.some.injEq] at h
  obtain ⟨rfl, _⟩ := h
  rfl

set_option maxRecDepth 8000 in
/-- Each client contributes one entry, the second is made of the first, and the slot holds it. -/
theorem both_labels_kept :
    labelling.log.map Prod.fst = [false, true] ∧
    (∃ entry, labelling.log[1]? = some (true, entry) ∧
      Follows clients secrets (key "a") seeded initial labelling 1 true entry) ∧
    labelling.memory.objects.find? (Memory.slotAt secrets (key "a")) =
      (labelling.contents initial)[2]? ∧
    ∀ i, labelling.log.countP (fun entry => entry.1 = i) ≤ 1 := by
  have hlog : labelling.log.map Prod.fst = [false, true] := by decide
  have hlength : labelling.log.length = 2 := by
    rw [← List.length_map Prod.fst, hlog]
    rfl
  have hreachable : seeded.Reachable := ⟨[.insert .verbatim sample], rfl⟩
  have hheld : seeded.objects.find? (Memory.slotAt secrets (key "a")) = some initial := by decide
  obtain ⟨hcontents, hfollows, hcounts⟩ :=
    no_lost_update clients secrets (key "a") hreachable hheld clients_keep_version schedule
  refine ⟨hlog, ?_, ?_, fun i => (hcounts i).1⟩
  · have hsecond : (labelling.log.map Prod.fst)[1]? = some true := by
      rw [hlog]
      rfl
    rw [List.getElem?_map] at hsecond
    obtain ⟨⟨right, entry⟩, hentry, rfl⟩ := Option.map_eq_some_iff.mp hsecond
    exact ⟨entry, hentry, hfollows 1 _ entry hentry⟩
  · have hlast : labelling.memory.objects.find? (Memory.slotAt secrets (key "a")) =
        (labelling.contents initial)[labelling.log.length]? :=
      hcontents schedule [] (List.append_nil _).symm
    rw [hlength] at hlast
    exact hlast

end Shared.Labelling

end Reconciliation
