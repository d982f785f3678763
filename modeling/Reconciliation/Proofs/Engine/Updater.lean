import Reconciliation.Proofs.Engine.Step
import Reconciliation.Proofs.Store.Call
import Reconciliation.Retry

namespace Reconciliation

/-!
# Clients that change one object

* `Updater` — a client that reads an object, changes it and writes it back, with retries;
* `Updater.run` — such a client in front of any store, and `Updater.attempt_eq`, all that one attempt
  of it does;
* `Dialogue` — a store that knows its next answers, and notes the first call for which it has none;
* `Updater.turn` — what a client does next when it has heard some answers;
* `Updater.Phase` — the same client, one answer after the other;
* `Updater.reaches_run` — a run in front of any store is what its phases make of it, call by call;
* `Updater.turn_eq` — what a client does next is what its phase says.

A client reaches its store through calls only.  So the answers that it has heard decide what it does
next, whatever other clients do in between.
-/

/-! ### A client -/

/-- A client that changes one object.  What it makes of the object may depend on a state of its own. -/
structure Updater (Own : Type) where
  policy : RetryPolicy
  target : Key
  start : Own
  mutate : Object → Own → Except EngineError (Option Object) × Own

namespace Updater

/-- What a client keeps for itself: its own state, and what `mutate` reported last. -/
structure Notes (Own : Type) where
  own : Own
  last : Option (Except EngineError (Option Object))

variable {Own ρ : Type}

/-- The change of the object, with its report noted. -/
def noting (u : Updater Own) (object : Object) (state : Notes Own × ρ) :
    Except EngineError (Option Object) × (Notes Own × ρ) :=
  let (report, own) := u.mutate object state.1.own
  (report, ⟨own, some report⟩, state.2)

@[simp] theorem noting_pair (u : Updater Own) (object : Object) (notes : Notes Own) (rest : ρ) :
    u.noting object (notes, rest) =
      ((u.mutate object notes.own).1,
        ⟨(u.mutate object notes.own).2, some (u.mutate object notes.own).1⟩, rest) := rfl

/-- The context of a client that nobody cancels. -/
def context (u : Updater Own) (store : Store ρ) : Context (Notes Own × ρ) :=
  ⟨store.within Prod.snd fun rest state => (state.1, rest), u.target, fun _ => false⟩

/-- The chain of one step that a client runs. -/
def chain (u : Updater Own) (type : ResourceType) (key : Key) : Chain (Notes Own × ρ) :=
  ⟨[.updateWith type key u.noting]⟩

/-- Runs a client in front of a store. -/
def run (u : Updater Own) (type : ResourceType) (key : Key) (store : Store ρ) (rest : ρ) :
    Outcome × Notes Own × ρ :=
  (u.chain type key).runRetrying (u.context store) u.policy (⟨u.start, none⟩, rest)

@[simp] theorem context_get (u : Updater Own) (store : Store ρ) (type : ResourceType) (key : Key)
    (notes : Notes Own) (rest : ρ) :
    (u.context store).store.get type key (notes, rest) =
      ((store.get type key rest).1, notes, (store.get type key rest).2) := rfl

@[simp] theorem context_update (u : Updater Own) (store : Store ρ) (object : Object)
    (notes : Notes Own) (rest : ρ) :
    (u.context store).store.update object (notes, rest) =
      ((store.update object rest).1, notes, (store.update object rest).2) := rfl

/-- What an attempt that wrote comes to, by the answer of the store. -/
def written (next : Object) (notes : Notes Own) :
    Except StoreError Object × ρ → Outcome × Notes Own × ρ
  | (.error failure, rest) => (.error (.store .update next.key.display failure), notes, rest)
  | (.ok stored, rest) => (.done (some (.object stored)), notes, rest)

/-- All that one attempt of a client does. -/
theorem attempt_eq (u : Updater Own) (type : ResourceType) (key : Key) (store : Store ρ)
    (notes : Notes Own) (rest : ρ) :
    (u.chain type key).run (u.context store) (notes, rest) =
      match store.get type key rest with
      | (.error failure, rest) => (.ofRead .get key.display (.error failure), notes, rest)
      | (.ok object, rest) =>
        match u.mutate object notes.own with
        | (.error failure, own) =>
          (.error (.step .call ("update " ++ key.display) failure),
            ⟨own, some (.error failure)⟩, rest)
        | (.ok none, own) => (.done (some (.object object)), ⟨own, some (.ok none)⟩, rest)
        | (.ok (some next), own) =>
          written next ⟨own, some (.ok (some next))⟩ (store.update next rest) := by
  rw [chain, Chain.run_updateWith fun _ => rfl, context_get]
  rcases store.get type key rest with ⟨failure | object, rest⟩
  · rfl
  · simp only [noting_pair]
    rcases u.mutate object notes.own with ⟨failure | _ | next, own⟩
    · rfl
    · rfl
    · simp only [context_update]
      rcases store.update next rest with ⟨failure | stored, rest⟩
      · rfl
      · rfl

end Updater

/-! ### Answers that were heard -/

/-- A store that answers from a list, and notes the first call for which nothing is left. -/
structure Dialogue where
  ahead : List Store.Answer
  waiting : Option Store.Call

namespace Dialogue

/-- What is answered when no answer is left.  It is never heard by anyone. -/
def unanswered : StoreError := .internal "no answer yet"

/-- The next answer. -/
def ask (call : Store.Call) (d : Dialogue) : Store.Answer × Dialogue :=
  match d.ahead with
  | answer :: rest => (answer, { d with ahead := rest })
  | [] => (.error unanswered, { d with waiting := d.waiting <|> some call })

/-- The object that an answer brings. -/
def objectOf : Store.Answer → Except StoreError Object
  | .ok (some (.object object)) => .ok object
  | .error failure => .error failure
  | .ok _ => .error unanswered

/-- The list that an answer brings. -/
def listOf : Store.Answer → Except StoreError (List Object)
  | .ok (some (.list items)) => .ok items
  | .error failure => .error failure
  | .ok _ => .error unanswered

/-- The calls as a store. -/
def store : Store Dialogue :=
  { name := "dialogue"
    get := fun type key d => mapAnswer objectOf (d.ask (.get type key))
    list := fun type filter d => mapAnswer listOf (d.ask (.list type filter))
    create := fun object d => mapAnswer objectOf (d.ask (.create object))
    update := fun object d => mapAnswer objectOf (d.ask (.update object))
    delete := fun type key options d =>
      mapAnswer (Except.map fun _ => ()) (d.ask (.delete type key options)) }

variable (type : ResourceType) (key : Key) (object : Object) (answer : Store.Answer)
  (rest : List Store.Answer) (waiting : Option Store.Call)

@[simp] theorem get_heard : store.get type key ⟨answer :: rest, waiting⟩ =
    (objectOf answer, ⟨rest, waiting⟩) := rfl

@[simp] theorem update_heard : store.update object ⟨answer :: rest, waiting⟩ =
    (objectOf answer, ⟨rest, waiting⟩) := rfl

end Dialogue

namespace Updater

variable {Own ρ : Type}

/-- What a client does next. -/
inductive Turn where
  | asks (call : Store.Call)
  | ends (outcome : Outcome)
deriving DecidableEq

/-- What a run in front of a dialogue comes to. -/
def turnOf (result : Outcome × Notes Own × Dialogue) : Turn :=
  result.2.2.waiting.elim (.ends result.1) .asks

/-- What a client does next when it has heard some answers. -/
def turn (u : Updater Own) (type : ResourceType) (key : Key) (heard : List Store.Answer) : Turn :=
  turnOf (u.run type key Dialogue.store ⟨heard, none⟩)

/-- What `mutate` has reported last when a client has heard some answers. -/
def lastReport (u : Updater Own) (type : ResourceType) (key : Key) (heard : List Store.Answer) :
    Option (Except EngineError (Option Object)) :=
  (u.run type key Dialogue.store ⟨heard, none⟩).2.1.last

/-! ### One answer after the other -/

/-- Where a client is in its work. -/
inductive Phase (Own : Type) where
  /-- It waits for the object, in an attempt after which some are left. -/
  | reading (left : Nat) (notes : Notes Own)
  /-- It waits for its update to be accepted, which rests on what it read. -/
  | writing (left : Nat) (read next : Object) (notes : Notes Own)
  | ended (outcome : Outcome) (notes : Notes Own)

namespace Phase

/-- What a client notes. -/
def notes : Phase Own → Notes Own
  | reading _ notes | writing _ _ _ notes | ended _ notes => notes

/-- What a client does in a phase. -/
def turn (type : ResourceType) (key : Key) : Phase Own → Turn
  | reading _ _ => .asks (.get type key)
  | writing _ _ next _ => .asks (.update next)
  | ended outcome _ => .ends outcome

/-- The phase after an attempt that failed. -/
def failed (cause : EngineError) (notes : Notes Own) : Nat → Phase Own
  | 0 => ended (.error cause) notes
  | left + 1 => reading left notes

/-- The phase after an answer. -/
def hear (u : Updater Own) (key : Key) (answer : Store.Answer) : Phase Own → Phase Own
  | reading left notes =>
    match Dialogue.objectOf answer with
    | .error failure =>
      if failure.isNotFound then .ended (.notFound (.store .get key.display failure)) notes
      else failed (.store .get key.display failure) notes left
    | .ok object =>
      match u.mutate object notes.own with
      | (.error failure, own) =>
        failed (.step .call ("update " ++ key.display) failure) ⟨own, some (.error failure)⟩ left
      | (.ok none, own) => ended (.done (some (.object object))) ⟨own, some (.ok none)⟩
      | (.ok (some next), own) => writing left object next ⟨own, some (.ok (some next))⟩
  | writing left _ next notes =>
    match Dialogue.objectOf answer with
    | .error failure => failed (.store .update next.key.display failure) notes left
    | .ok stored => ended (.done (some (.object stored))) notes
  | ended outcome notes => ended outcome notes

/-- The phase after some answers. -/
def hearAll (u : Updater Own) (key : Key) (phase : Phase Own) (heard : List Store.Answer) :
    Phase Own :=
  heard.foldl (fun phase answer => phase.hear u key answer) phase

@[simp] theorem hearAll_nil (u : Updater Own) (key : Key) (phase : Phase Own) :
    phase.hearAll u key [] = phase := rfl

@[simp] theorem hearAll_cons (u : Updater Own) (key : Key) (phase : Phase Own)
    (answer : Store.Answer) (rest : List Store.Answer) :
    phase.hearAll u key (answer :: rest) = (phase.hear u key answer).hearAll u key rest := rfl

/-- A client that has ended does not go on, whatever it hears. -/
@[simp] theorem hearAll_ended (u : Updater Own) (key : Key) (outcome : Outcome) (notes : Notes Own)
    (heard : List Store.Answer) :
    (ended outcome notes).hearAll u key heard = ended outcome notes := by
  induction heard with
  | nil => rfl
  | cons answer rest ih => exact ih

end Phase

/-- The phase of a client that has heard some answers. -/
def phase (u : Updater Own) (key : Key) (heard : List Store.Answer) : Phase Own :=
  (Phase.reading (u.policy.attempts.toNat - 1) ⟨u.start, none⟩).hearAll u key heard

theorem phase_concat (u : Updater Own) (key : Key) (heard : List Store.Answer)
    (answer : Store.Answer) :
    u.phase key (heard ++ [answer]) = (u.phase key heard).hear u key answer := by
  rw [phase, Phase.hearAll, List.foldl_append]
  rfl

/-! ### A run is played call by call -/

/-- Where a client and its store are after some more calls. -/
def play (u : Updater Own) (type : ResourceType) (key : Key) (store : Store ρ) :
    Nat → Phase Own × ρ → Phase Own × ρ
  | 0, state => state
  | calls + 1, (phase, rest) =>
    match phase.turn type key with
    | .ends _ => (phase, rest)
    | .asks call =>
      let (answer, rest) := store.perform call rest
      u.play type key store calls (phase.hear u key answer, rest)

section Play

variable (u : Updater Own) (type : ResourceType) (key : Key) (store : Store ρ)

@[simp] theorem play_ended (calls : Nat) (outcome : Outcome) (notes : Notes Own) (rest : ρ) :
    u.play type key store calls (.ended outcome notes, rest) = (.ended outcome notes, rest) := by
  cases calls <;> rfl

/-- The client has ended after some calls, with a result. -/
def Reaches (calls : Nat) (state : Phase Own × ρ) (result : Outcome × Notes Own × ρ) : Prop :=
  u.play type key store calls state = (.ended result.1 result.2.1, result.2.2)

/-- A client that has ended makes no call any more. -/
theorem Reaches.succ {calls : Nat} {state : Phase Own × ρ} {result : Outcome × Notes Own × ρ}
    (h : u.Reaches type key store calls state result) :
    u.Reaches type key store (calls + 1) state result := by
  induction calls generalizing state with
  | zero =>
    obtain rfl : state = (.ended result.1 result.2.1, result.2.2) := h
    exact u.play_ended type key store 1 _ _ _
  | succ calls ih =>
    obtain ⟨phase, rest⟩ := state
    unfold Reaches at h ⊢
    rw [play] at h ⊢
    cases hturn : phase.turn type key with
    | ends outcome =>
      rw [hturn] at h
      exact h
    | asks call =>
      rw [hturn] at h
      exact ih h

/-- What a read brings is heard as it is. -/
theorem objectOf_perform_get (rest : ρ) :
    Dialogue.objectOf (store.perform (.get type key) rest).1 = (store.get type key rest).1 := by
  show Dialogue.objectOf (Except.map _ (store.get type key rest).1) = _
  cases (store.get type key rest).1 with
  | ok object => rfl
  | error failure => rfl

/-- What an update brings is heard as it is. -/
theorem objectOf_perform_update (object : Object) (rest : ρ) :
    Dialogue.objectOf (store.perform (.update object) rest).1 = (store.update object rest).1 := by
  show Dialogue.objectOf (Except.map _ (store.update object rest).1) = _
  cases (store.update object rest).1 with
  | ok stored => rfl
  | error failure => rfl

/-- **Step.** An attempt that has come to its update, if what follows a failed one is known. -/
theorem reaches_writing {calls left : Nat}
    (hfailed : ∀ cause notes rest, u.Reaches type key store calls
      (Phase.failed cause notes left, rest)
      ((u.chain type key).resume (u.context store) cause (notes, rest) left))
    (read next : Object) (notes : Notes Own) (rest : ρ) {state : Notes Own × ρ}
    (hrun : (u.chain type key).run (u.context store) state =
      written next notes (store.update next rest)) :
    u.Reaches type key store (calls + 1) (.writing left read next notes, rest)
      ((u.chain type key).runAgain (u.context store) left state) := by
  show u.play type key store calls
    ((Phase.writing left read next notes).hear u key (store.perform (.update next) rest).1,
      (store.update next rest).2) = _
  rw [Phase.hear, objectOf_perform_update]
  rcases hupdate : store.update next rest with ⟨failure | stored, after⟩
  · rw [hupdate] at hrun
    rw [Chain.runAgain_of_error hrun]
    exact hfailed _ _ _
  · rw [hupdate] at hrun
    rw [Chain.runAgain_of_ok hrun (fun h => by cases h)]
    exact u.play_ended type key store calls _ _ _

/-- **Step.** One attempt, if what follows a failed one is known. -/
theorem reaches_reading {calls left : Nat}
    (hfailed : ∀ cause notes rest, u.Reaches type key store calls
      (Phase.failed cause notes left, rest)
      ((u.chain type key).resume (u.context store) cause (notes, rest) left))
    (notes : Notes Own) (rest : ρ) :
    u.Reaches type key store (calls + 2) (.reading left notes, rest)
      ((u.chain type key).runAgain (u.context store) left (notes, rest)) := by
  have hrun := u.attempt_eq type key store notes rest
  show u.play type key store (calls + 1)
    ((Phase.reading left notes).hear u key (store.perform (.get type key) rest).1,
      (store.get type key rest).2) = _
  rw [Phase.hear, objectOf_perform_get]
  rcases hget : store.get type key rest with ⟨failure | object, after⟩
  · rw [hget] at hrun
    dsimp only [Outcome.ofRead] at hrun ⊢
    -- A missing object ends the client without an error, so that no attempt follows.
    by_cases hfound : failure.isNotFound = true
    · rw [if_pos hfound] at hrun ⊢
      rw [Chain.runAgain_of_ok hrun (fun h => by cases h)]
      exact u.play_ended type key store (calls + 1) _ _ _
    · rw [if_neg hfound] at hrun ⊢
      rw [Chain.runAgain_of_error hrun]
      -- This attempt made one call, and may have made two.
      exact (hfailed _ _ _).succ
  · rw [hget] at hrun
    dsimp only at hrun ⊢
    rcases hmutate : u.mutate object notes.own with ⟨failure | _ | next, own⟩
    · rw [hmutate] at hrun
      rw [Chain.runAgain_of_error hrun]
      exact (hfailed _ _ _).succ
    · rw [hmutate] at hrun
      rw [Chain.runAgain_of_ok hrun (fun h => by cases h)]
      exact u.play_ended type key store (calls + 1) _ _ _
    · rw [hmutate] at hrun
      exact u.reaches_writing type key store hfailed object next _ after hrun

/-- **Run.** A run of a client is played call by call, and each attempt makes two calls at most. -/
theorem reaches_runAgain (left : Nat) (notes : Notes Own) (rest : ρ) :
    u.Reaches type key store (2 * (left + 1)) (.reading left notes, rest)
      ((u.chain type key).runAgain (u.context store) left (notes, rest)) := by
  -- What follows a failed attempt are the attempts that are left, in any state that it leaves.
  induction left generalizing notes rest with
  | zero =>
    have hfailed : ∀ cause notes rest, u.Reaches type key store 0 (Phase.failed cause notes 0, rest)
        ((u.chain type key).resume (u.context store) cause (notes, rest) 0) := fun _ _ _ => rfl
    exact u.reaches_reading type key store hfailed notes rest
  | succ left ih =>
    exact u.reaches_reading type key store (fun _ notes rest => ih notes rest) notes rest

/-- A run in front of any store makes two calls for each attempt at most, and comes to what its
    phases say. -/
theorem reaches_run (rest : ρ) :
    u.Reaches type key store (2 * u.policy.attempts.toNat) (u.phase key [], rest)
      (u.run type key store rest) := by
  have hattempts : u.policy.attempts.toNat - 1 + 1 = u.policy.attempts.toNat := by
    have := u.policy.positive
    omega
  have h := u.reaches_runAgain type key store (u.policy.attempts.toNat - 1) ⟨u.start, none⟩ rest
  rw [hattempts] at h
  rw [run, Chain.runRetrying_eq]
  exact h

end Play

/-! ### A client does what its phase says -/

section Replay

variable (u : Updater Own) (type : ResourceType) (key : Key)

/-- An answer that never comes leaves a client with the notes that it has. -/
theorem notes_hear_unanswered (phase : Phase Own) :
    (phase.hear u key (.error Dialogue.unanswered)).notes = phase.notes := by
  cases phase with
  | reading left notes => cases left <;> rfl
  | writing left read next notes => cases left <;> rfl
  | ended outcome notes => rfl

/-- A dialogue without answers only notes the first call for which it has none. -/
theorem perform_unanswered {phase : Phase Own} {call : Store.Call}
    (h : phase.turn type key = .asks call) (waiting : Option Store.Call) :
    Dialogue.store.perform call ⟨[], waiting⟩ =
      (.error Dialogue.unanswered, ⟨[], waiting <|> some call⟩) := by
  cases phase with
  | reading left notes =>
    cases h
    rfl
  | writing left read next notes =>
    cases h
    rfl
  | ended outcome notes => cases h

/-- A client that gets no more answers waits for the first one that it did not get, and notes
    nothing more. -/
theorem Reaches.waiting {calls : Nat} {phase : Phase Own} {call : Store.Call}
    {result : Outcome × Notes Own × Dialogue}
    (h : u.Reaches type key Dialogue.store calls (phase, ⟨[], some call⟩) result) :
    result.2 = (phase.notes, ⟨[], some call⟩) := by
  induction calls generalizing phase with
  | zero =>
    obtain ⟨rfl, hrest⟩ := Prod.mk.inj h
    exact Prod.ext rfl hrest.symm
  | succ calls ih =>
    unfold Reaches at h
    rw [play] at h
    cases hturn : phase.turn type key with
    | ends outcome =>
      rw [hturn] at h
      obtain ⟨rfl, hrest⟩ := Prod.mk.inj h
      exact Prod.ext rfl hrest.symm
    | asks next =>
      rw [hturn] at h
      dsimp only at h
      -- The call that is noted is the first one, whatever the client asks for later.
      rw [perform_unanswered type key hturn] at h
      rw [← notes_hear_unanswered u key phase]
      exact ih h

/-- A dialogue gives a client its next answer. -/
theorem hear_perform {phase : Phase Own} {call : Store.Call} (h : phase.turn type key = .asks call)
    (answer : Store.Answer) (heard : List Store.Answer) :
    phase.hear u key (Dialogue.store.perform call ⟨answer :: heard, none⟩).1 =
        phase.hear u key answer ∧
      (Dialogue.store.perform call ⟨answer :: heard, none⟩).2 = ⟨heard, none⟩ := by
  cases phase with
  | reading left notes =>
    cases h
    rw [Phase.hear, objectOf_perform_get, Dialogue.get_heard, Phase.hear]
    exact ⟨rfl, rfl⟩
  | writing left read next notes =>
    cases h
    rw [Phase.hear, objectOf_perform_update, Dialogue.update_heard, Phase.hear]
    exact ⟨rfl, rfl⟩
  | ended outcome notes => cases h

/-- **Run.** A run in front of a dialogue comes to the phase after its answers, one after the other. -/
theorem Reaches.turn {calls : Nat} {phase : Phase Own} {heard : List Store.Answer}
    {result : Outcome × Notes Own × Dialogue}
    (h : u.Reaches type key Dialogue.store calls (phase, ⟨heard, none⟩) result) :
    turnOf result = (phase.hearAll u key heard).turn type key ∧
      result.2.1 = (phase.hearAll u key heard).notes := by
  induction calls generalizing phase heard with
  | zero =>
    obtain ⟨rfl, hrest⟩ := Prod.mk.inj h
    rw [Phase.hearAll_ended, turnOf, ← hrest]
    exact ⟨rfl, rfl⟩
  | succ calls ih =>
    unfold Reaches at h
    rw [play] at h
    cases hturn : phase.turn type key with
    | ends outcome =>
      rw [hturn] at h
      obtain ⟨rfl, hrest⟩ := Prod.mk.inj h
      rw [Phase.hearAll_ended, turnOf, ← hrest]
      exact ⟨rfl, rfl⟩
    | asks call =>
      rw [hturn] at h
      dsimp only at h
      cases heard with
      | nil =>
        rw [perform_unanswered type key hturn] at h
        -- From here on the client waits for the answer to this call.
        have hwaiting := Reaches.waiting u type key h
        rw [Phase.hearAll_nil, turnOf, hturn, hwaiting, notes_hear_unanswered]
        exact ⟨rfl, rfl⟩
      | cons answer heard =>
        obtain ⟨hhear, hrest⟩ := hear_perform u type key hturn answer heard
        rw [hhear, hrest] at h
        rw [Phase.hearAll_cons]
        exact ih h

/-- What a client does next, and what it was told last, is what its phase says. -/
theorem turn_eq (heard : List Store.Answer) :
    u.turn type key heard = (u.phase key heard).turn type key ∧
      u.lastReport type key heard = (u.phase key heard).notes.last := by
  obtain ⟨hturn, hnotes⟩ :=
    Reaches.turn u type key (u.reaches_run type key Dialogue.store ⟨heard, none⟩)
  refine ⟨hturn, ?_⟩
  rw [lastReport, hnotes]
  rfl

end Replay

end Updater

end Reconciliation
