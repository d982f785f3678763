import Reconciliation.Proofs.Engine.Updater

namespace Reconciliation

/-!
# Programs that reach a store through calls

* `Script` — what a program does with a store, call by call, by the answers that it gets;
* `Script.exec`, `Script.after` — a script in front of a store, and what is left of it when it has
  heard some answers;
* `Script.replay` — in front of a dialogue a script ends, or waits for its next call, as it does after
  the answers of the dialogue;
* `Script.again` — an attempt that is made again as long as it ends in an error;
* `Client`, `Client.run`, `Client.turn` — a client that runs a chain with retries and keeps nothing to
  itself, its run in front of a store, and what it does next when it has heard some answers;
* `Client.run_eq`, `Client.turn_eq` — its run is its script in front of the store, and its turn is
  that of its script after the answers.
-/

/-- What a program does with a store. -/
inductive Script where
  | ends (outcome : Outcome)
  /-- It makes a call, and goes on by the answer. -/
  | asks (call : Store.Call) (next : Store.Answer → Script)

namespace Dialogue

/-- An answer as the caller of a call hears it. -/
def heardAs (call : Store.Call) (answer : Store.Answer) : Store.Answer :=
  (Dialogue.store.perform call ⟨[answer], none⟩).1

/-- What a store answers to a call is heard as it is. -/
theorem heardAs_perform {ρ : Type} (store : Store ρ) (call : Store.Call) (rest : ρ) :
    heardAs call (store.perform call rest).1 = (store.perform call rest).1 := by
  cases call with
  | get type key =>
    show Except.map _ (objectOf (Except.map _ (store.get type key rest).1)) = _
    cases hanswer : (store.get type key rest).1 <;> simp only [Store.perform, mapAnswer, hanswer] <;> rfl
  | list type filter =>
    show Except.map _ (listOf (Except.map _ (store.list type filter rest).1)) = _
    cases hanswer : (store.list type filter rest).1 <;>
      simp only [Store.perform, mapAnswer, hanswer] <;> rfl
  | create object =>
    show Except.map _ (objectOf (Except.map _ (store.create object rest).1)) = _
    cases hanswer : (store.create object rest).1 <;> simp only [Store.perform, mapAnswer, hanswer] <;> rfl
  | update object =>
    show Except.map _ (objectOf (Except.map _ (store.update object rest).1)) = _
    cases hanswer : (store.update object rest).1 <;> simp only [Store.perform, mapAnswer, hanswer] <;> rfl
  | delete type key options =>
    show Except.map _ (Except.map _ (Except.map _ (store.delete type key options rest).1)) = _
    cases hanswer : (store.delete type key options rest).1 <;>
      simp only [Store.perform, mapAnswer, hanswer] <;> rfl

/-- An answer that brings an object is that object. -/
theorem eq_ok_of_objectOf {answer : Store.Answer} {object : Object} (h : objectOf answer = .ok object) :
    answer = .ok (some (.object object)) := by
  unfold objectOf at h
  split at h
  · cases h
    rfl
  · cases h
  · cases h

/-- A dialogue gives its next answer. -/
theorem perform_cons (call : Store.Call) (answer : Store.Answer) (heard : List Store.Answer) :
    Dialogue.store.perform call ⟨answer :: heard, none⟩ = (heardAs call answer, ⟨heard, none⟩) := by
  cases call <;> rfl

/-- A dialogue without answers notes the first call for which it has none. -/
theorem perform_nil (call : Store.Call) (waiting : Option Store.Call) :
    (Dialogue.store.perform call ⟨[], waiting⟩).2 = ⟨[], waiting <|> some call⟩ := by
  cases call <;> rfl

/-- What a program that came to an outcome in front of a dialogue does next. -/
def turnOf (result : Outcome × Dialogue) : Updater.Turn :=
  result.2.waiting.elim (.ends result.1) .asks

end Dialogue

namespace Script

variable {ρ : Type}

/-- Runs a script in front of a store. -/
def exec (store : Store ρ) : Script → ρ → Outcome × ρ
  | ends outcome, rest => (outcome, rest)
  | asks call next, rest =>
    (next (store.perform call rest).1).exec store (store.perform call rest).2

/-- What a script does next. -/
def turn : Script → Updater.Turn
  | ends outcome => .ends outcome
  | asks call _ => .asks call

/-- What is left of a script after an answer to its call. -/
def hear : Script → Store.Answer → Script
  | ends outcome, _ => ends outcome
  | asks call next, answer => next (Dialogue.heardAs call answer)

/-- What is left of a script after some answers. -/
def after (script : Script) (heard : List Store.Answer) : Script := heard.foldl hear script

@[simp] theorem after_nil (script : Script) : script.after [] = script := rfl

theorem after_concat (script : Script) (heard : List Store.Answer) (answer : Store.Answer) :
    script.after (heard ++ [answer]) = (script.after heard).hear answer := by
  rw [after, List.foldl_append]
  rfl

/-- A script that has ended hears nothing more. -/
@[simp] theorem after_ends (outcome : Outcome) (heard : List Store.Answer) :
    (ends outcome).after heard = ends outcome := by
  induction heard with
  | nil => rfl
  | cons answer rest ih => exact ih

/-! ### Replay -/

/-- A script that gets no more answers leaves the call for which the dialogue had none. -/
theorem exec_unanswered (script : Script) (call : Store.Call) :
    (script.exec Dialogue.store ⟨[], some call⟩).2 = ⟨[], some call⟩ := by
  induction script with
  | ends outcome => rfl
  | asks next follow ih =>
    rw [exec, Dialogue.perform_nil]
    exact ih _

/-- **Replay.** In front of a dialogue a script does what is left of it after the answers. -/
theorem replay (script : Script) (heard : List Store.Answer) :
    Dialogue.turnOf (script.exec Dialogue.store ⟨heard, none⟩) = (script.after heard).turn := by
  induction script generalizing heard with
  | ends outcome =>
    rw [after_ends]
    rfl
  | asks call next ih =>
    cases heard with
    | nil =>
      -- The answers are used up: this call is the one that is waited for.
      rw [exec, Dialogue.perform_nil, Dialogue.turnOf]
      exact congrArg (fun d : Dialogue => d.waiting.elim _ _) (exec_unanswered _ call)
    | cons answer rest =>
      rw [exec, Dialogue.perform_cons]
      exact ih _ rest

/-! ### Attempts -/

/-- A script, and what follows by its outcome. -/
def andThen : Script → (Outcome → Script) → Script
  | ends outcome, follow => follow outcome
  | asks call next, follow => asks call fun answer => (next answer).andThen follow

theorem exec_andThen (store : Store ρ) (script : Script) (follow : Outcome → Script) (rest : ρ) :
    (script.andThen follow).exec store rest =
      (follow (script.exec store rest).1).exec store (script.exec store rest).2 := by
  induction script generalizing rest with
  | ends outcome => rfl
  | asks call next ih => exact ih _ _

/-- What follows an attempt, by its outcome and the attempts that are left. -/
def settle (attempt : Script) : Nat → Outcome → Script
  | left + 1, .error _ => attempt.andThen (settle attempt left)
  | _, outcome => ends outcome

/-- An attempt, and up to `left` more as long as they end in an error. -/
def again (attempt : Script) (left : Nat) : Script := attempt.andThen (settle attempt left)

theorem settle_of_ne_error (attempt : Script) (left : Nat) {outcome : Outcome}
    (h : outcome.code ≠ .error) : settle attempt left outcome = ends outcome := by
  cases left with
  | zero => cases outcome <;> rfl
  | succ left =>
    cases outcome with
    | error cause => exact absurd rfl h
    | _ => rfl

theorem settle_error (attempt : Script) {left : Nat} (h : 0 < left) (cause : EngineError) :
    settle attempt left (.error cause) = again attempt (left - 1) := by
  obtain ⟨fewer, rfl⟩ := Nat.exists_eq_succ_of_ne_zero (Nat.ne_of_gt h)
  rfl

/-- Attempts of a chain are attempts of its script. -/
theorem runAgain_eq_exec {context : Context ρ} {chain : Chain ρ} {attempt : Script}
    (h : ∀ rest, chain.run context rest = attempt.exec context.store rest) (left : Nat) (rest : ρ) :
    chain.runAgain context left rest = (again attempt left).exec context.store rest := by
  induction left generalizing rest with
  | zero =>
    rw [Chain.runAgain, h, again, exec_andThen]
    rfl
  | succ left ih =>
    rw [again, exec_andThen, ← h]
    rcases hrun : chain.run context rest with ⟨outcome, next⟩
    by_cases herror : outcome.code = .error
    · obtain ⟨cause, rfl⟩ : ∃ cause, outcome = .error cause := by
        cases outcome with
        | error cause => exact ⟨cause, rfl⟩
        | _ => cases herror
      rw [Chain.runAgain_of_error hrun]
      exact ih next
    · rw [Chain.runAgain_of_ok hrun herror, settle_of_ne_error _ _ herror]
      rfl

end Script

/-! ### Clients -/

/-- A client that runs a chain with retries, and that nobody cancels. -/
structure Client where
  policy : RetryPolicy
  target : Key
  chain : (ρ : Type) → Chain ρ

namespace Client

variable {ρ : Type}

/-- What a client needs to know in front of a store. -/
def context (c : Client) (store : Store ρ) : Context ρ := ⟨store, c.target, fun _ => false⟩

/-- Runs a client in front of a store. -/
def run (c : Client) (store : Store ρ) (rest : ρ) : Outcome × ρ :=
  (c.chain ρ).runRetrying (c.context store) c.policy rest

/-- What a client does next when it has heard some answers. -/
def turn (c : Client) (heard : List Store.Answer) : Updater.Turn :=
  Dialogue.turnOf (c.run Dialogue.store ⟨heard, none⟩)

/-- Every attempt of the client does what a script says. -/
def Attempts (c : Client) (attempt : Script) : Prop :=
  ∀ (ρ : Type) (store : Store ρ) (rest : ρ),
    (c.chain ρ).run (c.context store) rest = attempt.exec store rest

/-- What a client does with a store, by what each attempt of it does. -/
def script (c : Client) (attempt : Script) : Script := attempt.again (c.policy.attempts.toNat - 1)

theorem run_eq {c : Client} {attempt : Script} (h : c.Attempts attempt) (store : Store ρ) (rest : ρ) :
    c.run store rest = (c.script attempt).exec store rest := by
  rw [run, Chain.runRetrying_eq]
  exact Script.runAgain_eq_exec (h ρ store) _ rest

/-- What a client does next is what is left of its script. -/
theorem turn_eq {c : Client} {attempt : Script} (h : c.Attempts attempt)
    (heard : List Store.Answer) : c.turn heard = ((c.script attempt).after heard).turn := by
  rw [turn, run_eq h, Script.replay]

end Client

end Reconciliation
