import Reconciliation.Pattern
import Reconciliation.Retry

namespace Reconciliation

/-!
# What a step of a run does

* `Action.run_get`, `Action.run_create`, `Action.run_update`, `Action.run_delete`, `Action.run_call`,
  `Action.run_handleResult` — an action whose run is not cancelled;
* `Action.runHandlers_of_covers` and its like — which handler runs;
* `Action.run_ensureExists` — all that making sure of an object does;
* `Chain.run_singleton` — a chain of one action;
* `Chain.run_updateWith`, `Chain.run_ensureExists`, `Chain.run_deleteIfPresent` — all that the
  patterns do in a run that nobody cancels;
* `Chain.runAgain`, `Chain.resume` — attempts of a chain by the number of those that are left, which
  is what `Chain.runRetrying` makes;
* `Chain.exists_last_attempt` — what every attempt keeps, the last one finds.
-/

variable {σ : Type}

namespace Action

variable {context : Context σ} {prior : Outcome} {state : σ}

theorem run_get (free : context.cancelled state = false) (type : ResourceType) (key : Key) :
    (get type key).run context prior state =
      mapAnswer (fun result => .ofRead .get key.display (result.map .object))
        (context.store.get type key state) := by
  rw [run, free]
  rfl

theorem run_create (free : context.cancelled state = false) (object : Object) :
    (create object).run context prior state =
      mapAnswer
        (fun result => .ofWrite .create object.key.display (result.map (some <| .object ·)))
        (context.store.create object state) := by
  rw [run, free]
  rfl

theorem run_update (free : context.cancelled state = false) (object : Object) :
    (update object).run context prior state =
      mapAnswer
        (fun result => .ofWrite .update object.key.display (result.map (some <| .object ·)))
        (context.store.update object state) := by
  rw [run, free]
  rfl

theorem run_delete (free : context.cancelled state = false) (type : ResourceType) (key : Key)
    (options : DeleteOptions) :
    (delete type key options).run context prior state =
      mapAnswer (fun result => .ofWrite .delete key.display (result.map fun () => none))
        (context.store.delete type key options state) := by
  rw [run, free]
  rfl

theorem run_call (free : context.cancelled state = false) (label : String)
    (thunk : Outcome → σ → Except EngineError (Option (Action σ)) × σ) :
    (call label thunk).run context prior state =
      runAnswer context label prior (thunk prior state) := by
  rw [run, free]
  rfl

theorem run_handleResult (free : context.cancelled state = false) (action : Action σ)
    (handlers : List (Handler (Action σ))) :
    (handleResult action handlers).run context prior state =
      runHandlers context handlers (action.run context prior state).1
        (action.run context prior state).2 := by
  rw [run, free]
  rfl

/-- The first handler runs if it covers the outcome. -/
theorem runHandlers_of_covers {on : Predicate} {first : Outcome}
    (h : on.covers first.code = true) (action : Action σ) (rest : List (Handler (Action σ))) :
    runHandlers context (⟨on, action⟩ :: rest) first state = action.run context first state := by
  rw [runHandlers, if_pos h]

/-- A handler that does not cover the outcome is passed over. -/
theorem runHandlers_of_not_covers {on : Predicate} {first : Outcome}
    (h : on.covers first.code = false) (action : Action σ) (rest : List (Handler (Action σ))) :
    runHandlers context (⟨on, action⟩ :: rest) first state =
      runHandlers context rest first state := by
  rw [runHandlers, if_neg (by simp [h])]

/-- All that making sure of an object does in a run that nobody cancels. -/
theorem run_ensureExists {context : Context σ} (free : ∀ state, context.cancelled state = false)
    (type : ResourceType) (object : Object) (prior : Outcome) (state : σ) :
    (ensureExists type object).run context prior state =
      match context.store.get type object.key state with
      | (.ok found, state) => (.proceed (some (.object found)), state)
      | (.error failure, state) =>
        if failure.isNotFound then
          match context.store.create object state with
          | (.error failure, state) => (.error (.store .create object.key.display failure), state)
          | (.ok stored, state) => (.proceed (some (.object stored)), state)
        else (.error (.store .get object.key.display failure), state) := by
  rw [ensureExists, run_handleResult (free state), run_get (free state)]
  rcases context.store.get type object.key state with ⟨failure | found, state⟩
  · dsimp only [mapAnswer, Except.map, Outcome.ofRead]
    by_cases hfound : failure.isNotFound = true
    · rw [if_pos hfound, if_pos hfound]
      -- The handler is asked for the default.
      rw [runHandlers_of_covers rfl, run_call (free state)]
      show run context (.create object) (.notFound (.store .get object.key.display failure)) state = _
      rw [run_create (free state)]
      rcases context.store.create object state with ⟨failure | stored, state⟩
      · rfl
      · rfl
    · rw [if_neg hfound, if_neg hfound]
      rfl
  · rfl

end Action

/-- A chain does not go on after a read that failed. -/
theorem Outcome.ofRead_error (kind : ActionKind) (target : String) (failure : StoreError) :
    (ofRead kind target (.error failure)).code.isTerminal = true ∧
      Predicate.proceed.covers (ofRead kind target (.error failure)).code = false := by
  unfold ofRead
  dsimp only
  split <;> exact ⟨rfl, rfl⟩

namespace Chain

/-- An outcome with which a chain does not go on is its end. -/
theorem exhausted_of_isTerminal {outcome : Outcome} (h : outcome.code.isTerminal = true) :
    outcome.exhausted = outcome := by
  cases outcome with
  | proceed payload => cases h
  | _ => rfl

theorem run_singleton (context : Context σ) (action : Action σ) (state : σ) :
    run context ⟨[action]⟩ state =
      mapAnswer Outcome.exhausted (action.run context (.proceed none) state) := by
  unfold run
  rw [runSteps]
  dsimp only
  split
  · rename_i h
    rw [mapAnswer, exhausted_of_isTerminal h]
  · rw [runSteps]
    rfl

/-- All that reading, changing and writing back does in a run that nobody cancels. -/
theorem run_updateWith {context : Context σ} (free : ∀ state, context.cancelled state = false)
    (type : ResourceType) (key : Key)
    (mutate : Object → σ → Except EngineError (Option Object) × σ) (state : σ) :
    run context ⟨[.updateWith type key mutate]⟩ state =
      match context.store.get type key state with
      | (.error failure, state) => (.ofRead .get key.display (.error failure), state)
      | (.ok object, state) =>
        match mutate object state with
        | (.error failure, state) =>
          (.error (.step .call ("update " ++ key.display) failure), state)
        | (.ok none, state) => (.done (some (.object object)), state)
        | (.ok (some next), state) =>
          match context.store.update next state with
          | (.error failure, state) => (.error (.store .update next.key.display failure), state)
          | (.ok stored, state) => (.done (some (.object stored)), state) := by
  rw [run_singleton, Action.updateWith, Action.run_handleResult (free state),
    Action.run_get (free state)]
  rcases context.store.get type key state with ⟨failure | object, state⟩
  · -- The only handler is for an object that was read.
    obtain ⟨hterminal, hcovers⟩ := Outcome.ofRead_error .get key.display failure
    dsimp only [mapAnswer, Except.map]
    rw [Action.runHandlers_of_not_covers hcovers, Action.runHandlers,
      exhausted_of_isTerminal hterminal]
  · dsimp only [mapAnswer, Except.map]
    -- The handler is asked for the change of the object that was read.
    rw [Action.runHandlers_of_covers rfl, Action.run_call (free state)]
    dsimp only [mapAnswer, Except.map, Outcome.ofRead, Outcome.object?, Outcome.payload?]
    rcases mutate object state with ⟨failure | _ | next, state⟩
    · rfl
    · rfl
    · show mapAnswer Outcome.exhausted
        (Action.run context (.update next) (.proceed (some (.object object))) state) = _
      rw [Action.run_update (free state)]
      dsimp only
      rcases context.store.update next state with ⟨failure | stored, state⟩
      · rfl
      · rfl

/-- All that making sure of an object does in a run that nobody cancels. -/
theorem run_ensureExists {context : Context σ} (free : ∀ state, context.cancelled state = false)
    (type : ResourceType) (object : Object) (state : σ) :
    run context ⟨[.ensureExists type object]⟩ state =
      match context.store.get type object.key state with
      | (.ok found, state) => (.done (some (.object found)), state)
      | (.error failure, state) =>
        if failure.isNotFound then
          match context.store.create object state with
          | (.error failure, state) => (.error (.store .create object.key.display failure), state)
          | (.ok stored, state) => (.done (some (.object stored)), state)
        else (.error (.store .get object.key.display failure), state) := by
  rw [run_singleton, Action.run_ensureExists free]
  rcases context.store.get type object.key state with ⟨failure | found, state⟩
  · dsimp only
    split
    · rcases context.store.create object state with ⟨failure | stored, state⟩ <;> rfl
    · rfl
  · rfl

/-- All that deleting an object that may be absent does in a run that nobody cancels. -/
theorem run_deleteIfPresent {context : Context σ} (free : ∀ state, context.cancelled state = false)
    (type : ResourceType) (key : Key) (options : DeleteOptions) (state : σ) :
    run context ⟨[.deleteIfPresent type key options]⟩ state =
      match context.store.get type key state with
      | (.ok found, state) =>
        match context.store.delete type key (options.guardedBy found) state with
        | (.error failure, state) => (.error (.store .delete key.display failure), state)
        | (.ok (), state) => (.done none, state)
      | (.error failure, state) =>
        if failure.isNotFound then (.done none, state)
        else (.error (.store .get key.display failure), state) := by
  rw [run_singleton, Action.deleteIfPresent, Action.run_handleResult (free state),
    Action.run_get (free state)]
  rcases context.store.get type key state with ⟨failure | found, state⟩
  · dsimp only [mapAnswer, Except.map, Outcome.ofRead]
    by_cases hfound : failure.isNotFound = true
    · rw [if_pos hfound, if_pos hfound]
      -- The first handler is for an object that was read; the second does nothing.
      rw [Action.runHandlers_of_not_covers rfl, Action.runHandlers_of_covers rfl, Action.noop,
        Action.run_call (free state)]
      rfl
    · rw [if_neg hfound, if_neg hfound]
      rfl
  · dsimp only [mapAnswer, Except.map, Outcome.ofRead]
    rw [Action.runHandlers_of_covers rfl, Action.run_call (free state)]
    show mapAnswer Outcome.exhausted (Action.run context
      (.delete type key (options.guardedBy found)) (.proceed (some (.object found))) state) = _
    rw [Action.run_delete (free state)]
    rcases context.store.delete type key (options.guardedBy found) state with ⟨failure | _, state⟩
    · rfl
    · rfl

/-! ### Attempts that are left -/

/-- One run of a chain, and up to `left` more as long as they end in an error. -/
def runAgain (context : Context σ) (chain : Chain σ) : Nat → σ → Outcome × σ
  | 0, state => chain.run context state
  | left + 1, state =>
    match chain.run context state with
    | (.error _, state) => runAgain context chain left state
    | result => result

/-- What follows an attempt that ended in an error. -/
def resume (context : Context σ) (chain : Chain σ) (cause : EngineError) (state : σ) :
    Nat → Outcome × σ
  | 0 => (.error cause, state)
  | left + 1 => chain.runAgain context left state

theorem ofExcept_toExcept (outcome : Outcome) : Outcome.ofExcept outcome.toExcept = outcome := by
  cases outcome <;> rfl

theorem runRetrying_eq (context : Context σ) (policy : RetryPolicy) (chain : Chain σ) (state : σ) :
    chain.runRetrying context policy state =
      chain.runAgain context (policy.attempts.toNat - 1) state := by
  unfold runRetrying retry
  generalize policy.attempts.toNat - 1 = left
  induction left generalizing state with
  | zero =>
    rw [attemptAgain, runAgain]
    simp only [mapAnswer, ofExcept_toExcept]
  | succ left ih =>
    rw [attemptAgain, runAgain]
    rcases chain.run context state with ⟨outcome, state⟩
    cases outcome with
    | error cause => exact ih state
    | _ => rfl

variable {context : Context σ} {chain : Chain σ} {state next : σ}

theorem runAgain_of_error {cause : EngineError} (h : chain.run context state = (.error cause, next))
    (left : Nat) : chain.runAgain context left state = chain.resume context cause next left := by
  cases left with
  | zero => rw [runAgain, h, resume]
  | succ left => rw [runAgain, h, resume]

theorem runAgain_of_ok {outcome : Outcome} (h : chain.run context state = (outcome, next))
    (hok : outcome.code ≠ .error) (left : Nat) :
    chain.runAgain context left state = (outcome, next) := by
  cases left with
  | zero => rw [runAgain, h]
  | succ left =>
    rw [runAgain, h]
    cases outcome with
    | error cause => exact absurd rfl hok
    | _ => rfl

/-- **Run.** The last attempt runs the chain in a state that has all that every attempt keeps. -/
theorem exists_last_attempt {kept : σ → Prop}
    (keeps : ∀ state, kept state → kept (chain.run context state).2) (left : Nat) {state : σ}
    (h : kept state) : ∃ last, kept last ∧ chain.runAgain context left state = chain.run context last := by
  induction left generalizing state with
  | zero => exact ⟨state, h, rfl⟩
  | succ left ih =>
    rcases hrun : chain.run context state with ⟨outcome, next⟩
    have hnext : kept next := by
      have hkept := keeps state h
      rwa [hrun] at hkept
    by_cases herror : outcome.code = .error
    · cases outcome with
      | error cause =>
        rw [runAgain_of_error hrun]
        exact ih hnext
      | _ => cases herror
    · exact ⟨state, h, by rw [runAgain_of_ok hrun herror, hrun]⟩

end Chain

end Reconciliation
