import Reconciliation.Proofs.Engine.Trace
import Reconciliation.Proofs.Memory.Run

namespace Reconciliation

/-!
# Sequencing by chains and by handlers

A sequence of actions can be run as a chain, or put together into one action whose parts are handlers
for outcomes that let the chain go on:

* `Bracketing` — a way of putting a sequence together, with calls that do nothing anywhere in it;
* `Bracketing.steps`, `Bracketing.action` — the sequence, and the one action;
* `Padded` — issues with calls put in that do nothing;
* `Chain.relay`, `Chain.relay_append` — a run of a sequence that another one can follow;
* `Bracketing.evaluates_action` — the one action comes to what the sequence comes to;
* `run_bracketed` — a chain of the one action runs as the chain of the sequence does.

Where a chain goes on, its outcome is a payload and nothing else, and a call that hands nothing back
passes just that on.  So such a call changes nothing for what comes after it.
-/

variable {σ : Type}

/-! ### Sequences put together -/

/-- A way of putting a sequence of actions together into one. -/
inductive Bracketing (σ : Type) where
  | step (action : Action σ)
  /-- A call that does nothing, and is no part of the sequence. -/
  | noop
  /-- The second part runs if the first lets the chain go on. -/
  | andThen (first second : Bracketing σ)

namespace Bracketing

/-- The sequence that is put together. -/
def steps : Bracketing σ → List (Action σ)
  | step action => [action]
  | noop => []
  | andThen first second => first.steps ++ second.steps

/-- The one action. -/
def action : Bracketing σ → Action σ
  | step action => action
  | noop => .noop
  | andThen first second => .handleResult first.action [⟨.proceed, second.action⟩]

end Bracketing

/-- `long` is `short` with calls put in that do nothing. -/
inductive Padded : List (Issue σ) → List (Issue σ) → Prop
  | nil : Padded [] []
  | keep (issue : Issue σ) {long short : List (Issue σ)} (rest : Padded long short) :
      Padded (issue :: long) (issue :: short)
  | noop (prior : Outcome) (state : σ) {long short : List (Issue σ)} (rest : Padded long short) :
      Padded (⟨.noop, prior, state⟩ :: long) short

namespace Padded

theorem refl (issues : List (Issue σ)) : Padded issues issues := by
  induction issues with
  | nil => exact .nil
  | cons issue rest ih => exact .keep issue ih

theorem append {long short more less : List (Issue σ)} (h : Padded long short)
    (hmore : Padded more less) : Padded (long ++ more) (short ++ less) := by
  induction h with
  | nil => exact hmore
  | keep issue _ ih => exact .keep issue ih
  | noop prior state _ ih => exact .noop prior state ih

end Padded

/-! ### Runs that can be followed -/

theorem Outcome.eq_proceed_of_not_isTerminal {outcome : Outcome}
    (h : outcome.code.isTerminal = false) : outcome = .proceed outcome.payload? := by
  cases outcome with
  | proceed payload => rfl
  | _ => cases h

theorem Predicate.proceed_covers (code : Code) : proceed.covers code = !code.isTerminal := by
  cases code <;> rfl

namespace Chain

/-- Runs actions after an outcome, up to the first that does not let the chain go on.  At its end the
    chain could go on. -/
def relay (context : Context σ) : List (Action σ) → Outcome → σ → Outcome × σ
  | [], prior, state => (prior, state)
  | action :: rest, prior, state =>
    let (outcome, state) := action.run context prior state
    if outcome.code.isTerminal then (outcome, state) else relay context rest outcome state

theorem runSteps_eq_relay (context : Context σ) (steps : List (Action σ)) (prior : Outcome)
    (state : σ) :
    runSteps context steps prior state =
      mapAnswer Outcome.exhausted (relay context steps prior state) := by
  induction steps generalizing prior state with
  | nil => rfl
  | cons action rest ih =>
    rw [runSteps, relay]
    dsimp only
    split
    · rename_i hterminal
      rw [mapAnswer, exhausted_of_isTerminal hterminal]
    · exact ih _ _

/-- A sequence goes on with a second one, unless it ends before. -/
theorem relay_append (context : Context σ) {prior : Outcome}
    (goesOn : prior.code.isTerminal = false) (first second : List (Action σ)) (state : σ) :
    relay context (first ++ second) prior state =
        (if (relay context first prior state).1.code.isTerminal then
          relay context first prior state
        else
          relay context second (relay context first prior state).1
            (relay context first prior state).2) ∧
      issuesSteps context (first ++ second) prior state =
        issuesSteps context first prior state ++
          if (relay context first prior state).1.code.isTerminal then []
          else
            issuesSteps context second (relay context first prior state).1
              (relay context first prior state).2 := by
  induction first generalizing prior state with
  | nil => simp [relay, issuesSteps, goesOn]
  | cons action rest ih =>
    rw [List.cons_append, relay, relay, issuesSteps, issuesSteps]
    by_cases hterminal : (action.run context prior state).1.code.isTerminal = true
    · simp [hterminal]
    · rw [Bool.not_eq_true] at hterminal
      obtain ⟨hrun, hissues⟩ := ih hterminal (action.run context prior state).2
      simp [hterminal, hrun, hissues]

theorem leads_relay (context : Context σ) (steps : List (Action σ)) (prior : Outcome) (state : σ) :
    Leads context state (issuesSteps context steps prior state)
      (relay context steps prior state).2 := by
  have h := leads_runSteps context steps prior state
  rw [runSteps_eq_relay] at h
  exact h

theorem issues_singleton (context : Context σ) (action : Action σ) (state : σ) :
    issues context ⟨[action]⟩ state = action.issues context (.proceed none) state := by
  simp [issues, issuesSteps]

end Chain

/-! ### The one action and the sequence -/

/-- The flag is not set in a state, nor by anything that is issued from there on. -/
structure Undisturbed (context : Context σ) (state : σ) (issues : List (Issue σ)) : Prop where
  unset : context.cancelled state = false
  left : ∀ issue ∈ issues, context.cancelled (issue.leaves context) = false

namespace Undisturbed

variable {context : Context σ} {state : σ} {issues more : List (Issue σ)}

theorem of_append (h : Undisturbed context state (issues ++ more)) :
    Undisturbed context state issues ∧
      Undisturbed context (stateAfter context state issues) more := by
  have hissues : ∀ issue ∈ issues, context.cancelled (issue.leaves context) = false := by
    intro issue hissue
    exact h.left issue (List.mem_append_left more hissue)
  have hmore : ∀ issue ∈ more, context.cancelled (issue.leaves context) = false := by
    intro issue hissue
    exact h.left issue (List.mem_append_right issues hissue)
  -- The state between them is the first one, or the one that the last issue left.
  have hbetween : context.cancelled (stateAfter context state issues) = false := by
    rcases List.eq_nil_or_concat issues with rfl | ⟨before, issue, rfl⟩
    · exact h.unset
    · rw [List.concat_eq_append, stateAfter, List.foldl_append]
      exact hissues issue (by simp)
  exact ⟨⟨h.unset, hissues⟩, ⟨hbetween, hmore⟩⟩

end Undisturbed

namespace Bracketing

/-- The one action comes to what its sequence comes to, and issues the same, but for what does
    nothing. -/
theorem evaluates_action (context : Context σ) (bracketing : Bracketing σ) {prior : Outcome}
    {state : σ} (goesOn : prior.code.isTerminal = false)
    (undisturbed : Undisturbed context state
      (Chain.issuesSteps context bracketing.steps prior state)) :
    ∃ issued,
      Action.Evaluates context bracketing.action prior state issued
        (Chain.relay context bracketing.steps prior state).1
        (Chain.relay context bracketing.steps prior state).2 ∧
      Padded (issued.filter (·.acts))
        ((Chain.issuesSteps context bracketing.steps prior state).filter (·.acts)) := by
  induction bracketing generalizing prior state with
  | step single =>
    refine ⟨single.issues context prior state, ?_, ?_⟩
    · simpa [steps, action, Chain.relay] using single.evaluates context prior state
    · simpa [steps, Chain.issuesSteps] using Padded.refl _
  | noop =>
    refine ⟨[⟨.noop, prior, state⟩], ?_, .noop prior state .nil⟩
    have hnoop : Action.Evaluates context .noop prior state [⟨.noop, prior, state⟩]
        (.proceed prior.payload?) state := .passed undisturbed.unset rfl
    rwa [← Outcome.eq_proceed_of_not_isTerminal goesOn] at hnoop
  | andThen first second ihfirst ihsecond =>
    obtain ⟨hrelay, hissues⟩ :=
      Chain.relay_append context goesOn first.steps second.steps state
    rw [steps, hissues] at undisturbed ⊢
    rw [hrelay]
    obtain ⟨hfirst, hsecond⟩ := undisturbed.of_append
    have hbetween := (Chain.leads_relay context first.steps prior state).last_eq
    rw [← hbetween] at hsecond
    obtain ⟨issued, hruns, hpadded⟩ := ihfirst goesOn hfirst
    -- The handler covers the outcome of the first part exactly if that lets the chain go on.
    cases hterminal : (Chain.relay context first.steps prior state).1.code.isTerminal with
    | true =>
      simp only [↓reduceIte, List.append_nil]
      have huncovered : [Handler.mk .proceed second.action].find? (fun handler =>
          handler.on.covers (Chain.relay context first.steps prior state).1.code) = none := by
        simp [Predicate.proceed_covers, hterminal]
      exact ⟨_, .unhandled undisturbed.unset hruns huncovered, hpadded⟩
    | false =>
      simp only [hterminal, Bool.false_eq_true, ↓reduceIte] at hsecond ⊢
      obtain ⟨rest, hfollows, hmore⟩ := ihsecond hterminal hsecond
      have hcovers : [Handler.mk .proceed second.action].find? (fun handler =>
          handler.on.covers (Chain.relay context first.steps prior state).1.code) =
            some ⟨.proceed, second.action⟩ := by
        simp [Predicate.proceed_covers, hterminal]
      refine ⟨_, .handled undisturbed.unset hruns hcovers hfollows, ?_⟩
      rw [List.filter_cons_of_neg (by simp [Issue.acts, Action.call?, Action.kind]),
        List.filter_append, List.filter_append]
      exact hpadded.append hmore

end Bracketing

/-- **Sequencing.**  However a sequence is put together, and wherever calls that do nothing are put in,
    the one action comes to the outcome and the state of the chain, and it calls the store and runs
    computations as the chain does: in the same order, in the same states and after the same outcomes,
    but for the calls that do nothing. -/
theorem run_bracketed (context : Context σ) (bracketing : Bracketing σ) (state : σ)
    (unset : context.cancelled state = false)
    (untouched : ∀ issue ∈ Chain.issues context ⟨bracketing.steps⟩ state,
      context.cancelled (issue.leaves context) = false) :
    Chain.run context ⟨[bracketing.action]⟩ state = Chain.run context ⟨bracketing.steps⟩ state ∧
      Padded ((Chain.issues context ⟨[bracketing.action]⟩ state).filter (·.acts))
        ((Chain.issues context ⟨bracketing.steps⟩ state).filter (·.acts)) := by
  obtain ⟨issued, hevaluates, hpadded⟩ :=
    bracketing.evaluates_action context rfl ⟨unset, untouched⟩
  obtain ⟨hissues, hrun⟩ := hevaluates.eq
  refine ⟨?_, ?_⟩
  · rw [Chain.run_singleton, hrun, Chain.run, Chain.runSteps_eq_relay]
  · rw [Chain.issues_singleton, hissues]
    exact hpadded

/-! ### A run that is written down -/

namespace Bracketing.Journal

open Specimen

/-- The key of an object that the store has. -/
def present : Key := key "a"

/-- The key of an object that the store does not have. -/
def absent : Key := key "b"

/-- A store that writes down what is called. -/
def store : Store (List Operation) where
  name := "journal"
  get _ key journal :=
    (if key = absent then .error (.absent "Secret" key) else .ok (secret key), journal ++ [.get])
  list _ _ journal := (.ok [], journal ++ [.list])
  create object journal := (.ok object, journal ++ [.create])
  update object journal := (.ok object, journal ++ [.update])
  delete _ _ _ journal := (.ok (), journal ++ [.delete])

/-- A delete sets the flag. -/
def context : Context (List Operation) where
  store := store
  target := present
  cancelled journal := journal.contains .delete

/-- Creates the object that was read before. -/
def copy : Action (List Operation) :=
  .call "copy" fun prior journal => (.ok (prior.object?.map .create), journal)

/-- Reads an object and copies it, then looks for one that is absent and so creates it. -/
def bracketing : Bracketing (List Operation) :=
  .andThen
    (.andThen (.andThen .noop (.step (.get secrets present))) .noop)
    (.andThen (.step copy)
      (.andThen
        (.step (.handleResult (.get secrets absent) [⟨.notFound, .create (secret absent)⟩]))
        .noop))

/-- The copy is made, although a call that does nothing stands between it and the read. -/
theorem run_copied :
    Chain.run context ⟨[bracketing.action]⟩ [] =
        (.done (some (.object (secret absent))), [.get, .create, .get, .create]) ∧
      ((Chain.issues context ⟨[bracketing.action]⟩ []).filter (·.acts)).length = 8 ∧
      Padded ((Chain.issues context ⟨[bracketing.action]⟩ []).filter (·.acts))
        ((Chain.issues context ⟨bracketing.steps⟩ []).filter (·.acts)) := by
  obtain ⟨hrun, hpadded⟩ := run_bracketed context bracketing [] (by decide) (by decide)
  exact ⟨hrun.trans (by decide), by decide, hpadded⟩

end Bracketing.Journal

end Reconciliation
