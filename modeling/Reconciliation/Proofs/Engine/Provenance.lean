import Reconciliation.Proofs.Engine.Record
import Reconciliation.Proofs.Engine.Trace

namespace Reconciliation

/-!
# Where errors come from

* `Issue.error?`, `Issue.tag` — the error with which the store or a computation answers an issue, and the
  error as the run reports it;
* `Issue.Raised` — the failure of an issue: its error, tagged with its kind;
* `LastRaised`, `Action.Evaluates.raised` — an action that fails does so with its last issue;
* `Ends`, `Chain.ends_run`, `Chain.ends_runAgain` — the same for runs of chains, which do not end in the
  middle;
* `Accounts`, `Reconciler.run_accounts` — the record and the directive to which a run comes.

An outcome that a handler covers is gone, so that a cause which reaches the end of a run is that of the
issue right before the end.
-/

variable {σ : Type}

/-! ### The failure of an issue -/

namespace Issue

/-- The error with which the store or the computation answers. -/
def error? (context : Context σ) (issue : Issue σ) : Option EngineError :=
  match issue.action with
  | .call _ thunk =>
    match (thunk issue.prior issue.state).1 with
    | .error failure => some failure
    | .ok _ => none
  | action =>
    action.call?.bind fun call =>
      (context.store.perform call issue.state).1.failure?.map (.store call.kind call.target)

/-- An error of the issue as the run reports it: that of a computation under its label. -/
def tag (issue : Issue σ) (own : EngineError) : EngineError :=
  match issue.action with
  | .call label _ => .step .call label own
  | _ => own

/-- The issue fails with `cause`, because the store or the computation answered with `own`. -/
structure Raised (context : Context σ) (issue : Issue σ) (own cause : EngineError) : Prop where
  answered : issue.error? context = some own
  tagged : cause = issue.tag own
  innermost : cause.innermost = own.innermost
  action : cause.action? = some issue.action.kind
  kind : issue.action.kind ∈ [ActionKind.get, .list, .create, .update, .delete, .call]

namespace Raised

variable {context : Context σ} {prior : Outcome} {state : σ}

theorem of_store {action : Action σ} {call : Store.Call} {failure : StoreError}
    (asks : action.call? = some call)
    (answer : (context.store.perform call state).1 = .error failure) :
    Raised context ⟨action, prior, state⟩ (.store call.kind call.target failure)
      (.store call.kind call.target failure) := by
  have hkind := Action.kind_of_call? asks
  cases action with
  | get | list | create | update | delete =>
    exact {
      answered := by simp [error?, asks, answer, Store.Answer.failure?]
      tagged := rfl
      innermost := rfl
      action := congrArg some hkind.symm
      kind := by simp [Action.kind] }
  | call | handleResult | requeue | finish => cases asks

theorem of_thunk {label : String} {after : σ} {failure : EngineError}
    {thunk : Outcome → σ → Except EngineError (Option (Action σ)) × σ}
    (answer : thunk prior state = (.error failure, after)) :
    Raised context ⟨.call label thunk, prior, state⟩ failure (.step .call label failure) where
  answered := by simp [error?, answer]
  tagged := rfl
  innermost := rfl
  action := rfl
  kind := by simp [Action.kind]

end Raised

end Issue

theorem Outcome.cause?_ofAnswer {call : Store.Call} {answer : Store.Answer} {cause : EngineError}
    (h : (ofAnswer call answer).cause? = some cause) :
    ∃ failure, answer = .error failure ∧ cause = .store call.kind call.target failure := by
  cases answer with
  | ok payload => cases h
  | error failure =>
    dsimp only [ofAnswer] at h
    split at h <;> exact ⟨failure, rfl, (Option.some.inj h).symm⟩

/-! ### How runs end -/

/-- Either the outcome is that of a run that is cancelled, or its cause, if there is one, is the failure
    of the last issue. -/
def LastRaised (context : Context σ) (issued : List (Issue σ)) (outcome : Outcome) : Prop :=
  ∀ cause, outcome.cause? = some cause → outcome = .ofCancellation context.target ∨
    ∃ before issue own, issued = before ++ [issue] ∧ issue.Raised context own cause

theorem LastRaised.append {context : Context σ} {issued : List (Issue σ)} {outcome : Outcome}
    (h : LastRaised context issued outcome) (earlier : List (Issue σ)) :
    LastRaised context (earlier ++ issued) outcome := by
  intro cause hcause
  rcases h cause hcause with hcancelled | ⟨before, issue, own, rfl, hraised⟩
  · exact Or.inl hcancelled
  · exact Or.inr ⟨earlier ++ before, issue, own, (List.append_assoc ..).symm, hraised⟩

theorem Action.Evaluates.raised {context : Context σ} {action : Action σ} {prior outcome : Outcome}
    {state last : σ} {issued : List (Issue σ)}
    (h : Evaluates context action prior state issued outcome last) :
    LastRaised context issued outcome := by
  induction h with
  | stopped set =>
    intro cause _
    exact Or.inl rfl
  | @asked action prior state call free asks =>
    intro cause hcause
    obtain ⟨failure, hanswer, rfl⟩ := Outcome.cause?_ofAnswer hcause
    exact Or.inr ⟨[], _, _, rfl, .of_store asks hanswer⟩
  | passed free answer | finished free =>
    intro cause hcause
    cases hcause
  | failed free answer =>
    intro cause hcause
    cases hcause
    exact Or.inr ⟨[], _, _, rfl, .of_thunk answer⟩
  | replaced free answer _ ih => exact ih.append [_]
  | @handled guarded handlers _ prior _ _ state _ _ issued _ _ _ _ _ _ ihfollows =>
    exact ihfollows.append (⟨.handleResult guarded handlers, prior, state⟩ :: issued)
  | unhandled free _ uncovered ih => exact ih.append [_]
  | @requeued after prior state free =>
    intro cause hcause
    cases after <;> cases hcause

/-- How a run of a chain ends: not in the middle, and with the failure of its last issue if it
    fails. -/
structure Ends (context : Context σ) (issued : List (Issue σ)) (outcome : Outcome) : Prop where
  ended : outcome.code ≠ .proceed
  raised : LastRaised context issued outcome

namespace Chain

theorem ends_runSteps (context : Context σ) (steps : List (Action σ)) {prior : Outcome}
    (goesOn : prior.code.isTerminal = false) (state : σ) :
    Ends context (issuesSteps context steps prior state)
      (runSteps context steps prior state).1 := by
  induction steps generalizing prior state with
  | nil =>
    cases prior with
    | proceed payload =>
      constructor
      · intro hproceed
        cases hproceed
      · intro cause hcause
        cases hcause
    | _ => cases goesOn
  | cons action rest ih =>
    cases hterminal : (action.run context prior state).1.code.isTerminal with
    | true =>
      obtain ⟨hrun, hissues⟩ := runSteps_of_isTerminal hterminal rest
      rw [hrun, hissues]
      have hended : (action.run context prior state).1.code ≠ .proceed := by
        intro hproceed
        rw [hproceed] at hterminal
        cases hterminal
      exact ⟨hended, (action.evaluates context prior state).raised⟩
    | false =>
      obtain ⟨hrun, hissues⟩ := runSteps_of_not_isTerminal hterminal rest
      obtain ⟨hended, hraised⟩ := ih hterminal (action.run context prior state).2
      rw [hrun, hissues]
      exact ⟨hended, hraised.append _⟩

theorem ends_run (context : Context σ) (chain : Chain σ) (state : σ) :
    Ends context (chain.issues context state) (chain.run context state).1 :=
  ends_runSteps context chain.steps (by rfl) state

theorem ends_runAgain (context : Context σ) (chain : Chain σ) (left : Nat) (state : σ) :
    Ends context (chain.issuesAgain context left state) (chain.runAgain context left state).1 := by
  induction left generalizing state with
  | zero =>
    obtain ⟨hrun, hissues⟩ := again_zero context chain state
    rw [hrun, hissues]
    exact chain.ends_run context state
  | succ left ih =>
    obtain ⟨hrun, hissues⟩ := again_succ context chain left state
    rw [hrun, hissues]
    split
    · obtain ⟨hended, hraised⟩ := ih (chain.run context state).2
      exact ⟨hended, hraised.append _⟩
    · rw [List.append_nil]
      exact chain.ends_run context state

end Chain

/-! ### Records and directives -/

/-- What a run comes to: as an outcome, as a record, and as a directive. -/
structure Accounts (context : Context σ) (issued : List (Issue σ)) (run : Outcome × σ)
    (report : Outcome.Record × σ) (directive : Directive × σ) : Prop where
  recorded : report = mapAnswer Outcome.record run
  directed : directive = mapAnswer (Outcome.Record.directive context.target) report
  ended : report.1.code ≠ .proceed
  cause : report.1.cause?.isSome = true ↔ report.1.code ∈ [Code.notFound, .error, .cancelled]
  delay : report.1.delay?.isSome = true ↔ report.1.code = .requeueAfter
  positive : ∀ delay, report.1.delay? = some delay → delay.duration.isZero = false
  payload : report.1.payload?.isSome = true → report.1.code = .done
  later : ∀ duration, directive.1 = .retryAfter duration → duration.isZero = false
  /-- The directive of a failure has the cause that the record has, with nothing to stand in for it, and
      this is the failure of the last issue. -/
  failed : ∀ failure, directive.1 = .error failure →
    failure.target = context.target ∧ report.1.cause? = some failure.cause ∧
      ∃ before issue own, issued = before ++ [issue] ∧ issue.Raised context own failure.cause

theorem Accounts.of_ends {context : Context σ} {issued : List (Issue σ)} {outcome : Outcome}
    (h : Ends context issued outcome) (state : σ) :
    Accounts context issued (outcome, state) (outcome.record, state)
      (.ofOutcome context.target outcome, state) where
  recorded := rfl
  directed := Prod.ext (Outcome.directive_record context.target outcome).symm rfl
  ended := h.ended
  cause := by cases outcome <;> simp [Outcome.record, Outcome.cause?, Outcome.code]
  delay := by cases outcome <;> simp [Outcome.record, Outcome.delay?, Outcome.code]
  positive delay _ := delay.positive
  payload hpayload := by
    cases outcome with
    | done payload => rfl
    | proceed payload => exact absurd rfl h.ended
    | _ => cases hpayload
  later duration hlater := by
    cases outcome with
    | requeueAfter delay =>
      obtain rfl := Directive.retryAfter.inj hlater
      exact delay.positive
    | _ => cases hlater
  failed failure hfailed := by
    cases outcome with
    | error cause =>
      obtain rfl := Directive.error.inj hfailed
      refine ⟨rfl, rfl, ?_⟩
      rcases h.raised cause rfl with hcancelled | hlast
      · cases hcancelled
      · exact hlast
    | _ => cases hfailed

/-- **Provenance.**  Whatever the store and the computations answer, and whenever the flag is set, a
    run ends with a record in which no part is missing and none is too much, so that its directive is
    made without anything that stands in for a part.  If it is a failure, it is that of the last issue
    of the run, with the kind of its action and its own error innermost. -/
theorem Reconciler.run_accounts (reconciler : Reconciler σ) (target : Key) (chain : Chain σ)
    (state : σ) :
    let context := reconciler.context target
    let policy := reconciler.config.retry
    Accounts context (chain.issues context state) (chain.run context state)
      (chain.report context state) (reconciler.run target chain state) ∧
    Accounts context (chain.issuesRetrying context policy state)
      (chain.runRetrying context policy state) (chain.reportRetrying context policy state)
      (reconciler.runRetrying target chain state) := by
  intro context policy
  constructor
  · rw [chain.report_eq]
    exact .of_ends (chain.ends_run context state) _
  · have hends := chain.ends_runAgain context (policy.attempts.toNat - 1) state
    rw [← Chain.runRetrying_eq] at hends
    rw [Chain.reportRetrying_eq]
    exact .of_ends hends _

end Reconciliation
