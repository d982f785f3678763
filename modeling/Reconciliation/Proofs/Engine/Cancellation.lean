import Reconciliation.Proofs.Engine.Trace

namespace Reconciliation

/-!
# Cancellation

What a run does when its flag is set on the way:

* `Context.unwatched` — the same context, in which nobody looks at the flag;
* `Context.Passes` — issues in whose states the flag is not set;
* `Context.cutIssues`, `Context.cutResult` — what is left of a run when it is cut before its first issue
  in a state in which the flag is set;
* `Action.Evaluates.cut`, `Chain.run_eq_cut`, `Chain.runAgain_eq_cut` — a run is the run that nobody
  watches, cut in this way;
* `Chain.attempts` — attempts are made as long as they end in an error;
* `Heeds`, `cancellation_safety` — from the moment on at which the flag is set nothing is issued, and
  the run is cancelled if anything was still to be issued.

The run that nobody watches says what would still have been issued.  Nothing changes the state between
one issue and the next, so that the flag is set before an issue exactly if it is set in its state.
-/

variable {σ : Type}

/-! ### Cutting a run -/

namespace Context

/-- The same context, in which nobody looks at the flag. -/
def unwatched (context : Context σ) : Context σ := { context with cancelled := fun _ => false }

/-- The flag is set in none of the states in which the issues act. -/
def Passes (context : Context σ) (issues : List (Issue σ)) : Prop :=
  ∀ issue ∈ issues, context.cancelled issue.state = false

/-- The issues before the first one in a state in which the flag is set. -/
def cutIssues (context : Context σ) (full : List (Issue σ)) : List (Issue σ) :=
  full.takeWhile fun issue => !context.cancelled issue.state

/-- What a run comes to that would issue `full` and come to `result`: it is cancelled before the first
    issue in a state in which the flag is set. -/
def cutResult (context : Context σ) (full : List (Issue σ)) (result : Outcome × σ) : Outcome × σ :=
  (full.find? fun issue => context.cancelled issue.state).elim result fun issue =>
    (.ofCancellation context.target, issue.state)

variable {context : Context σ} {before : List (Issue σ)}

/-- Either the flag is not set in any of the states, or there is a first one in which it is. -/
theorem passes_or_stops (context : Context σ) (full : List (Issue σ)) :
    context.Passes full ∨ ∃ before issue after, full = before ++ issue :: after ∧
      context.Passes before ∧ context.cancelled issue.state = true := by
  cases hfind : full.find? fun issue => context.cancelled issue.state with
  | none =>
    have hpasses : context.Passes full := by
      intro issue hissue
      simpa using List.find?_eq_none.mp hfind issue hissue
    exact Or.inl hpasses
  | some issue =>
    obtain ⟨hset, before, after, hfull, hbefore⟩ := List.find?_eq_some_iff_append.mp hfind
    have hpasses : context.Passes before := by
      intro earlier hearlier
      simpa using hbefore earlier hearlier
    exact Or.inr ⟨before, issue, after, hfull, hpasses, hset⟩

namespace Passes

/-- A run that does not stop is followed by what is left of the rest. -/
theorem cutIssues_append (h : context.Passes before) (more : List (Issue σ)) :
    context.cutIssues (before ++ more) = before ++ context.cutIssues more := by
  have hall : ∀ issue ∈ before, (!context.cancelled issue.state) = true := by
    intro issue hissue
    simp [h issue hissue]
  exact List.takeWhile_append_of_pos hall

theorem cutResult_append (h : context.Passes before) (more : List (Issue σ))
    (result : Outcome × σ) :
    context.cutResult (before ++ more) result = context.cutResult more result := by
  have hnone : before.find? (fun issue => context.cancelled issue.state) = none := by
    rw [List.find?_eq_none]
    intro issue hissue
    simp [h issue hissue]
  rw [Context.cutResult, List.find?_append, hnone, Option.none_or, Context.cutResult]

theorem cutIssues_eq (h : context.Passes before) : context.cutIssues before = before := by
  have hcut := h.cutIssues_append []
  rw [List.append_nil] at hcut
  exact hcut.trans (List.append_nil before)

theorem cutResult_eq (h : context.Passes before) (result : Outcome × σ) :
    context.cutResult before result = result := by
  have hcut := h.cutResult_append [] result
  rw [List.append_nil] at hcut
  exact hcut

/-- A run that stops is followed by nothing. -/
theorem cutIssues_stop (h : context.Passes before) {issue : Issue σ}
    (set : context.cancelled issue.state = true) (after : List (Issue σ)) :
    context.cutIssues (before ++ issue :: after) = before := by
  rw [h.cutIssues_append]
  simp [cutIssues, set]

theorem cutResult_stop (h : context.Passes before) {issue : Issue σ}
    (set : context.cancelled issue.state = true) (after : List (Issue σ)) (result : Outcome × σ) :
    context.cutResult (before ++ issue :: after) result =
      (.ofCancellation context.target, issue.state) := by
  rw [h.cutResult_append]
  simp [cutResult, set]

end Passes

theorem passes_cutIssues (context : Context σ) (full : List (Issue σ)) :
    context.Passes (context.cutIssues full) := by
  intro issue hissue
  have hall : (context.cutIssues full).all (fun issue => !context.cancelled issue.state) = true :=
    List.all_takeWhile
  simpa using List.all_eq_true.mp hall issue hissue

/-- If the flag is set before an issue, the run is cut there or before. -/
theorem cut_of_set {issue : Issue σ} (set : context.cancelled issue.state = true)
    (before after : List (Issue σ)) (result : Outcome × σ) :
    context.cutIssues (before ++ issue :: after) <+: before ∧
      (context.cutResult (before ++ issue :: after) result).1 =
        .ofCancellation context.target := by
  rcases context.passes_or_stops before with hpasses | ⟨first, stop, rest, rfl, hpasses, hset⟩
  · rw [hpasses.cutIssues_stop set, hpasses.cutResult_stop set]
    exact ⟨List.prefix_rfl, rfl⟩
  · rw [List.append_assoc, List.cons_append, hpasses.cutIssues_stop hset, hpasses.cutResult_stop hset]
    exact ⟨List.prefix_append first _, rfl⟩

/-- The first issue is left, or nothing is. -/
theorem cut_cons (context : Context σ) (issue : Issue σ) (rest : List (Issue σ))
    (result : Outcome × σ) :
    (context.cancelled issue.state = true ∧ context.cutIssues (issue :: rest) = [] ∧
      context.cutResult (issue :: rest) result = (.ofCancellation context.target, issue.state)) ∨
    (context.cancelled issue.state = false ∧
      context.cutIssues (issue :: rest) = issue :: context.cutIssues rest ∧
      context.cutResult (issue :: rest) result = context.cutResult rest result) := by
  cases hissue : context.cancelled issue.state with
  | true => exact Or.inl ⟨rfl, by simp [cutIssues, hissue], by simp [cutResult, hissue]⟩
  | false => exact Or.inr ⟨rfl, by simp [cutIssues, hissue], by simp [cutResult, hissue]⟩

/-- What follows a cut run is cut as well, if nothing follows a cancelled outcome. -/
theorem cut_then {issued full : List (Issue σ)} {result free : Outcome × σ}
    (more : Context σ → Outcome × σ → List (Issue σ)) (last : Context σ → Outcome × σ → Outcome × σ)
    (first : issued = context.cutIssues full ∧ result = context.cutResult full free)
    (stays : ∀ state, more context (.ofCancellation context.target, state) = [] ∧
      last context (.ofCancellation context.target, state) =
        (.ofCancellation context.target, state))
    (follows : more context free = context.cutIssues (more context.unwatched free) ∧
      last context free =
        context.cutResult (more context.unwatched free) (last context.unwatched free)) :
    issued ++ more context result = context.cutIssues (full ++ more context.unwatched free) ∧
      last context result =
        context.cutResult (full ++ more context.unwatched free) (last context.unwatched free) := by
  obtain ⟨rfl, rfl⟩ := first
  rcases context.passes_or_stops full with hpasses | ⟨before, issue, after, rfl, hpasses, hset⟩
  · rw [hpasses.cutIssues_eq, hpasses.cutResult_eq, hpasses.cutIssues_append,
      hpasses.cutResult_append, follows.1, follows.2]
    exact ⟨rfl, rfl⟩
  · rw [List.append_assoc, List.cons_append, hpasses.cutIssues_stop hset, hpasses.cutResult_stop hset,
      hpasses.cutIssues_stop hset, hpasses.cutResult_stop hset, (stays issue.state).1,
      (stays issue.state).2, List.append_nil]
    exact ⟨rfl, rfl⟩

end Context

/-! ### A run is a cut of the run that nobody watches -/

/-- No predicate covers a cancelled outcome. -/
theorem Predicate.not_covers_cancelled (predicate : Predicate) :
    predicate.covers .cancelled = false := by
  cases predicate <;> rfl

namespace Action

/-- No handler covers a cancelled outcome. -/
theorem uncovered_of_cancelled {first : Outcome} (cancelled : first.code = .cancelled)
    (handlers : List (Handler (Action σ))) :
    handlers.find? (fun handler => handler.on.covers first.code) = none := by
  rw [cancelled, List.find?_eq_none]
  intro handler _
  simp [Predicate.not_covers_cancelled]

/-- An action is stopped before it is issued, or it is issued first. -/
theorem Evaluates.of_first {context : Context σ} {action : Action σ} {prior : Outcome} {state : σ}
    {rest : List (Issue σ)} {result : Outcome × σ}
    (issued : context.cancelled state = false →
      Evaluates context action prior state (⟨action, prior, state⟩ :: context.cutIssues rest)
        (context.cutResult rest result).1 (context.cutResult rest result).2) :
    Evaluates context action prior state
      (context.cutIssues (⟨action, prior, state⟩ :: rest))
      (context.cutResult (⟨action, prior, state⟩ :: rest) result).1
      (context.cutResult (⟨action, prior, state⟩ :: rest) result).2 := by
  rcases context.cut_cons ⟨action, prior, state⟩ rest result with
    ⟨hset, hissues, hresult⟩ | ⟨hfree, hissues, hresult⟩
  · rw [hissues, hresult]
    exact .stopped hset
  · rw [hissues, hresult]
    exact issued hfree

/-- **Rules.** What follows the rules if nobody watches follows them, cut, if the flag is looked at. -/
theorem Evaluates.cut {context : Context σ} {action : Action σ} {prior outcome : Outcome}
    {state last : σ} {full : List (Issue σ)}
    (h : Evaluates context.unwatched action prior state full outcome last) :
    Evaluates context action prior state (context.cutIssues full)
      (context.cutResult full (outcome, last)).1 (context.cutResult full (outcome, last)).2 := by
  induction h with
  | stopped set => cases set
  | asked _ asks => exact .of_first fun free => .asked free asks
  | passed _ answer => exact .of_first fun free => .passed free answer
  | failed _ answer => exact .of_first fun free => .failed free answer
  | replaced _ answer _ ih => exact .of_first fun free => .replaced free answer ih
  | @handled _ handlers _ _ _ _ _ _ _ issued rest _ _ covers _ ihruns ihfollows =>
    refine .of_first fun free => ?_
    rcases context.passes_or_stops issued with hpasses | ⟨before, issue, after, rfl, hpasses, hset⟩
    · -- The guarded action runs to its end, and the handler's action may be cut.
      rw [hpasses.cutIssues_eq, hpasses.cutResult_eq] at ihruns
      rw [hpasses.cutIssues_append, hpasses.cutResult_append]
      exact .handled free ihruns covers ihfollows
    · -- The guarded action is cut, and no handler covers that.
      rw [hpasses.cutIssues_stop hset, hpasses.cutResult_stop hset] at ihruns
      rw [List.append_assoc, List.cons_append, hpasses.cutIssues_stop hset,
        hpasses.cutResult_stop hset]
      exact .unhandled free ihruns (uncovered_of_cancelled rfl handlers)
  | @unhandled _ handlers _ _ _ _ issued _ _ uncovered ih =>
    refine .of_first fun free => ?_
    rcases context.passes_or_stops issued with hpasses | ⟨before, issue, after, rfl, hpasses, hset⟩
    · rw [hpasses.cutIssues_eq, hpasses.cutResult_eq] at ih ⊢
      exact .unhandled free ih uncovered
    · rw [hpasses.cutIssues_stop hset, hpasses.cutResult_stop hset] at ih ⊢
      exact .unhandled free ih (uncovered_of_cancelled rfl handlers)
  | requeued _ => exact .of_first fun free => .requeued free
  | finished _ => exact .of_first fun free => .finished free

theorem run_eq_cut (context : Context σ) (action : Action σ) (prior : Outcome) (state : σ) :
    action.issues context prior state =
        context.cutIssues (action.issues context.unwatched prior state) ∧
      action.run context prior state =
        context.cutResult (action.issues context.unwatched prior state)
          (action.run context.unwatched prior state) :=
  (evaluates context.unwatched action prior state).cut.eq

end Action

namespace Chain

theorem runSteps_eq_cut (context : Context σ) (steps : List (Action σ)) (prior : Outcome)
    (state : σ) :
    issuesSteps context steps prior state =
        context.cutIssues (issuesSteps context.unwatched steps prior state) ∧
      runSteps context steps prior state =
        context.cutResult (issuesSteps context.unwatched steps prior state)
          (runSteps context.unwatched steps prior state) := by
  induction steps generalizing prior state with
  | nil => exact ⟨rfl, rfl⟩
  | cons action rest ih =>
    -- After its first action, a chain is at its end or goes on with the rest.
    refine Context.cut_then
      (fun context result => if result.1.code.isTerminal then []
        else issuesSteps context rest result.1 result.2)
      (fun context result => if result.1.code.isTerminal then result
        else runSteps context rest result.1 result.2)
      (action.run_eq_cut context prior state) (fun _ => ⟨rfl, rfl⟩) ?_
    split
    · exact ⟨rfl, rfl⟩
    · exact ih _ _

theorem run_eq_cut (context : Context σ) (chain : Chain σ) (state : σ) :
    chain.issues context state = context.cutIssues (chain.issues context.unwatched state) ∧
      chain.run context state =
        context.cutResult (chain.issues context.unwatched state)
          (chain.run context.unwatched state) :=
  runSteps_eq_cut context chain.steps (.proceed none) state

theorem runAgain_eq_cut (context : Context σ) (chain : Chain σ) (left : Nat) (state : σ) :
    chain.issuesAgain context left state =
        context.cutIssues (chain.issuesAgain context.unwatched left state) ∧
      chain.runAgain context left state =
        context.cutResult (chain.issuesAgain context.unwatched left state)
          (chain.runAgain context.unwatched left state) := by
  induction left generalizing state with
  | zero =>
    obtain ⟨hrun, hissues⟩ := again_zero context chain state
    obtain ⟨hfree, hfreeIssues⟩ := again_zero context.unwatched chain state
    rw [hrun, hissues, hfree, hfreeIssues]
    exact chain.run_eq_cut context state
  | succ left ih =>
    obtain ⟨hrun, hissues⟩ := again_succ context chain left state
    obtain ⟨hfree, hfreeIssues⟩ := again_succ context.unwatched chain left state
    rw [hrun, hissues, hfree, hfreeIssues]
    -- After an attempt, there are more of them if it ended in an error.
    refine Context.cut_then
      (fun context result => if result.1.code = .error then chain.issuesAgain context left result.2
        else [])
      (fun context result => if result.1.code = .error then chain.runAgain context left result.2
        else result)
      (chain.run_eq_cut context state) (fun _ => ⟨rfl, rfl⟩) ?_
    split
    · exact ih _
    · exact ⟨rfl, rfl⟩

end Chain

/-! ### What is issued after a cancelled outcome -/

/-- **Rules.** After an outcome that is not cancelled, no action is issued after one that is. -/
theorem Action.Evaluates.prior_ne_cancelled {context : Context σ} {action : Action σ}
    {prior outcome : Outcome} {state last : σ} {issued : List (Issue σ)}
    (h : Evaluates context action prior state issued outcome last)
    (hprior : prior.code ≠ .cancelled) : ∀ issue ∈ issued, issue.prior.code ≠ .cancelled := by
  induction h with
  | stopped set => simp
  | asked free asks => simpa using hprior
  | passed free answer | failed free answer => simpa using hprior
  | replaced free answer _ ih => exact List.forall_mem_cons.mpr ⟨hprior, ih hprior⟩
  | @handled _ _ _ _ first _ _ _ _ _ _ free _ covers _ ihruns ihfollows =>
    have hfirst : first.code ≠ .cancelled := by
      intro hcancelled
      have hcovers := List.find?_some covers
      rw [hcancelled, Predicate.not_covers_cancelled] at hcovers
      cases hcovers
    intro issue hissue
    rcases List.mem_cons.mp hissue with rfl | hissue
    · exact hprior
    · rcases List.mem_append.mp hissue with hissue | hissue
      · exact ihruns hprior issue hissue
      · exact ihfollows hfirst issue hissue
  | unhandled free _ uncovered ih => exact List.forall_mem_cons.mpr ⟨hprior, ih hprior⟩
  | requeued free | finished free => simpa using hprior

namespace Chain

theorem prior_ne_cancelled_issuesSteps (context : Context σ) (steps : List (Action σ))
    {prior : Outcome} (hprior : prior.code ≠ .cancelled) (state : σ) :
    ∀ issue ∈ issuesSteps context steps prior state, issue.prior.code ≠ .cancelled := by
  induction steps generalizing prior state with
  | nil => simp [issuesSteps]
  | cons action rest ih =>
    have haction := (action.evaluates context prior state).prior_ne_cancelled hprior
    cases hterminal : (action.run context prior state).1.code.isTerminal with
    | true =>
      rw [(runSteps_of_isTerminal hterminal rest).2]
      exact haction
    | false =>
      have hgoesOn : (action.run context prior state).1.code ≠ .cancelled := by
        intro hcancelled
        rw [hcancelled] at hterminal
        cases hterminal
      rw [(runSteps_of_not_isTerminal hterminal rest).2]
      intro issue hissue
      rcases List.mem_append.mp hissue with hissue | hissue
      · exact haction issue hissue
      · exact ih hgoesOn _ issue hissue

theorem prior_ne_cancelled_issues (context : Context σ) (chain : Chain σ) (state : σ) :
    ∀ issue ∈ chain.issues context state, issue.prior.code ≠ .cancelled :=
  prior_ne_cancelled_issuesSteps context chain.steps (fun h => by cases h) state

/-- Only an attempt that ends in an error is followed by another one, and the last one counts. -/
theorem attempts (context : Context σ) (chain : Chain σ) (left : Nat) (state : σ) :
    ∃ earlier last, chain.starts context left state = earlier ++ [last] ∧
      chain.runAgain context left state = chain.run context last ∧
      ∀ start ∈ earlier, (chain.run context start).1.code = .error := by
  induction left generalizing state with
  | zero => exact ⟨[], state, rfl, rfl, by simp⟩
  | succ left ih =>
    rcases run_cases context chain state with ⟨cause, after, herror⟩ | hlast
    · obtain ⟨earlier, last, hstarts, hrun, hearlier⟩ := ih after
      refine ⟨state :: earlier, last, ?_, ?_, List.forall_mem_cons.mpr ⟨?_, hearlier⟩⟩
      · rw [starts_of_error herror, hstarts, List.cons_append]
      · rw [runAgain_of_error herror, resume, hrun]
      · rw [herror]
        rfl
    · exact ⟨[], state, starts_of_ok hlast _, runAgain_of_ok rfl hlast _, by simp⟩

end Chain

/-! ### Cancellation safety -/

/-- How a run heeds its flag, which may be set before the run or by any store call or computation.  A
    moment is between two issues, before the first, or after the last.  `full` is what the run would
    issue, and `free` what it would come to, if nobody looked at the flag. -/
structure Heeds (context : Context σ) (start : σ) (issued full : List (Issue σ))
    (result free : Outcome × σ) : Prop where
  /-- What is issued is all that changes the state. -/
  way : Leads context start issued result.2
  /-- From the moment on at which the flag is set, nothing is issued. -/
  silent : ∀ before after, issued = before ++ after →
    context.cancelled (stateAfter context start before) = true → after = []
  /-- Nothing is issued after a cancelled outcome, by a handler or otherwise. -/
  unhandled : ∀ issue ∈ issued, issue.prior.code ≠ .cancelled
  /-- If the flag is set at a moment at which something was still to be issued, the run is
      cancelled. -/
  stopped : ∀ before after, full = before ++ after →
    context.cancelled (stateAfter context start before) = true →
      issued <+: before ∧
        (after ≠ [] → result = (.ofCancellation context.target, stateAfter context start issued))
  /-- If the flag is set at no such moment, the run is as if nobody looked at it. -/
  undisturbed : (∀ before after, full = before ++ after → after ≠ [] →
    context.cancelled (stateAfter context start before) = false) → issued = full ∧ result = free

theorem Leads.of_unwatched {context : Context σ} {first last : σ} {issues : List (Issue σ)}
    (h : Leads context.unwatched first issues last) : Leads context first issues last := by
  induction issues generalizing first with
  | nil => exact h
  | cons issue rest ih => exact ⟨h.1, ih h.2⟩

theorem Leads.state_eq {context : Context σ} {first last : σ} {before after : List (Issue σ)}
    {issue : Issue σ} (h : Leads context first (before ++ issue :: after) last) :
    issue.state = stateAfter context first before :=
  h.of_append.2.1

/-- A run that is a cut of the run that nobody watches heeds its flag. -/
theorem Heeds.of_cut {context : Context σ} {start last : σ} {issued full : List (Issue σ)}
    {result free : Outcome × σ} (wouldLead : Leads context.unwatched start full last)
    (leads : Leads context start issued result.2)
    (cut : issued = context.cutIssues full ∧ result = context.cutResult full free)
    (unhandled : ∀ issue ∈ issued, issue.prior.code ≠ .cancelled) :
    Heeds context start issued full result free where
  way := leads
  unhandled := unhandled
  silent before after hissued hset := by
    have hpasses := context.passes_cutIssues full
    rw [← cut.1, hissued] at hpasses
    rw [hissued] at leads
    cases after with
    | nil => rfl
    | cons issue rest =>
      -- The issue acts in the state of the moment, in which the flag is set.
      have hissue := hpasses issue (by simp)
      rw [leads.state_eq, hset] at hissue
      cases hissue
  stopped before after hfull hset := by
    have hway := wouldLead.of_unwatched
    rw [hfull] at hway cut
    cases after with
    | nil =>
      rw [List.append_nil] at cut
      rw [cut.1]
      exact ⟨List.takeWhile_prefix _, fun h => absurd rfl h⟩
    | cons issue rest =>
      rw [← hway.state_eq] at hset
      obtain ⟨hissuedBefore, hcancelled⟩ := Context.cut_of_set hset before rest free
      rw [← cut.1] at hissuedBefore
      rw [← cut.2] at hcancelled
      exact ⟨hissuedBefore, fun _ => Prod.ext hcancelled leads.last_eq⟩
  undisturbed hfree := by
    have hpasses : context.Passes full := by
      intro issue hissue
      obtain ⟨before, after, rfl⟩ := List.mem_iff_append.mp hissue
      have hstate := wouldLead.of_unwatched.state_eq
      rw [hstate]
      exact hfree before (issue :: after) rfl (by simp)
    rw [cut.1, cut.2, hpasses.cutIssues_eq, hpasses.cutResult_eq]
    exact ⟨rfl, rfl⟩

/-- **Cancellation safety.**  However the flag is set, by whatever store call or computation, a run of
    a chain and a run with retries issue nothing from that moment on, and are cancelled if anything
    was still to be issued, be it by the chain, a handler, a call or a further attempt.  No handler
    runs after a cancelled outcome, and only an attempt that ends in an error is followed by
    another. -/
theorem cancellation_safety (context : Context σ) (policy : RetryPolicy) (chain : Chain σ)
    (state : σ) :
    Heeds context state (chain.issues context state) (chain.issues context.unwatched state)
      (chain.run context state) (chain.run context.unwatched state) ∧
    Heeds context state (chain.issuesRetrying context policy state)
      (chain.issuesRetrying context.unwatched policy state)
      (chain.runRetrying context policy state) (chain.runRetrying context.unwatched policy state) ∧
    (∀ handlers cause after,
      Action.runHandlers context handlers (.cancelled cause) after = (.cancelled cause, after)) ∧
    ∃ earlier last, chain.starts context (policy.attempts.toNat - 1) state = earlier ++ [last] ∧
      chain.runRetrying context policy state = chain.run context last ∧
      ∀ start ∈ earlier, (chain.run context start).1.code = .error := by
  refine ⟨?_, ?_, fun handlers cause after => ?_, ?_⟩
  · exact .of_cut (chain.leads_run context.unwatched state) (chain.leads_run context state)
      (chain.run_eq_cut context state) (chain.prior_ne_cancelled_issues context state)
  · rw [Chain.runRetrying_eq, Chain.runRetrying_eq]
    refine .of_cut (chain.leads_runAgain context.unwatched _ state)
      (chain.leads_runAgain context _ state) (chain.runAgain_eq_cut context _ state) ?_
    intro issue hissue
    obtain ⟨start, _, hattempt⟩ := List.mem_flatMap.mp hissue
    exact chain.prior_ne_cancelled_issues context start issue hattempt
  · rw [Action.runHandlers_eq, Action.uncovered_of_cancelled rfl, Option.elim_none]
  · rw [Chain.runRetrying_eq]
    exact chain.attempts context _ state

/-- A computation that fails and sets the flag is neither handled nor attempted again. -/
example (store : Store Bool) :
    let context : Context Bool := ⟨store, .cluster "a", fun set => set⟩
    let stop : Action Bool := .call "stop" fun _ _ => (.error (.internal "stopped"), true)
    Chain.runRetrying context .standard ⟨[.handleResult stop [⟨.any, .finish⟩]]⟩ false =
      (.ofCancellation (.cluster "a"), true) := by
  rfl

end Reconciliation
