import Reconciliation.Proofs.Engine.Step
import Reconciliation.Proofs.Store.Call

namespace Reconciliation

/-!
# What a run issues

* `Issue` — an action that a run came to while the flag was not set, with the outcome that it saw and
  the state in which it acted;
* `Issue.leaves`, `Leads` — the state after the store call or the computation of an issue, and issues
  each of which acts in the state that the one before it left;
* `Action.call?`, `Outcome.ofAnswer` — the five actions that call the store as one;
* `Action.issues`, `Chain.issues`, `Chain.issuesRetrying` — all that a run issues, in order;
* `Action.Evaluates` — the rules by which an action is evaluated; runs follow them, and whatever follows
  them is a run (`Action.evaluates`, `Action.Evaluates.eq`);
* `Action.leads_run`, `Chain.leads_run`, `Chain.leads_runAgain` — nothing but what is issued changes the
  state.

Everything that a run does to the world is a call of the store or a computation of the caller, so that
the list of issues is a log of both.  Arguments about runs are inductions on the rules.
-/

variable {σ : Type}

/-! ### Actions that call the store -/

/-- The call of the store that an action makes. -/
def Action.call? : Action σ → Option Store.Call
  | .get type key => some (.get type key)
  | .list type filter => some (.list type filter)
  | .create object => some (.create object)
  | .update object => some (.update object)
  | .delete type key options => some (.delete type key options)
  | .call _ _ | .handleResult _ _ | .requeue _ | .finish => none

/-- The outcome of a call of the store, by its answer. -/
def Outcome.ofAnswer (call : Store.Call) : Store.Answer → Outcome
  | .ok payload => .proceed payload
  | .error failure =>
    if call.reads && failure.isNotFound then .notFound (.store call.kind call.target failure)
    else .error (.store call.kind call.target failure)

/-- The outcome of a request to come back. -/
def Outcome.ofRequeue : Option RequeueDelay → Outcome
  | none => .requeue
  | some delay => .requeueAfter delay

namespace Action

theorem kind_of_call? {action : Action σ} {call : Store.Call} (asks : action.call? = some call) :
    action.kind = call.kind := by
  cases action with
  | get | list | create | update | delete => cases asks; rfl
  | call | handleResult | requeue | finish => cases asks

/-- An action that calls the store comes to what the answer says. -/
theorem run_of_call? {context : Context σ} {action : Action σ} {call : Store.Call}
    {prior : Outcome} {state : σ} (free : context.cancelled state = false)
    (asks : action.call? = some call) :
    action.run context prior state =
      mapAnswer (.ofAnswer call) (context.store.perform call state) := by
  rw [run.eq_def, free]
  cases action with
  | get type key =>
    cases asks
    simp only [Store.perform, mapAnswer]
    rcases context.store.get type key state with ⟨failure | object, after⟩ <;> rfl
  | list type filter =>
    cases asks
    simp only [Store.perform, mapAnswer]
    rcases context.store.list type filter state with ⟨failure | items, after⟩ <;> rfl
  | create object =>
    cases asks
    simp only [Store.perform, mapAnswer]
    rcases context.store.create object state with ⟨failure | stored, after⟩ <;> rfl
  | update object =>
    cases asks
    simp only [Store.perform, mapAnswer]
    rcases context.store.update object state with ⟨failure | stored, after⟩ <;> rfl
  | delete type key options =>
    cases asks
    simp only [Store.perform, mapAnswer]
    rcases context.store.delete type key options state with ⟨failure | _, after⟩ <;> rfl
  | call | handleResult | requeue | finish => cases asks

end Action

/-! ### Issues -/

/-- An action that a run came to while the flag was not set. -/
structure Issue (σ : Type) where
  action : Action σ
  /-- The outcome that a computation gets to see. -/
  prior : Outcome
  state : σ

namespace Issue

/-- Whether the issue calls the store or runs a computation of the caller. -/
def acts (issue : Issue σ) : Bool :=
  issue.action.call?.isSome || issue.action.kind == .call

/-- The state after the store call or the computation of the issue.  What follows up on a computation,
    and what is guarded by handlers, is issued on its own. -/
def leaves (context : Context σ) (issue : Issue σ) : σ :=
  match issue.action with
  | .call _ thunk => (thunk issue.prior issue.state).2
  | action => action.call?.elim issue.state fun call => (context.store.perform call issue.state).2

theorem leaves_of_call? {context : Context σ} {action : Action σ} {call : Store.Call}
    (asks : action.call? = some call) (prior : Outcome) (state : σ) :
    leaves context ⟨action, prior, state⟩ = (context.store.perform call state).2 := by
  cases action with
  | get | list | create | update | delete => cases asks; rfl
  | call | handleResult | requeue | finish => cases asks

end Issue

/-- Issues that begin in a state and end in a state, each in the state that the one before it left. -/
def Leads (context : Context σ) : σ → List (Issue σ) → σ → Prop
  | first, [], last => first = last
  | first, issue :: rest, last =>
    issue.state = first ∧ Leads context (issue.leaves context) rest last

/-- The state after some issues of a run that began in `start`. -/
def stateAfter (context : Context σ) (start : σ) (issues : List (Issue σ)) : σ :=
  issues.foldl (fun _ issue => issue.leaves context) start

namespace Leads

variable {context : Context σ} {first middle last : σ} {issues more : List (Issue σ)}

theorem append (h : Leads context first issues middle) (hmore : Leads context middle more last) :
    Leads context first (issues ++ more) last := by
  induction issues generalizing first with
  | nil =>
    obtain rfl : first = middle := h
    exact hmore
  | cons issue rest ih => exact ⟨h.1, ih h.2⟩

theorem of_append (h : Leads context first (issues ++ more) last) :
    Leads context first issues (stateAfter context first issues) ∧
      Leads context (stateAfter context first issues) more last := by
  induction issues generalizing first with
  | nil => exact ⟨rfl, h⟩
  | cons issue rest ih => exact ⟨⟨h.1, (ih h.2).1⟩, (ih h.2).2⟩

/-- The last state is the one that the issues leave. -/
theorem last_eq (h : Leads context first issues last) : last = stateAfter context first issues := by
  rw [← List.append_nil issues] at h
  exact h.of_append.2.symm

end Leads

/-! ### The issues of a run -/

namespace Action

mutual

/-- All that a run of an action issues, in order. -/
def issues (context : Context σ) (action : Action σ) (prior : Outcome) (state : σ) :
    List (Issue σ) :=
  if context.cancelled state then []
  else
    ⟨action, prior, state⟩ ::
      match action with
      | call _ thunk => issuesAnswer context prior (thunk prior state)
      | handleResult guarded handlers =>
        guarded.issues context prior state ++
          issuesHandlers context handlers (guarded.run context prior state).1
            (guarded.run context prior state).2
      | get _ _ | list _ _ | create _ | update _ | delete _ _ _ | requeue _ | finish => []

/-- What is issued for what a call handed back. -/
def issuesAnswer (context : Context σ) (prior : Outcome) :
    Except EngineError (Option (Action σ)) × σ → List (Issue σ)
  | (.ok (some next), state) => next.issues context prior state
  | (.ok none, _) => []
  | (.error _, _) => []

/-- What is issued for the first handler that covers the outcome. -/
def issuesHandlers (context : Context σ) :
    List (Handler (Action σ)) → Outcome → σ → List (Issue σ)
  | [], _, _ => []
  | ⟨on, action⟩ :: rest, first, state =>
    if on.covers first.code then action.issues context first state
    else issuesHandlers context rest first state

end

/-- The handler that runs is the first one that covers the outcome. -/
theorem runHandlers_eq (context : Context σ) (handlers : List (Handler (Action σ)))
    (first : Outcome) (state : σ) :
    runHandlers context handlers first state =
      (handlers.find? fun handler => handler.on.covers first.code).elim (first, state)
        fun handler => handler.action.run context first state := by
  induction handlers with
  | nil => simp [runHandlers]
  | cons handler rest ih =>
    rw [List.find?_cons]
    cases hcovers : handler.on.covers first.code with
    | true => exact runHandlers_of_covers hcovers handler.action rest
    | false =>
      rw [← ih]
      exact runHandlers_of_not_covers hcovers handler.action rest

theorem issuesHandlers_eq (context : Context σ) (handlers : List (Handler (Action σ)))
    (first : Outcome) (state : σ) :
    issuesHandlers context handlers first state =
      (handlers.find? fun handler => handler.on.covers first.code).elim []
        fun handler => handler.action.issues context first state := by
  induction handlers with
  | nil => simp [issuesHandlers]
  | cons handler rest ih =>
    rw [List.find?_cons, issuesHandlers]
    cases hcovers : handler.on.covers first.code with
    | true => rfl
    | false => exact ih

/-! ### Rules of evaluation -/

/-- The rules by which an action is evaluated: what it issues after an outcome and in a state, and the
    outcome and the state to which it comes. -/
inductive Evaluates (context : Context σ) :
    Action σ → Outcome → σ → List (Issue σ) → Outcome → σ → Prop
  /-- The flag is set, and nothing is issued. -/
  | stopped {action : Action σ} {prior : Outcome} {state : σ}
      (set : context.cancelled state = true) :
      Evaluates context action prior state [] (.ofCancellation context.target) state
  /-- The store is called. -/
  | asked {action : Action σ} {prior : Outcome} {state : σ} {call : Store.Call}
      (free : context.cancelled state = false) (asks : action.call? = some call) :
      Evaluates context action prior state [⟨action, prior, state⟩]
        (.ofAnswer call (context.store.perform call state).1)
        (context.store.perform call state).2
  /-- A computation hands nothing back, and the payload before it is passed on. -/
  | passed {label : String} {prior : Outcome} {state after : σ}
      {thunk : Outcome → σ → Except EngineError (Option (Action σ)) × σ}
      (free : context.cancelled state = false) (answer : thunk prior state = (.ok none, after)) :
      Evaluates context (.call label thunk) prior state [⟨.call label thunk, prior, state⟩]
        (.proceed prior.payload?) after
  /-- A computation fails. -/
  | failed {label : String} {prior : Outcome} {state after : σ} {failure : EngineError}
      {thunk : Outcome → σ → Except EngineError (Option (Action σ)) × σ}
      (free : context.cancelled state = false)
      (answer : thunk prior state = (.error failure, after)) :
      Evaluates context (.call label thunk) prior state [⟨.call label thunk, prior, state⟩]
        (.error (.step .call label failure)) after
  /-- A computation hands back an action, which runs in its place. -/
  | replaced {label : String} {prior outcome : Outcome} {state after last : σ} {next : Action σ}
      {thunk : Outcome → σ → Except EngineError (Option (Action σ)) × σ} {rest : List (Issue σ)}
      (free : context.cancelled state = false)
      (answer : thunk prior state = (.ok (some next), after))
      (follows : Evaluates context next prior after rest outcome last) :
      Evaluates context (.call label thunk) prior state
        (⟨.call label thunk, prior, state⟩ :: rest) outcome last
  /-- A handler covers the outcome of the guarded action, and its action runs after that. -/
  | handled {guarded : Action σ} {handlers : List (Handler (Action σ))}
      {handler : Handler (Action σ)} {prior first outcome : Outcome} {state between last : σ}
      {issued rest : List (Issue σ)} (free : context.cancelled state = false)
      (runs : Evaluates context guarded prior state issued first between)
      (covers : handlers.find? (fun handler => handler.on.covers first.code) = some handler)
      (follows : Evaluates context handler.action first between rest outcome last) :
      Evaluates context (.handleResult guarded handlers) prior state
        (⟨.handleResult guarded handlers, prior, state⟩ :: (issued ++ rest)) outcome last
  /-- No handler covers the outcome of the guarded action, and it stays. -/
  | unhandled {guarded : Action σ} {handlers : List (Handler (Action σ))}
      {prior first : Outcome} {state last : σ} {issued : List (Issue σ)}
      (free : context.cancelled state = false)
      (runs : Evaluates context guarded prior state issued first last)
      (uncovered : handlers.find? (fun handler => handler.on.covers first.code) = none) :
      Evaluates context (.handleResult guarded handlers) prior state
        (⟨.handleResult guarded handlers, prior, state⟩ :: issued) first last
  /-- The action asks to come back. -/
  | requeued {after : Option RequeueDelay} {prior : Outcome} {state : σ}
      (free : context.cancelled state = false) :
      Evaluates context (.requeue after) prior state [⟨.requeue after, prior, state⟩]
        (.ofRequeue after) state
  | finished {prior : Outcome} {state : σ} (free : context.cancelled state = false) :
      Evaluates context .finish prior state [⟨.finish, prior, state⟩] (.done none) state

section
variable {context : Context σ} {action : Action σ} {prior : Outcome} {state : σ}

/-- An action that calls the store issues itself only. -/
theorem issues_of_call? {call : Store.Call} (free : context.cancelled state = false)
    (asks : action.call? = some call) :
    action.issues context prior state = [⟨action, prior, state⟩] := by
  rw [issues.eq_def, free]
  cases action with
  | get | list | create | update | delete => rfl
  | call | handleResult | requeue | finish => cases asks

theorem evaluates_of_call? {call : Store.Call} (free : ¬ context.cancelled state = true)
    (asks : action.call? = some call) :
    Evaluates context action prior state (action.issues context prior state)
      (action.run context prior state).1 (action.run context prior state).2 := by
  rw [Bool.not_eq_true] at free
  rw [run_of_call? free asks, issues_of_call? free asks]
  exact .asked free asks

end

/-- A run follows the rules. -/
theorem evaluates (context : Context σ) (action : Action σ) (prior : Outcome) (state : σ) :
    Evaluates context action prior state (action.issues context prior state)
      (action.run context prior state).1 (action.run context prior state).2 := by
  -- Beside the action: the handler that runs, and what a computation hands back.
  induction action, prior, state using fun actions => Action.run.induct context actions
    (fun handlers first state => ∀ handler,
      handlers.find? (fun handler => handler.on.covers first.code) = some handler →
        Evaluates context handler.action first state (handler.action.issues context first state)
          (handler.action.run context first state).1 (handler.action.run context first state).2)
    (fun _ prior answer => ∀ next after, answer = (.ok (some next), after) →
      Evaluates context next prior after (next.issues context prior after)
        (next.run context prior after).1 (next.run context prior after).2) with
  | case1 action prior state set =>
    rw [run.eq_def, issues.eq_def, if_pos set, if_pos set]
    exact .stopped set
  | case2 _ _ free | case3 _ _ free | case4 _ _ free | case5 _ _ free | case6 _ _ free =>
    exact evaluates_of_call? free rfl
  | case7 prior state free label thunk ih =>
    rw [Bool.not_eq_true] at free
    rw [run_call free, issues, free]
    show Evaluates context (.call label thunk) prior state
      (_ :: issuesAnswer context prior (thunk prior state)) _ _
    rcases hanswer : thunk prior state with ⟨failure | _ | next, after⟩
    · exact .failed free hanswer
    · exact .passed free hanswer
    · exact .replaced free hanswer (ih next after hanswer)
  | case8 prior state free guarded handlers first between hrun ih ihhandlers =>
    rw [Bool.not_eq_true] at free
    rw [run_handleResult free, runHandlers_eq, issues, free]
    show Evaluates context (.handleResult guarded handlers) prior state
      (_ :: (guarded.issues context prior state ++ issuesHandlers context handlers
        (guarded.run context prior state).1 (guarded.run context prior state).2)) _ _
    rw [issuesHandlers_eq]
    rw [hrun] at ih ⊢
    cases hfind : handlers.find? fun handler => handler.on.covers first.code with
    | none =>
      rw [Option.elim_none, Option.elim_none, List.append_nil]
      exact .unhandled free ih hfind
    | some handler => exact .handled free ih hfind (ihhandlers handler hfind)
  | case9 prior state free =>
    rw [Bool.not_eq_true] at free
    rw [run, issues, free]
    exact .requeued free
  | case10 prior state free delay =>
    rw [Bool.not_eq_true] at free
    rw [run, issues, free]
    exact .requeued free
  | case11 prior state free =>
    rw [Bool.not_eq_true] at free
    rw [run, issues, free]
    exact .finished free
  | case12 label prior next state ih _ _ answer =>
    cases answer
    exact ih
  | case13 label prior state _ _ answer | case14 label prior _ state _ _ answer => cases answer
  | case15 first state handler hfind => cases hfind
  | case16 on action rest first state covers ih handler hfind =>
    rw [List.find?_cons, covers] at hfind
    cases hfind
    exact ih
  | case17 on action rest first state uncovered ih handler hfind =>
    rw [Bool.not_eq_true] at uncovered
    rw [List.find?_cons, uncovered] at hfind
    exact ih handler hfind

/-- Whatever follows the rules is the run with its issues. -/
theorem Evaluates.eq {context : Context σ} {action : Action σ} {prior outcome : Outcome}
    {state last : σ} {issued : List (Issue σ)}
    (h : Evaluates context action prior state issued outcome last) :
    action.issues context prior state = issued ∧
      action.run context prior state = (outcome, last) := by
  induction h with
  | @stopped action prior state set =>
    rw [run.eq_def, issues.eq_def, if_pos set, if_pos set]
    exact ⟨rfl, rfl⟩
  | asked free asks => exact ⟨issues_of_call? free asks, run_of_call? free asks⟩
  | passed free answer =>
    rw [run_call free, issues, free, answer]
    exact ⟨rfl, rfl⟩
  | failed free answer =>
    rw [run_call free, issues, free, answer]
    exact ⟨rfl, rfl⟩
  | replaced free answer _ ih =>
    rw [run_call free, issues, free, answer, ← ih.1, ← ih.2]
    exact ⟨rfl, rfl⟩
  | handled free _ covers _ ihruns ihfollows =>
    rw [run_handleResult free, issues, free]
    simp [ihruns, runHandlers_eq, issuesHandlers_eq, covers, ihfollows]
  | unhandled free _ uncovered ih =>
    rw [run_handleResult free, issues, free]
    simp [ih, runHandlers_eq, issuesHandlers_eq, uncovered]
  | @requeued after prior state free =>
    rw [run.eq_def, issues, free]
    cases after <;> exact ⟨rfl, rfl⟩
  | finished free =>
    rw [run, issues, free]
    exact ⟨rfl, rfl⟩

/-- **Rules.** What an action issues is the state's way from the beginning of its run to the end. -/
theorem Evaluates.leads {context : Context σ} {action : Action σ} {prior outcome : Outcome}
    {state last : σ} {issued : List (Issue σ)}
    (h : Evaluates context action prior state issued outcome last) :
    Leads context state issued last := by
  induction h with
  | stopped set => exact rfl
  | asked free asks => exact ⟨rfl, Issue.leaves_of_call? asks _ _⟩
  | passed free answer | failed free answer => exact ⟨rfl, congrArg Prod.snd answer⟩
  | replaced free answer _ ih =>
    refine ⟨rfl, ?_⟩
    dsimp only [Issue.leaves]
    rw [answer]
    exact ih
  | handled free _ covers _ ihruns ihfollows => exact ⟨rfl, ihruns.append ihfollows⟩
  | unhandled free _ uncovered ih => exact ⟨rfl, ih⟩
  | requeued free | finished free => exact ⟨rfl, rfl⟩

theorem leads_run (context : Context σ) (action : Action σ) (prior : Outcome) (state : σ) :
    Leads context state (action.issues context prior state) (action.run context prior state).2 :=
  (evaluates context action prior state).leads

end Action

/-! ### Chains and attempts -/

namespace Chain

/-- All that actions issue that run after an outcome, up to the first that does not let the chain go
    on. -/
def issuesSteps (context : Context σ) : List (Action σ) → Outcome → σ → List (Issue σ)
  | [], _, _ => []
  | action :: rest, prior, state =>
    action.issues context prior state ++
      if (action.run context prior state).1.code.isTerminal then []
      else
        issuesSteps context rest (action.run context prior state).1
          (action.run context prior state).2

/-- All that a run of a chain issues. -/
def issues (context : Context σ) (chain : Chain σ) (state : σ) : List (Issue σ) :=
  issuesSteps context chain.steps (.proceed none) state

/-- The states in which the attempts of a chain begin: one attempt, and up to `left` more as long as
    they end in an error. -/
def starts (context : Context σ) (chain : Chain σ) : Nat → σ → List σ
  | 0, state => [state]
  | left + 1, state =>
    state ::
      match chain.run context state with
      | (.error _, after) => starts context chain left after
      | _ => []

/-- All that a chain issues in a number of attempts. -/
def issuesAgain (context : Context σ) (chain : Chain σ) (left : Nat) (state : σ) :
    List (Issue σ) :=
  (chain.starts context left state).flatMap (chain.issues context)

/-- All that a chain issues when it is run with retries. -/
def issuesRetrying (context : Context σ) (policy : RetryPolicy) (chain : Chain σ) (state : σ) :
    List (Issue σ) :=
  chain.issuesAgain context (policy.attempts.toNat - 1) state

section
variable {context : Context σ} {action : Action σ} {prior : Outcome} {state : σ}

theorem runSteps_of_isTerminal
    (ends : (action.run context prior state).1.code.isTerminal = true) (rest : List (Action σ)) :
    runSteps context (action :: rest) prior state = action.run context prior state ∧
      issuesSteps context (action :: rest) prior state = action.issues context prior state := by
  rw [runSteps, issuesSteps]
  simp [ends]

theorem runSteps_of_not_isTerminal
    (goesOn : (action.run context prior state).1.code.isTerminal = false)
    (rest : List (Action σ)) :
    runSteps context (action :: rest) prior state =
        runSteps context rest (action.run context prior state).1
          (action.run context prior state).2 ∧
      issuesSteps context (action :: rest) prior state =
        action.issues context prior state ++
          issuesSteps context rest (action.run context prior state).1
            (action.run context prior state).2 := by
  rw [runSteps, issuesSteps]
  simp [goesOn]

end

theorem leads_runSteps (context : Context σ) (steps : List (Action σ)) (prior : Outcome)
    (state : σ) :
    Leads context state (issuesSteps context steps prior state)
      (runSteps context steps prior state).2 := by
  induction steps generalizing prior state with
  | nil => exact rfl
  | cons action rest ih =>
    have haction := action.leads_run context prior state
    cases hterminal : (action.run context prior state).1.code.isTerminal with
    | true =>
      obtain ⟨hrun, hissues⟩ := runSteps_of_isTerminal hterminal rest
      rw [hrun, hissues]
      exact haction
    | false =>
      obtain ⟨hrun, hissues⟩ := runSteps_of_not_isTerminal hterminal rest
      rw [hrun, hissues]
      exact haction.append (ih _ _)

theorem leads_run (context : Context σ) (chain : Chain σ) (state : σ) :
    Leads context state (chain.issues context state) (chain.run context state).2 :=
  leads_runSteps context chain.steps (.proceed none) state

/-- An attempt ends in an error, or it is the last one. -/
theorem run_cases (context : Context σ) (chain : Chain σ) (state : σ) :
    (∃ cause after, chain.run context state = (.error cause, after)) ∨
      (chain.run context state).1.code ≠ .error := by
  rcases chain.run context state with ⟨outcome, after⟩
  cases outcome with
  | error cause => exact Or.inl ⟨cause, after, rfl⟩
  | _ => exact Or.inr fun h => by cases h

section
variable {context : Context σ} {chain : Chain σ} {state after : σ}

theorem starts_of_error {cause : EngineError} (h : chain.run context state = (.error cause, after))
    (left : Nat) :
    chain.starts context (left + 1) state = state :: chain.starts context left after := by
  rw [starts, h]

theorem starts_of_ok (hok : (chain.run context state).1.code ≠ .error) (left : Nat) :
    chain.starts context left state = [state] := by
  cases left with
  | zero => rfl
  | succ left =>
    rw [starts]
    rcases hrun : chain.run context state with ⟨outcome, after⟩
    rw [hrun] at hok
    cases outcome with
    | error cause => exact absurd rfl hok
    | _ => rfl

end

theorem again_zero (context : Context σ) (chain : Chain σ) (state : σ) :
    chain.runAgain context 0 state = chain.run context state ∧
      chain.issuesAgain context 0 state = chain.issues context state :=
  ⟨rfl, List.flatMap_singleton ..⟩

/-- After an attempt that ends in an error comes the next one, if some are left. -/
theorem again_succ (context : Context σ) (chain : Chain σ) (left : Nat) (state : σ) :
    chain.runAgain context (left + 1) state =
        (if (chain.run context state).1.code = .error then
          chain.runAgain context left (chain.run context state).2
        else chain.run context state) ∧
      chain.issuesAgain context (left + 1) state =
        chain.issues context state ++
          if (chain.run context state).1.code = .error then
            chain.issuesAgain context left (chain.run context state).2
          else [] := by
  rcases run_cases context chain state with ⟨cause, after, herror⟩ | hok
  · have hcode : (chain.run context state).1.code = .error := by rw [herror]; rfl
    rw [if_pos hcode, if_pos hcode, issuesAgain, starts_of_error herror, List.flatMap_cons]
    rw [runAgain_of_error herror, herror]
    exact ⟨rfl, rfl⟩
  · rw [if_neg hok, if_neg hok, issuesAgain, starts_of_ok hok, List.flatMap_singleton,
      List.append_nil]
    exact ⟨runAgain_of_ok rfl hok (left + 1), rfl⟩

theorem leads_runAgain (context : Context σ) (chain : Chain σ) (left : Nat) (state : σ) :
    Leads context state (chain.issuesAgain context left state)
      (chain.runAgain context left state).2 := by
  induction left generalizing state with
  | zero =>
    obtain ⟨hrun, hissues⟩ := again_zero context chain state
    rw [hrun, hissues]
    exact chain.leads_run context state
  | succ left ih =>
    have hattempt := chain.leads_run context state
    obtain ⟨hrun, hissues⟩ := again_succ context chain left state
    rw [hrun, hissues]
    split
    · exact hattempt.append (ih _)
    · rw [List.append_nil]
      exact hattempt

end Chain

end Reconciliation
