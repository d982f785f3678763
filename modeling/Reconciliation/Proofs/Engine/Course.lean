import Reconciliation.Proofs.Engine.Sequencing

namespace Reconciliation

/-!
# The course of a chain

How far a chain gets, and what it has done by then:

* `Chain.Continues` — actions each of which lets the chain go on, and sees the payload of the one before;
* `Chain.Breaks` — actions of which one does not let the chain go on, after some that did;
* `Chain.continues_or_breaks` — every chain does one or the other;
* `Chain.Continues.eq`, `Chain.Breaks.eq` — what a run comes to in either case, and what it issues;
* `Chain.run_course` — the course of a chain that is put together of two.

Both are stated by the rules of evaluation, so that they say what every step sees, issues and leaves,
and do not say anything about the steps that are not reached.
-/

variable {σ : Type}

namespace Chain

/-- Actions each of which lets the chain go on.  Each is evaluated after the payload, and in the state,
    that the one before it left. -/
inductive Continues (context : Context σ) :
    List (Action σ) → Option Payload → σ → List (Issue σ) → Option Payload → σ → Prop
  | nil (payload : Option Payload) (state : σ) : Continues context [] payload state [] payload state
  | cons {action : Action σ} {rest : List (Action σ)} {payload brought final : Option Payload}
      {state between last : σ} {issued more : List (Issue σ)}
      (step : action.Evaluates context (.proceed payload) state issued (.proceed brought) between)
      (goesOn : Continues context rest brought between more final last) :
      Continues context (action :: rest) payload state (issued ++ more) final last

/-- Actions of which one does not let the chain go on.  Nothing is said about those after it. -/
inductive Breaks (context : Context σ) :
    List (Action σ) → Option Payload → σ → List (Issue σ) → Outcome → σ → Prop
  | intro {before after : List (Action σ)} {action : Action σ} {payload brought : Option Payload}
      {state between last : σ} {issued more : List (Issue σ)} {outcome : Outcome}
      (continues : Continues context before payload state issued brought between)
      (step : action.Evaluates context (.proceed brought) between more outcome last)
      (terminal : outcome.code.isTerminal = true) :
      Breaks context (before ++ action :: after) payload state (issued ++ more) outcome last

variable {context : Context σ} {steps : List (Action σ)} {payload brought : Option Payload}
  {state last : σ} {issued : List (Issue σ)} {outcome : Outcome}

theorem Breaks.cons {action : Action σ} {between : σ} {more : List (Issue σ)}
    (step : action.Evaluates context (.proceed payload) state issued (.proceed brought) between)
    (h : Breaks context steps brought between more outcome last) :
    Breaks context (action :: steps) payload state (issued ++ more) outcome last := by
  obtain ⟨continues, stop, terminal⟩ := h
  rw [← List.append_assoc, ← List.cons_append]
  exact .intro (.cons step continues) stop terminal

/-- Every chain goes on to its end, or there is a first action that does not let it. -/
theorem continues_or_breaks (context : Context σ) (steps : List (Action σ))
    (payload : Option Payload) (state : σ) :
    (∃ issued brought last, Continues context steps payload state issued brought last) ∨
    ∃ issued outcome last, Breaks context steps payload state issued outcome last := by
  induction steps generalizing payload state with
  | nil => exact .inl ⟨[], payload, state, .nil payload state⟩
  | cons action rest ih =>
    have hstep := action.evaluates context (.proceed payload) state
    cases hterminal : (action.run context (.proceed payload) state).1.code.isTerminal with
    | true => exact .inr ⟨_, _, _, .intro (.nil payload state) hstep hterminal⟩
    | false =>
      rw [Outcome.eq_proceed_of_not_isTerminal hterminal] at hstep
      rcases ih _ _ with ⟨more, brought, last, hrest⟩ | ⟨more, outcome, last, hrest⟩
      · exact .inl ⟨_, brought, last, .cons hstep hrest⟩
      · exact .inr ⟨_, outcome, last, .cons hstep hrest⟩

/-- **Step.**  After an action that lets the chain go on, the rest runs. -/
theorem runSteps_of_evaluates {action : Action σ} {between : σ}
    (step : action.Evaluates context (.proceed payload) state issued (.proceed brought) between)
    (rest : List (Action σ)) :
    runSteps context (action :: rest) (.proceed payload) state =
        runSteps context rest (.proceed brought) between ∧
      issuesSteps context (action :: rest) (.proceed payload) state =
        issued ++ issuesSteps context rest (.proceed brought) between := by
  obtain ⟨hissues, hrun⟩ := step.eq
  rw [runSteps, issuesSteps, hrun, hissues]
  exact ⟨rfl, rfl⟩

/-- **Run.**  After actions each of which lets the chain go on, the rest runs. -/
theorem Continues.append (h : Continues context steps payload state issued brought last)
    (rest : List (Action σ)) :
    runSteps context (steps ++ rest) (.proceed payload) state =
        runSteps context rest (.proceed brought) last ∧
      issuesSteps context (steps ++ rest) (.proceed payload) state =
        issued ++ issuesSteps context rest (.proceed brought) last := by
  induction h with
  | nil payload state => exact ⟨rfl, rfl⟩
  | cons step _ ih =>
    obtain ⟨hstep, hissued⟩ := runSteps_of_evaluates step (_ ++ rest)
    obtain ⟨hrest, hmore⟩ := ih
    refine ⟨hstep.trans hrest, ?_⟩
    rw [List.cons_append, hissued, hmore, List.append_assoc]

/-- A chain that goes on to its end is done with the payload of its last action. -/
theorem Continues.eq (h : Continues context steps payload state issued brought last) :
    runSteps context steps (.proceed payload) state = (.done brought, last) ∧
      issuesSteps context steps (.proceed payload) state = issued := by
  obtain ⟨hrun, hissues⟩ := h.append []
  rw [List.append_nil] at hrun hissues
  exact ⟨hrun, hissues.trans (List.append_nil issued)⟩

/-- A chain comes to the first outcome that does not let it go on, whatever stands after that. -/
theorem Breaks.append (h : Breaks context steps payload state issued outcome last)
    (rest : List (Action σ)) :
    runSteps context (steps ++ rest) (.proceed payload) state = (outcome, last) ∧
      issuesSteps context (steps ++ rest) (.proceed payload) state = issued := by
  obtain @⟨before, after, action, _, _, _, _, _, _, _, _, continues, step, terminal⟩ := h
  obtain ⟨hissues, hrun⟩ := step.eq
  obtain ⟨hbefore, hissued⟩ := continues.append (action :: after ++ rest)
  rw [List.append_assoc, hbefore, hissued, List.cons_append, runSteps, issuesSteps, hrun, hissues]
  simp [terminal]

theorem Breaks.eq (h : Breaks context steps payload state issued outcome last) :
    runSteps context steps (.proceed payload) state = (outcome, last) ∧
      issuesSteps context steps (.proceed payload) state = issued := by
  have happend := h.append []
  rwa [List.append_nil] at happend

/-- **The course of a chain.**  Either every action lets the chain go on; then it is done with the payload
    of the last.  Or there is a first that does not; then the chain comes to its outcome, in the state
    that it left, and issues nothing after it.  Of a chain that is put together of two, the second runs
    only if every action of the first lets the chain go on, and then from the payload and the state to
    which the first comes. -/
theorem run_course (context : Context σ) (first second : List (Action σ)) (state : σ) :
    ((∃ issued brought last,
        Continues context (first ++ second) none state issued brought last ∧
        Chain.run context ⟨first ++ second⟩ state = (.done brought, last) ∧
        Chain.issues context ⟨first ++ second⟩ state = issued) ∨
      ∃ issued outcome last,
        Breaks context (first ++ second) none state issued outcome last ∧
        Chain.run context ⟨first ++ second⟩ state = (outcome, last) ∧
        Chain.issues context ⟨first ++ second⟩ state = issued) ∧
    ((∃ issued brought between,
        Continues context first none state issued brought between ∧
        Chain.run context ⟨first⟩ state = (.done brought, between) ∧
        Chain.run context ⟨first ++ second⟩ state =
          runSteps context second (.proceed brought) between ∧
        Chain.issues context ⟨first ++ second⟩ state =
          issued ++ issuesSteps context second (.proceed brought) between) ∨
      ∃ issued outcome last,
        Breaks context first none state issued outcome last ∧
        Chain.run context ⟨first⟩ state = (outcome, last) ∧
        Chain.run context ⟨first ++ second⟩ state = (outcome, last) ∧
        Chain.issues context ⟨first ++ second⟩ state = issued) := by
  constructor
  · rcases continues_or_breaks context (first ++ second) none state with
      ⟨issued, brought, last, h⟩ | ⟨issued, outcome, last, h⟩
    · exact .inl ⟨issued, brought, last, h, h.eq⟩
    · exact .inr ⟨issued, outcome, last, h, h.eq⟩
  · rcases continues_or_breaks context first none state with
      ⟨issued, brought, last, h⟩ | ⟨issued, outcome, last, h⟩
    · exact .inl ⟨issued, brought, last, h, h.eq.1, h.append second⟩
    · exact .inr ⟨issued, outcome, last, h, h.eq.1, h.append second⟩

/-- A chain that finishes does not create what it would have created after that. -/
example : Chain.run Bracketing.Journal.context
    ⟨[.get Specimen.secrets Bracketing.Journal.present, .finish,
      .create (Specimen.secret Bracketing.Journal.absent)]⟩ [] =
      (.done none, [.get]) := by
  decide

end Chain

end Reconciliation
