import Mathlib.Data.Nat.Find
import Mathlib.Logic.Function.Iterate
import Reconciliation.Proofs.Engine.Record
import Reconciliation.Proofs.Engine.Trace

namespace Reconciliation

/-!
# How often something is attempted

A step can be made again and again, each time in the state that the time before left.  Retries stop
with the first time that does not fail, or at a bound:

* `Attempt.start`, `Attempt.result` — the state in which a time begins, and what it comes to;
* `Stops` — with which time an attempted step stops;
* `noted` — an operation that notes the states in which it is called;
* `numbered` — attempts that are numbered by a machine word, and break off where it has no next number;
* `attemptAgain_eq`, `numberedFrom_eq` — attempts come to what the time comes to with which they stop;
* `Retried`, `Chain.Retried`, `retry_exact` — all that retries of an operation, and of a chain, do.

The number of calls is not read off the loop: whoever is called can note it in the state.
-/

variable {α β ε σ : Type}

/-! ### A step that is made again and again -/

namespace Attempt

/-- The state after a step has been made some times. -/
def start (step : σ → β × σ) (state : σ) (times : Nat) : σ := (fun state => (step state).2)^[times] state

/-- What a step comes to when it is made for the `time`-th time.  The first time has the number one. -/
def result (step : σ → β × σ) (state : σ) (time : Nat) : β × σ := step (start step state (time - 1))

theorem result_one (step : σ → β × σ) (state : σ) : result step state 1 = step state := rfl

/-- All times but the first are those after the first. -/
theorem result_succ (step : σ → β × σ) (state : σ) {time : Nat} (positive : 1 ≤ time) :
    result step state (time + 1) = result step (step state).2 time := by
  obtain ⟨earlier, rfl⟩ : ∃ earlier, time = earlier + 1 := ⟨time - 1, by omega⟩
  rfl

/-- Renaming what a step brings does not change where its times begin. -/
theorem result_mapAnswer {γ : Type} (rename : β → γ) (step : σ → β × σ) (state : σ) (time : Nat) :
    result (fun state => mapAnswer rename (step state)) state time =
      mapAnswer rename (result step state time) := rfl

end Attempt

/-- An attempted step stops with the `last` time: all times before it fail, and it does not, unless it
    is the last one that the bound allows. -/
structure Stops (fails : β → Prop) (step : σ → β × σ) (state : σ) (bound last : Nat) : Prop where
  positive : 1 ≤ last
  within : last ≤ bound
  earlier : ∀ time, 1 ≤ time → time < last → fails (Attempt.result step state time).1
  ends : ¬ fails (Attempt.result step state last).1 ∨ last = bound

namespace Stops

variable {fails : β → Prop} {step : σ → β × σ} {state : σ} {bound last : Nat}

/-- There is a time with which an attempted step stops. -/
theorem exists_last (fails : β → Prop) (step : σ → β × σ) (state : σ) (positive : 1 ≤ bound) :
    ∃ last, Stops fails step state bound last := by
  classical
  have hbound : 1 ≤ bound ∧ (¬ fails (Attempt.result step state bound).1 ∨ bound = bound) :=
    ⟨positive, .inr rfl⟩
  have hexists : ∃ time, 1 ≤ time ∧ (¬ fails (Attempt.result step state time).1 ∨ time = bound) :=
    ⟨bound, hbound⟩
  obtain ⟨hpositive, hends⟩ := Nat.find_spec hexists
  refine ⟨Nat.find hexists, hpositive, Nat.find_min' hexists hbound, fun time htime hlt => ?_, hends⟩
  by_contra hsucceeds
  exact Nat.find_min hexists hlt ⟨htime, .inl hsucceeds⟩

/-- It is the first time, or the first one fails and it is one of those after that. -/
theorem succ_cases {left : Nat} (h : Stops fails step state (left + 1) last) :
    (last = 1 ∧ (¬ fails (step state).1 ∨ left = 0)) ∨
      ∃ later, last = later + 1 ∧ fails (step state).1 ∧ Stops fails step (step state).2 left later := by
  match last with
  | 0 => exact absurd h.positive (by omega)
  | 1 => exact .inl ⟨rfl, h.ends.imp_right fun hone => by omega⟩
  | later + 2 =>
    have hresult : ∀ time, 1 ≤ time →
        Attempt.result step state (time + 1) = Attempt.result step (step state).2 time :=
      fun time htime => Attempt.result_succ step state htime
    refine .inr ⟨later + 1, rfl, h.earlier 1 (by omega) (by omega), by omega, ?_, ?_, ?_⟩
    · exact Nat.le_of_succ_le_succ h.within
    · intro time htime hlt
      rw [← hresult time htime]
      exact h.earlier (time + 1) (by omega) (by omega)
    · rw [← hresult (later + 1) (by omega)]
      exact h.ends.imp_right fun hlast => by omega

/-- A step that does the same, and fails in the same cases, stops with the same time. -/
theorem congr {γ τ : Type} {failsToo : γ → Prop} {other : τ → γ × τ} {twin : τ}
    (h : Stops fails step state bound last)
    (same : ∀ time, 1 ≤ time → (failsToo (Attempt.result other twin time).1 ↔
      fails (Attempt.result step state time).1)) :
    Stops failsToo other twin bound last where
  positive := h.positive
  within := h.within
  earlier time htime hlt := (same time htime).mpr (h.earlier time htime hlt)
  ends := h.ends.imp_left fun hsucceeds hfails => hsucceeds ((same last h.positive).mp hfails)

end Stops

/-! ### Retries of an operation -/

/-- A result that is an error. -/
def Failed (result : Except ε α) : Prop := ∃ failure, result = .error failure

/-- The operation, which notes every state in which it is called. -/
def noted (operation : σ → Except ε α × σ) (state : List σ × σ) : Except ε α × List σ × σ :=
  ((operation state.2).1, state.1 ++ [state.2], (operation state.2).2)

/-- The next number, if the word has room for it. -/
def next? (number : UInt32) : Option UInt32 :=
  if number.toNat + 1 < UInt32.size then some (number + 1) else none

theorem toNat_of_next? {number next : UInt32} (h : next? number = some next) :
    next.toNat = number.toNat + 1 := by
  unfold next? at h
  split at h
  · rename_i hroom
    cases h
    rw [UInt32.toNat_add]
    exact Nat.mod_eq_of_lt hroom
  · cases h

/-- Attempts from the one with a number on.  Beside the answer comes the number of the last one.  There
    is none if the number of a further attempt does not fit into its word. -/
def numberedFrom (policy : RetryPolicy) (operation : σ → Except ε α × σ) (number : UInt32)
    (state : σ) : Option (UInt32 × Except ε α × σ) :=
  match operation state with
  | (.ok value, after) => some (number, .ok value, after)
  | (.error failure, after) =>
    if policy.attempts ≤ number then some (number, .error failure, after)
    else
      match _next : next? number with
      | some next => numberedFrom policy operation next after
      | none => none
termination_by policy.attempts.toNat - number.toNat
decreasing_by
  have hnext := toNat_of_next? _next
  have hless : number.toNat < policy.attempts.toNat := UInt32.lt_iff_toNat_lt.mp (UInt32.not_le.mp ‹_›)
  omega

/-- Attempts of an operation as the policy allows, numbered from one. -/
def numbered (policy : RetryPolicy) (operation : σ → Except ε α × σ) (state : σ) :
    Option (UInt32 × Except ε α × σ) :=
  numberedFrom policy operation 1 state

section

variable {operation : σ → Except ε α × σ} {state : σ} {last : Nat}

/-- An attempt that does not fail has an answer. -/
theorem eq_ok_of_not_failed (h : ¬ Failed (operation state).1) :
    ∃ value, operation state = (.ok value, (operation state).2) := by
  cases hanswer : (operation state).1 with
  | error failure => exact absurd ⟨failure, hanswer⟩ h
  | ok value => exact ⟨value, Prod.ext hanswer rfl⟩

/-- An attempt that fails has an error. -/
theorem eq_error_of_failed (h : Failed (operation state).1) :
    ∃ failure, operation state = (.error failure, (operation state).2) := by
  obtain ⟨failure, hfailure⟩ := h
  exact ⟨failure, Prod.ext hfailure rfl⟩

/-- **Run.** Attempts come to what the one comes to with which they stop. -/
theorem attemptAgain_eq {left : Nat} (h : Stops Failed operation state (left + 1) last) :
    attemptAgain operation left state = Attempt.result operation state last := by
  induction left generalizing state last with
  | zero =>
    rcases h.succ_cases with ⟨rfl, _⟩ | ⟨later, rfl, _, hlater⟩
    · rfl
    · exact absurd (Nat.le_trans hlater.positive hlater.within) (by omega)
  | succ left ih =>
    rcases h.succ_cases with ⟨rfl, hends⟩ | ⟨later, rfl, hfailed, hlater⟩
    · obtain ⟨value, hvalue⟩ := eq_ok_of_not_failed (hends.resolve_right (by omega))
      rw [Attempt.result_one, attemptAgain, hvalue]
    · obtain ⟨failure, hfailure⟩ := eq_error_of_failed hfailed
      rw [Attempt.result_succ _ _ hlater.positive, attemptAgain, hfailure]
      exact ih hlater

theorem retry_eq {policy : RetryPolicy}
    (h : Stops Failed operation state policy.attempts.toNat last) :
    retry policy operation state = Attempt.result operation state last := by
  have hbound : policy.attempts.toNat = policy.attempts.toNat - 1 + 1 := by
    have hpositive := policy.positive
    omega
  rw [hbound] at h
  exact attemptAgain_eq h

/-- **Run.** Numbered attempts come to the same, and the word is never too small for a number. -/
theorem numberedFrom_eq {policy : RetryPolicy} {left : Nat} {number : UInt32}
    (remaining : number.toNat + left = policy.attempts.toNat)
    (h : Stops Failed operation state (left + 1) last) :
    ∃ final, numberedFrom policy operation number state =
        some (final, Attempt.result operation state last) ∧
      final.toNat + 1 = number.toNat + last := by
  induction left generalizing state last number with
  | zero =>
    rcases h.succ_cases with ⟨rfl, _⟩ | ⟨later, rfl, _, hlater⟩
    · have hbound : policy.attempts ≤ number := UInt32.le_iff_toNat_le.mpr (by omega)
      refine ⟨number, ?_, rfl⟩
      rw [Attempt.result_one, numberedFrom]
      rcases operation state with ⟨failure | value, after⟩
      · simp [hbound]
      · rfl
    · exact absurd (Nat.le_trans hlater.positive hlater.within) (by omega)
  | succ left ih =>
    rcases h.succ_cases with ⟨rfl, hends⟩ | ⟨later, rfl, hfailed, hlater⟩
    · obtain ⟨value, hvalue⟩ := eq_ok_of_not_failed (hends.resolve_right (by omega))
      refine ⟨number, ?_, rfl⟩
      rw [Attempt.result_one, numberedFrom, hvalue]
    · obtain ⟨failure, hfailure⟩ := eq_error_of_failed hfailed
      -- The number is smaller than the bound, which fits into the word.
      have hbound : ¬ policy.attempts ≤ number := fun hle =>
        absurd (UInt32.le_iff_toNat_le.mp hle) (by omega)
      have hroom : number.toNat + 1 < UInt32.size :=
        Nat.lt_of_le_of_lt (by omega) policy.attempts.toNat_lt
      have hnext : next? number = some (number + 1) := if_pos hroom
      have hcount := toNat_of_next? hnext
      have hremaining : (number + 1).toNat + left = policy.attempts.toNat := by omega
      obtain ⟨final, hfinal, hlast⟩ := ih hremaining hlater
      refine ⟨final, ?_, by omega⟩
      rw [Attempt.result_succ _ _ hlater.positive, numberedFrom, hfailure]
      dsimp only
      rw [if_neg hbound]
      split
      · rename_i next hnumber
        rw [hnext] at hnumber
        cases hnumber
        exact hfinal
      · rename_i hnone
        rw [hnext] at hnone
        cases hnone

theorem start_noted (operation : σ → Except ε α × σ) (state : σ) (times : Nat) :
    Attempt.start (noted operation) ([], state) times =
      ((List.range times).map (Attempt.start operation state), Attempt.start operation state times) := by
  induction times with
  | zero => rfl
  | succ times ih =>
    have hstep : ∀ {γ τ : Type} (step : τ → γ × τ) (first : τ),
        Attempt.start step first (times + 1) = (step (Attempt.start step first times)).2 :=
      fun step first => Function.iterate_succ_apply' _ times first
    rw [hstep, ih, hstep, List.range_succ, List.map_append]
    rfl

end

/-- What retries of an operation do that is called `calls` times. -/
structure Retried (policy : RetryPolicy) (operation : σ → Except ε α × σ) (state : σ) (calls : Nat) :
    Prop where
  /-- The last call is the first that succeeds, if one of those that are allowed does. -/
  stops : Stops Failed operation state policy.attempts.toNat calls
  /-- The last call is the answer, and leaves the state. -/
  answer : retry policy operation state = Attempt.result operation state calls
  /-- An operation that notes its calls has been called so often, each time in the state that the time
      before left. -/
  log : retry policy (noted operation) ([], state) =
    ((Attempt.result operation state calls).1, (List.range calls).map (Attempt.start operation state),
      (Attempt.result operation state calls).2)
  /-- The last call has this number, and every number fits into its word. -/
  number : ∃ last, numbered policy operation state = some (last, retry policy operation state) ∧
    last.toNat = calls

theorem retried_of_stops {policy : RetryPolicy} {operation : σ → Except ε α × σ} {state : σ}
    {calls : Nat} (h : Stops Failed operation state policy.attempts.toNat calls) :
    Retried policy operation state calls where
  stops := h
  answer := retry_eq h
  log := by
    have hresult : ∀ time, Attempt.result (noted operation) ([], state) time =
        noted operation ((List.range (time - 1)).map (Attempt.start operation state),
          Attempt.start operation state (time - 1)) := by
      intro time
      rw [Attempt.result, start_noted]
    have hnoted : Stops Failed (noted operation) ([], state) policy.attempts.toNat calls := by
      refine h.congr fun time _ => ?_
      rw [hresult]
      rfl
    obtain ⟨earlier, rfl⟩ : ∃ earlier, calls = earlier + 1 := ⟨calls - 1, by have := h.positive; omega⟩
    rw [retry_eq hnoted, hresult, List.range_succ, List.map_append]
    rfl
  number := by
    have hpositive := policy.positive
    have hone : (1 : UInt32).toNat + (policy.attempts.toNat - 1) = policy.attempts.toNat := by
      show 1 + _ = _
      omega
    have hbound : policy.attempts.toNat = policy.attempts.toNat - 1 + 1 := by omega
    rw [retry_eq h]
    rw [hbound] at h
    obtain ⟨last, hlast, hnumber⟩ := numberedFrom_eq hone h
    have hnumber : last.toNat + 1 = 1 + calls := hnumber
    exact ⟨last, hlast, by omega⟩

/-! ### Retries of a chain -/

namespace Chain

/-- A run of a chain that fails if it ends in an error. -/
def fallible (context : Context σ) (chain : Chain σ) (state : σ) : Except EngineError Outcome × σ :=
  mapAnswer Outcome.toExcept (chain.run context state)

theorem failed_toExcept_iff (outcome : Outcome) :
    Failed outcome.toExcept ↔ outcome.code = .error := by
  cases outcome with
  | error cause => exact ⟨fun _ => rfl, fun _ => ⟨cause, rfl⟩⟩
  | _ =>
    constructor
    · rintro ⟨failure, h⟩
      cases h
    · intro h
      cases h

variable {context : Context σ} {policy : RetryPolicy} {chain : Chain σ} {state : σ} {runs : Nat}

/-- What retries of a chain do that runs it `runs` times from its start. -/
structure Retried (context : Context σ) (policy : RetryPolicy) (chain : Chain σ) (state : σ)
    (runs : Nat) : Prop where
  /-- The last run is the first that does not end in an error, if one of those that are allowed does
      not. -/
  stops : Stops (fun outcome => outcome.code = .error) (chain.run context) state
    policy.attempts.toNat runs
  /-- The outcome is that of the last run, be it an error or not, and so is the state. -/
  outcome : chain.runRetrying context policy state = Attempt.result (chain.run context) state runs
  /-- The runs are the calls of a retried operation. -/
  calls : Reconciliation.Retried policy (chain.fallible context) state runs
  /-- What is issued is what the runs issue, each in the state that the one before it left. -/
  issued : chain.issuesRetrying context policy state =
    (List.range runs).flatMap fun earlier =>
      chain.issues context (Attempt.start (chain.run context) state earlier)
  /-- Nothing that comes along with the outcome is lost or made up. -/
  record : chain.reportRetrying context policy state =
    Attempt.result (chain.report context) state runs

theorem starts_eq {left : Nat}
    (h : Stops (fun outcome => outcome.code = .error) (chain.run context) state (left + 1) runs) :
    chain.starts context left state =
      (List.range runs).map (Attempt.start (chain.run context) state) := by
  induction left generalizing state runs with
  | zero =>
    rcases h.succ_cases with ⟨rfl, _⟩ | ⟨later, rfl, _, hlater⟩
    · rfl
    · exact absurd (Nat.le_trans hlater.positive hlater.within) (by omega)
  | succ left ih =>
    rcases h.succ_cases with ⟨rfl, hends⟩ | ⟨later, rfl, hfailed, hlater⟩
    · rw [starts_of_ok (hends.resolve_right (by omega))]
      rfl
    · rcases run_cases context chain state with ⟨cause, after, herror⟩ | hok
      · rw [herror] at hlater
        rw [starts_of_error herror, ih hlater, List.range_succ_eq_map, List.map_cons, List.map_map]
        refine congrArg (state :: ·) (List.map_congr_left fun earlier _ => ?_)
        show Attempt.start _ _ _ = Attempt.start (chain.run context) state (earlier + 1)
        rw [Attempt.start, Attempt.start, Function.iterate_succ_apply, herror]
      · exact absurd hfailed hok

theorem retried_of_stops
    (h : Stops (fun outcome => outcome.code = .error) (chain.run context) state
      policy.attempts.toNat runs) : chain.Retried context policy state runs := by
  have hfallible : Stops Failed (chain.fallible context) state policy.attempts.toNat runs :=
    h.congr fun _ _ => failed_toExcept_iff _
  have houtcome : chain.runRetrying context policy state =
      Attempt.result (chain.run context) state runs := by
    show mapAnswer Outcome.ofExcept (retry policy (chain.fallible context) state) = _
    rw [retry_eq hfallible]
    show (Outcome.ofExcept (Outcome.toExcept _), _) = _
    rw [ofExcept_toExcept]
    rfl
  refine ⟨h, houtcome, Reconciliation.retried_of_stops hfallible, ?_, ?_⟩
  · have hpositive := policy.positive
    have hbound : policy.attempts.toNat = policy.attempts.toNat - 1 + 1 := by omega
    rw [hbound] at h
    rw [issuesRetrying, issuesAgain, starts_eq h, List.flatMap_map]
  · have hreport : chain.report context = fun state => mapAnswer Outcome.record (chain.run context state) :=
      funext (chain.report_eq context)
    rw [reportRetrying_eq, houtcome, hreport, Attempt.result_mapAnswer]

end Chain

/-- **Exact retries.**  An operation that is retried is called until it succeeds for the first time, or as
    often as the policy allows; its last call is the answer, and the number of every call fits into the
    word of the bound.  So a chain is run from its start until it does not end in an error, or as often as
    the policy allows, each time on what the run before left, and comes to what its last run comes to.
    With a single attempt this is its run. -/
theorem retry_exact {α ε σ τ : Type} (policy : RetryPolicy) (operation : σ → Except ε α × σ)
    (state : σ) (context : Context τ) (chain : Chain τ) (start : τ) :
    (∃ calls, Retried policy operation state calls) ∧
    (∃ runs, chain.Retried context policy start runs) ∧
    chain.runRetrying context ⟨1, by decide⟩ start = chain.run context start ∧
    chain.issuesRetrying context ⟨1, by decide⟩ start = chain.issues context start := by
  obtain ⟨calls, hcalls⟩ := Stops.exists_last Failed operation state policy.positive
  obtain ⟨runs, hruns⟩ := Stops.exists_last (fun outcome : Outcome => outcome.code = .error)
    (chain.run context) start policy.positive
  refine ⟨⟨calls, retried_of_stops hcalls⟩, ⟨runs, Chain.retried_of_stops hruns⟩, ?_, ?_⟩
  · rw [Chain.runRetrying_eq]
    exact (Chain.again_zero context chain start).1
  · exact (Chain.again_zero context chain start).2

/-- The second failure is passed over, and the third call is the last. -/
example : retry .standard (noted fun n : Nat => (if n < 2 then .error n else .ok n, n + 1)) ([], 0) =
    (.ok 2, [0, 1, 2], 3) := by
  rfl

end Reconciliation
