import Mathlib.Data.List.Induction
import Reconciliation.Proofs.Engine.Script
import Reconciliation.Proofs.Memory.Run

namespace Reconciliation

/-!
# A store that clients and others use

* `Move` — a client makes its next call, or somebody else does something to the store;
* `Commons`, `Commons.run` — a store in memory with the calls that its clients have made, and its run
  along any list of moves;
* `Commons.ahead` — what a client has still to do, as a script;
* `Commons.advance_client`, `Commons.ahead_record_self` — what the move of a client does, by what it
  has still to do;
* `Commons.stages_record` — where all clients are after it;
* `Commons.run_alone` — a client that makes its calls alone does what its run does;
* `Commons.invariant_run` — what every allowed move keeps holds after a run.

The calls take effect one after the other.  So a list of moves is a way in which the clients and all
others are interleaved, and a statement about every list is one about every interleaving.
-/

/-- One move of a run. -/
inductive Move (ι : Type) where
  /-- A client makes its next call, unless it has ended. -/
  | client (i : ι) (stamp : Stamp)
  /-- Somebody else uses or prepares the store. -/
  | other (event : Memory.Event)

/-- A store in memory, and the calls that its clients have made. -/
structure Commons (ι : Type) where
  memory : Memory
  /-- The calls in order, each with its client and its answer. -/
  journal : List (ι × Store.Call × Store.Answer)

namespace Commons

variable {ι : Type}

/-- Nobody has made a call yet. -/
def start (m : Memory) : Commons ι := ⟨m, []⟩

/-- The call of a client is noted with what it came to. -/
def record (s : Commons ι) (i : ι) (call : Store.Call) (result : Store.Answer × Memory) : Commons ι :=
  ⟨result.2, s.journal ++ [(i, call, result.1)]⟩

variable [DecidableEq ι]

/-- What a client has heard. -/
def heard (s : Commons ι) (i : ι) : List Store.Answer :=
  (s.journal.filter fun entry => entry.1 = i).map fun entry => entry.2.2

variable (clients : ι → Client)

/-- Makes a move. -/
def advance (s : Commons ι) : Move ι → Commons ι
  | .client i stamp =>
    match (clients i).turn (s.heard i) with
    | .ends _ => s
    | .asks call => s.record i call (Memory.step (.call stamp call) s.memory)
  | .other event => { s with memory := (Memory.step event s.memory).2 }

/-- Makes some moves, one after the other. -/
def run (m : Memory) (schedule : List (Move ι)) : Commons ι :=
  schedule.foldl (advance clients) (start m)

theorem run_concat (m : Memory) (schedule : List (Move ι)) (move : Move ι) :
    run clients m (schedule ++ [move]) = (run clients m schedule).advance clients move := by
  rw [run, List.foldl_append]
  rfl

/-! ### What a client has heard -/

theorem heard_record_self (s : Commons ι) (i : ι) (call : Store.Call)
    (result : Store.Answer × Memory) :
    (s.record i call result).heard i = s.heard i ++ [result.1] := by
  simp [heard, record]

theorem heard_record_of_ne (s : Commons ι) {i j : ι} (h : j ≠ i) (call : Store.Call)
    (result : Store.Answer × Memory) : (s.record i call result).heard j = s.heard j := by
  simp [heard, record, Ne.symm h]

omit [DecidableEq ι] in
/-- One more call is counted if it is of the kind that is counted. -/
theorem countP_record (counts : ι × Store.Call × Store.Answer → Bool) (s : Commons ι) (i : ι)
    (call : Store.Call) (result : Store.Answer × Memory) :
    (s.record i call result).journal.countP counts =
      s.journal.countP counts + (counts (i, call, result.1)).toNat := by
  rw [record, List.countP_append]
  cases h : counts (i, call, result.1) <;> simp [h]

/-! ### What a client has still to do -/

variable (attempts : ι → Script)

/-- What a client has still to do, by what each attempt of it does. -/
def ahead (s : Commons ι) (i : ι) : Script :=
  ((clients i).script (attempts i)).after (s.heard i)

variable {clients attempts} {s : Commons ι} {i : ι}

/-- What a client does next is what it has still to do. -/
theorem turn_eq (attempted : ∀ i, (clients i).Attempts (attempts i)) (s : Commons ι) (i : ι) :
    (clients i).turn (s.heard i) = (s.ahead clients attempts i).turn :=
  Client.turn_eq (attempted i) (s.heard i)

/-- The move of a client is its next call, if it has one. -/
theorem advance_client (attempted : ∀ i, (clients i).Attempts (attempts i)) (s : Commons ι) (i : ι)
    (stamp : Stamp) :
    s.advance clients (.client i stamp) =
      match s.ahead clients attempts i with
      | .ends _ => s
      | .asks call _ => s.record i call (Memory.step (.call stamp call) s.memory) := by
  rw [advance, turn_eq attempted]
  cases s.ahead clients attempts i <;> rfl

/-- What the store answers to a call is heard as it is. -/
theorem heardAs_step (stamp : Stamp) (call : Store.Call) (m : Memory) :
    Dialogue.heardAs call (Memory.step (.call stamp call) m).1 =
      (Memory.step (.call stamp call) m).1 :=
  Dialogue.heardAs_perform (Memory.store stamp) call m

/-- The client goes on with the answer of the store. -/
theorem ahead_record_self {call : Store.Call} {next : Store.Answer → Script}
    (h : s.ahead clients attempts i = .asks call next) (stamp : Stamp) :
    (s.record i call (Memory.step (.call stamp call) s.memory)).ahead clients attempts i =
      next (Memory.step (.call stamp call) s.memory).1 := by
  rw [ahead, heard_record_self, Script.after_concat]
  rw [ahead] at h
  rw [h]
  exact congrArg next (heardAs_step stamp call s.memory)

/-- All others stay where they are. -/
theorem ahead_record_of_ne {j : ι} (h : j ≠ i) (call : Store.Call) (result : Store.Answer × Memory) :
    (s.record i call result).ahead clients attempts j = s.ahead clients attempts j := by
  rw [ahead, heard_record_of_ne s h, ahead]

/-- What a client has still to do changes by its own moves only. -/
theorem ahead_advance_of_ne (s : Commons ι) {i : ι} {move : Move ι}
    (h : ∀ stamp, move ≠ .client i stamp) :
    (s.advance clients move).ahead clients attempts i = s.ahead clients attempts i := by
  cases move with
  | other event => rfl
  | client j stamp =>
    have hne : i ≠ j := fun heq => h stamp (by rw [heq])
    rw [advance]
    split
    · rfl
    · exact ahead_record_of_ne hne _ _

/-- Where the clients are after a call, by their calls and what they have still to do: one has gone on
    with its answer, and all others stay. -/
theorem stages_record (stage : ι → Nat → Script → Prop) (call : Store.Call)
    {next : Store.Answer → Script} (h : s.ahead clients attempts i = .asks call next) (stamp : Stamp)
    (self : stage i ((s.heard i).length + 1) (next (Memory.step (.call stamp call) s.memory).1))
    (others : ∀ j, j ≠ i → stage j (s.heard j).length (s.ahead clients attempts j)) (j : ι) :
    let after := s.record i call (Memory.step (.call stamp call) s.memory)
    stage j (after.heard j).length (after.ahead clients attempts j) := by
  intro after
  by_cases hj : j = i
  · subst hj
    rw [ahead_record_self h, heard_record_self, List.length_append, List.length_singleton]
    exact self
  · rw [ahead_record_of_ne hj, heard_record_of_ne s hj]
    exact others j hj

/-! ### Runs -/

/-- **Run.** A client that has still to do what a script says, and makes its calls alone, comes to what
    the script comes to. -/
theorem foldl_advance_alone (attempted : ∀ i, (clients i).Attempts (attempts i)) (i : ι)
    (stamp : Stamp) (script : Script) (s : Commons ι) (h : s.ahead clients attempts i = script) :
    ∃ calls, ∀ more, calls ≤ more →
      let after := (List.replicate more (Move.client i stamp)).foldl (advance clients) s
      after.ahead clients attempts i = .ends (script.exec (Memory.store stamp) s.memory).1 ∧
        after.memory = (script.exec (Memory.store stamp) s.memory).2 := by
  induction script generalizing s with
  | ends outcome =>
    refine ⟨0, fun more _ => ?_⟩
    induction more with
    | zero => exact ⟨h, rfl⟩
    | succ more ih =>
      rw [List.replicate_succ, List.foldl_cons, advance_client attempted, h]
      exact ih (Nat.zero_le _)
  | asks call next ih =>
    obtain ⟨calls, hcalls⟩ := ih _ (s.record i call (Memory.step (.call stamp call) s.memory))
      (ahead_record_self h stamp)
    refine ⟨calls + 1, fun more hmore => ?_⟩
    obtain ⟨fewer, rfl⟩ : ∃ fewer, more = fewer + 1 := ⟨more - 1, by omega⟩
    rw [List.replicate_succ, List.foldl_cons, advance_client attempted, h]
    exact hcalls fewer (by omega)

/-- A client that makes its calls alone comes to what its run comes to, and leaves the store as the
    run leaves it. -/
theorem run_alone (attempted : ∀ i, (clients i).Attempts (attempts i)) (m : Memory) (i : ι)
    (stamp : Stamp) :
    let result := (clients i).run (Memory.store stamp) m
    ∃ calls, ∀ more, calls ≤ more →
      let s := run clients m (List.replicate more (.client i stamp))
      (clients i).turn (s.heard i) = .ends result.1 ∧ s.memory = result.2 := by
  obtain ⟨calls, hcalls⟩ :=
    foldl_advance_alone attempted i stamp ((clients i).script (attempts i)) (start m) rfl
  refine ⟨calls, fun more hmore => ?_⟩
  obtain ⟨hahead, hmemory⟩ := hcalls more hmore
  refine ⟨?_, ?_⟩
  · rw [turn_eq attempted, Client.run_eq (attempted i)]
    exact congrArg Script.turn hahead
  · rw [Client.run_eq (attempted i)]
    exact hmemory

/-- **Run.** What holds at some moment, and is kept by every allowed move, holds after all moves that
    follow, if each of them is allowed when it is made. -/
theorem invariant_run {P : Commons ι → Prop} (Allowed : Commons ι → Move ι → Prop) {m : Memory}
    (earlier : List (Move ι)) {later : List (Move ι)} (base : P (run clients m earlier))
    (step : ∀ s move, P s → Allowed s move → P (s.advance clients move))
    (allowed : ∀ middle move rest, later = middle ++ move :: rest →
      Allowed (run clients m (earlier ++ middle)) move) :
    P (run clients m (earlier ++ later)) := by
  induction later using List.reverseRecOn with
  | nil =>
    rw [List.append_nil]
    exact base
  | append_singleton later move ih =>
    rw [← List.append_assoc, run_concat]
    refine step _ _ (ih fun middle other rest h => ?_) (allowed later move [] rfl)
    -- The moves before the last one were allowed, too.
    exact allowed middle other (rest ++ [move]) (by rw [h, List.append_assoc, List.cons_append])

end Commons

end Reconciliation
