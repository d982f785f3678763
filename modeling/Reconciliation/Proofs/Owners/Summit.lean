import Reconciliation.Proofs.Owners.Walk
import Reconciliation.Proofs.Store.Reading

namespace Reconciliation

/-!
# The topmost controller

* `Owners.line` — the references above an object, in a state that does not change;
* `Owners.reference?_eq_line` — a walk through such a state meets just these;
* `Owners.Ends.of_le` — a walk that has ended before its limit ends alike with any higher limit;
* `Owners.logged`, `Owners.exists_root_logged` — what a walk asks of the store;
* `Owners.ascent_of_unchanging` — which answers the walk with a limit gives.
-/

variable {σ : Type}

namespace Owners

variable {owners : Owners σ} {object : Object} {state : σ} {depth n : Nat}

/-! ### In a state that does not change -/

/-- The references above an object: the one to its controller, and then always the one to the controller
    of the object that the reference before points at. -/
def line (owners : Owners σ) (object : Object) (state : σ) : Nat → Option OwnerReference
  | 0 => object.controller?
  | n + 1 => (owners.line object state n).bind fun reference =>
    match (owners.find object.key.scope reference state).1 with
    | .ok above => above
    | .error _ => none

section

variable {later : σ}

/-- Look-ups lead to states to which gets lead. -/
theorem read_find (scope : Option Namespace) (reference : OwnerReference)
    (h : owners.store.Read state later) :
    owners.store.Read state (owners.find scope reference later).2 := by
  unfold find
  split
  · exact h
  · rename_i type htype
    have hget := h.get type (keyOf type scope reference)
    dsimp only
    split
    · rename_i hanswer
      rwa [hanswer] at hget
    · rename_i hanswer
      rwa [hanswer] at hget

variable (unchanging : owners.store.Unchanging state)
include unchanging

/-- A look-up finds what it would have found at first. -/
theorem find_of_unchanging (scope : Option Namespace) (reference : OwnerReference)
    (h : owners.store.Read state later) :
    (owners.find scope reference later).1 = (owners.find scope reference state).1 := by
  unfold find
  split
  · rfl
  · rename_i type htype
    have hget := unchanging later h type (keyOf type scope reference)
    dsimp only
    rcases hlater : owners.store.get type (keyOf type scope reference) later with ⟨answer, after⟩
    rcases hstate : owners.store.get type (keyOf type scope reference) state with ⟨other, before⟩
    rw [hlater, hstate] at hget
    obtain rfl : answer = other := hget
    cases answer <;> rfl

/-- **Step.**  The walk keeps to states to which gets lead, and to the line. -/
theorem position?_of_unchanging (object : Object) (n : Nat) :
    (owners.position? object state n).map (·.reference) = owners.line object state n ∧
      ∀ position, owners.position? object state n = some position →
        owners.store.Read state position.state := by
  induction n with
  | zero =>
    rw [position?, line, Option.map_map]
    refine ⟨Option.map_id' .., fun position h => ?_⟩
    obtain ⟨first, _, rfl⟩ := Option.map_eq_some_iff.mp h
    exact .refl
  | succ n ih =>
    obtain ⟨hline, hread⟩ := ih
    rw [position?, line, ← hline]
    cases hposition : owners.position? object state n with
    | none => exact ⟨rfl, fun _ h => by cases h⟩
    | some position =>
      have hfind := find_of_unchanging unchanging object.key.scope position.reference
        (hread position hposition)
      have hleads := read_find object.key.scope position.reference (hread position hposition)
      simp only [Option.bind_some, Option.map_some, ← hfind, ahead?]
      rcases hfound : owners.find object.key.scope position.reference position.state with
        ⟨error | above | next, after⟩
      · exact ⟨rfl, fun _ h => by cases h⟩
      · exact ⟨rfl, fun _ h => by cases h⟩
      · refine ⟨rfl, fun _ h => ?_⟩
        cases h
        rwa [hfound] at hleads

/-- A walk meets the references of the line. -/
theorem reference?_eq_line : owners.reference? object state = owners.line object state :=
  funext fun n => (position?_of_unchanging unchanging object n).1

/-- At a reference of the line, a walk finds what is found from the first state. -/
theorem exists_position_of_line {reference : OwnerReference}
    (h : owners.line object state n = some reference) :
    ∃ position, owners.position? object state n = some position ∧ position.reference = reference ∧
      (owners.find object.key.scope position.reference position.state).1 =
        (owners.find object.key.scope reference state).1 := by
  obtain ⟨hline, hread⟩ := position?_of_unchanging unchanging object n
  obtain ⟨position, hposition, rfl⟩ := Option.map_eq_some_iff.mp (hline.trans h)
  exact ⟨position, hposition, rfl, find_of_unchanging unchanging _ _ (hread position hposition)⟩

end

/-! ### Higher limits -/

/-- A walk that has not taken all its steps ends alike with a higher limit. -/
theorem Ends.of_le {result : Except EngineError (Option OwnerReference) × σ} {more : Nat}
    (h : Ends owners object state depth n result) (hle : depth ≤ more) :
    Ends owners object state more n result ∨
      result.1 = .error (.ownerDepthExceeded object.key.display depth) := by
  cases h with
  | top reaches within found => exact .inl (.top reaches (Nat.lt_of_lt_of_le within hle) found)
  | failure reaches within found =>
    exact .inl (.failure reaches (Nat.lt_of_lt_of_le within hle) found)
  | recurrence reaches within found met =>
    exact .inl (.recurrence reaches (Nat.lt_of_lt_of_le within hle) found met)
  | limit reaches => exact .inr rfl

/-- A higher limit makes a difference only if the limit was exceeded. -/
theorem root_of_le {more : Nat} (hle : depth ≤ more) :
    (owners.root object more state).1 = (owners.root object depth state).1 ∨
      (owners.root object depth state).1 =
        .error (.ownerDepthExceeded object.key.display depth) := by
  cases hcontroller : object.controller? with
  | none => exact .inl (by rw [root_of_none hcontroller, root_of_none hcontroller])
  | some first =>
    obtain ⟨n, result, hends⟩ := owners.exists_ends state hcontroller depth
    rw [hends.root_eq]
    rcases hends.of_le hle with hmore | hexceeded
    · exact .inl (by rw [hmore.root_eq])
    · exact .inr hexceeded

/-! ### What a walk asks of the store -/

/-- The owners, looked up in a store that notes what it is asked for. -/
def logged (owners : Owners σ) : Owners (List Store.Call × σ) := ⟨owners.resolve, owners.store.logged⟩

/-- What a look-up asks of the store. -/
def asked (owners : Owners σ) (scope : Option Namespace) (reference : OwnerReference) :
    List Store.Call :=
  match owners.typeOf reference with
  | .error _ => []
  | .ok type => [.get type (keyOf type scope reference)]

theorem find_logged (scope : Option Namespace) (reference : OwnerReference) (log : List Store.Call)
    (state : σ) :
    owners.logged.find scope reference (log, state) =
      ((owners.find scope reference state).1, log ++ owners.asked scope reference,
        (owners.find scope reference state).2) := by
  have htype : owners.logged.typeOf reference = owners.typeOf reference := rfl
  rw [find, find, asked, htype]
  cases owners.typeOf reference with
  | error error => simp
  | ok type =>
    simp only [logged, Store.logged, Store.logged.noted]
    rcases owners.store.get type (keyOf type scope reference) state with ⟨error | found, after⟩
    · rfl
    · rfl

/-- A call that reads one object. -/
def IsGet (call : Store.Call) : Prop := ∃ type key, call = .get type key

theorem asked_isGet (owners : Owners σ) (scope : Option Namespace) (reference : OwnerReference) :
    (owners.asked scope reference).length ≤ 1 ∧
      ∀ call ∈ owners.asked scope reference, IsGet call := by
  unfold asked
  split
  · exact ⟨Nat.zero_le 1, fun call h => by cases h⟩
  · refine ⟨Nat.le_refl 1, fun call h => ?_⟩
    rw [List.mem_singleton.mp h]
    exact ⟨_, _, rfl⟩

/-- **Run.**  A walk asks for one object in each of its steps, and for nothing else. -/
theorem exists_walk_logged (origin : Key) (depth : Nat) (seen : List (String × Name)) (steps : Nat)
    (reference : OwnerReference) (log : List Store.Call) (state : σ) :
    ∃ calls : List Store.Call, calls.length ≤ steps ∧ (∀ call ∈ calls, IsGet call) ∧
      owners.logged.walk origin depth seen steps reference (log, state) =
        ((owners.walk origin depth seen steps reference state).1, log ++ calls,
          (owners.walk origin depth seen steps reference state).2) := by
  induction steps generalizing seen reference log state with
  | zero => exact ⟨[], by simp [walk]⟩
  | succ steps ih =>
    obtain ⟨hone, hget⟩ := owners.asked_isGet origin.scope reference
    rw [walk, walk, find_logged]
    rcases owners.find origin.scope reference state with ⟨error | above | next, after⟩
    · exact ⟨_, by omega, hget, rfl⟩
    · exact ⟨_, by omega, hget, rfl⟩
    · dsimp only
      split
      · exact ⟨_, by omega, hget, rfl⟩
      · obtain ⟨calls, hlength, hcalls, hwalk⟩ := ih ((next.kind, next.name) :: seen) next
          (log ++ owners.asked origin.scope reference) after
        refine ⟨owners.asked origin.scope reference ++ calls, ?_, ?_, ?_⟩
        · rw [List.length_append]
          omega
        · intro call hcall
          exact (List.mem_append.mp hcall).elim (hget call) (hcalls call)
        · rw [hwalk, List.append_assoc]

/-- A walk with a limit makes no more calls than it may take steps, and reads with each of them. -/
theorem exists_root_logged (object : Object) (depth : Nat) (state : σ) :
    ∃ calls : List Store.Call, calls.length ≤ depth ∧ (∀ call ∈ calls, IsGet call) ∧
      owners.logged.root object depth ([], state) =
        ((owners.root object depth state).1, calls, (owners.root object depth state).2) := by
  unfold root
  split
  · exact ⟨[], by simp⟩
  · exact exists_walk_logged object.key depth _ depth _ [] state

/-! ### The answers -/

/-- An object without a controller has no topmost one, and only such an object. -/
theorem root_eq_ok_none_iff :
    (owners.root object depth state).1 = .ok none ↔ object.controller? = none := by
  constructor
  · intro h
    cases hcontroller : object.controller? with
    | none => rfl
    | some first =>
      obtain ⟨n, result, hends⟩ := owners.exists_ends state hcontroller depth
      rw [hends.root_eq] at h
      cases hends <;> cases h
  · intro h
    rw [root_of_none h]

/-- A walk answers with the reference at which it ends. -/
theorem exists_ends_of_root_eq_ok {top : OwnerReference}
    (h : (owners.root object depth state).1 = .ok (some top)) :
    ∃ n position after, Reaches owners object state n position ∧ n < depth ∧
      position.reference = top ∧
      owners.find object.key.scope position.reference position.state = (.ok none, after) := by
  cases hcontroller : object.controller? with
  | none =>
    rw [root_of_none hcontroller] at h
    cases h
  | some first =>
    obtain ⟨n, result, hends⟩ := owners.exists_ends state hcontroller depth
    rw [hends.root_eq] at h
    cases hends with
    | top reaches within found =>
      cases h
      exact ⟨n, _, _, reaches, within, rfl, found⟩
    | failure reaches within found => cases h
    | recurrence reaches within found met => cases h
    | limit reaches => cases h

section

variable (unchanging : owners.store.Unchanging state)
include unchanging

/-- The answer is a reference of the line, within the limit, to an object without a controller, before
    which no kind and name come again. -/
theorem root_eq_ok_some_iff {top : OwnerReference} :
    (owners.root object depth state).1 = .ok (some top) ↔
      ∃ n < depth, owners.line object state n = some top ∧
        (owners.find object.key.scope top state).1 = .ok none ∧
        Distinct (owners.line object state) n := by
  rw [← reference?_eq_line unchanging]
  constructor
  · intro h
    obtain ⟨n, position, after, reaches, within, rfl, found⟩ := exists_ends_of_root_eq_ok h
    have hreference := reference?_of_position? reaches.stands
    refine ⟨n, within, hreference, ?_, reaches.fresh⟩
    rw [reference?_eq_line unchanging] at hreference
    obtain ⟨other, hother, _, hfind⟩ := exists_position_of_line unchanging hreference
    obtain rfl := Option.some.inj (hother.symm.trans reaches.stands)
    rw [← hfind, found]
  · rintro ⟨n, within, hline, hfind, fresh⟩
    rw [reference?_eq_line unchanging] at hline
    obtain ⟨position, hposition, rfl, hsame⟩ := exists_position_of_line unchanging hline
    have hends : Ends owners object state depth n _ :=
      .top ⟨hposition, fresh⟩ within (Prod.ext (hsame.trans hfind) rfl)
    rw [hends.root_eq]

/-- A line without an end has no top. -/
theorem root_ne_ok_of_endless (endless : ∀ n, ∃ reference, owners.line object state n = some reference)
    (found : Option OwnerReference) : (owners.root object depth state).1 ≠ .ok found := by
  intro h
  cases found with
  | none =>
    obtain ⟨first, hfirst⟩ := endless 0
    rw [line, root_eq_ok_none_iff.mp h] at hfirst
    cases hfirst
  | some top =>
    obtain ⟨n, _, hline, hfind, _⟩ := (root_eq_ok_some_iff unchanging).mp h
    obtain ⟨above, habove⟩ := endless (n + 1)
    rw [line, hline, Option.bind_some, hfind] at habove
    cases habove

/-- A look-up that fails ends the walk, unless a kind and a name that come again have ended it before. -/
theorem root_of_failure {reference : OwnerReference} {error : EngineError} (within : n < depth)
    (hline : owners.line object state n = some reference)
    (hfind : (owners.find object.key.scope reference state).1 = .error error) :
    (owners.root object depth state).1 = .error error ∨
      (¬ Distinct (owners.line object state) n ∧
        (owners.root object depth state).1 = .error (.ownerCycle object.key.display)) := by
  obtain ⟨position, hposition, rfl, hsame⟩ := exists_position_of_line unchanging hline
  rw [← reference?_eq_line unchanging]
  by_cases fresh : Distinct (owners.reference? object state) n
  · left
    have hends : Ends owners object state depth n _ :=
      .failure ⟨hposition, fresh⟩ within (Prod.ext (hsame.trans hfind) rfl)
    rw [hends.root_eq]
  · obtain ⟨before, hbefore⟩ := exists_position?_of_le hposition (Nat.zero_le n)
    obtain ⟨first, hfirst, _⟩ := Option.map_eq_some_iff.mp hbefore
    obtain ⟨m, result, hends⟩ := owners.exists_ends state hfirst depth
    rw [hends.root_eq]
    exact .inr ⟨fresh, hends.eq_cycle hposition (Nat.le_of_lt within) fresh⟩

end

/-- What the walk with a limit answers, in terms of the line of references above the object. -/
structure Ascent (owners : Owners σ) (object : Object) (state : σ) (depth : Nat) : Prop where
  /-- There is no topmost controller of an object that has none, and only of such an object. -/
  unowned : (owners.root object depth state).1 = .ok none ↔ object.controller? = none
  /-- The topmost controller is a reference of the line that can be reached, to an object without a
      controller.  No kind and name may come twice before it. -/
  top : ∀ reference, (owners.root object depth state).1 = .ok (some reference) ↔
    ∃ n < depth, owners.line object state n = some reference ∧
      (owners.find object.key.scope reference state).1 = .ok none ∧
      Distinct (owners.line object state) n
  /-- A line without an end has no top. -/
  endless : (∀ n, ∃ reference, owners.line object state n = some reference) →
    ∀ found, (owners.root object depth state).1 ≠ .ok found
  /-- The failure of a look-up is handed on, unless a kind and a name come twice before it. -/
  failure : ∀ n < depth, ∀ reference error, owners.line object state n = some reference →
    (owners.find object.key.scope reference state).1 = .error error →
    (owners.root object depth state).1 = .error error ∨
      (¬ Distinct (owners.line object state) n ∧
        (owners.root object depth state).1 = .error (.ownerCycle object.key.display))
  /-- The store is asked for one object in each step, and for nothing else. -/
  calls : ∃ calls : List Store.Call, calls.length ≤ depth ∧ (∀ call ∈ calls, IsGet call) ∧
    owners.logged.root object depth ([], state) =
      ((owners.root object depth state).1, calls, (owners.root object depth state).2)
  /-- A higher limit makes a difference only if the limit was exceeded. -/
  higher : ∀ more, depth ≤ more →
    (owners.root object more state).1 = (owners.root object depth state).1 ∨
      (owners.root object depth state).1 =
        .error (.ownerDepthExceeded object.key.display depth)

/-- **The topmost controller.**  In a state that does not change, a walk finds the top of the line above
    the object within its limit, or says why it does not. -/
theorem ascent_of_unchanging (unchanging : owners.store.Unchanging state) (object : Object)
    (depth : Nat) : Ascent owners object state depth where
  unowned := root_eq_ok_none_iff
  top _ := root_eq_ok_some_iff unchanging
  endless := root_ne_ok_of_endless unchanging
  failure _ within _ _ := root_of_failure unchanging within
  calls := exists_root_logged object depth state
  higher _ := root_of_le

end Owners

/-! ### A controller of the whole cluster above one of a namespace -/

namespace Owners.Lineage

/-- A reference to a controller in the namespace of the object. -/
def toSet : OwnerReference := ⟨"apps/v1", "ReplicaSet", ⟨"web"⟩, ⟨""⟩, some true, none⟩

/-- A reference to a controller of the whole cluster. -/
def toTeam : OwnerReference := ⟨"v1", "Namespace", ⟨"team"⟩, ⟨""⟩, some true, none⟩

/-- The object where the walk begins. -/
def pod : Object := (Object.ofKey ⟨"", "v1", "Pod"⟩ (.namespaced "ns" "p")).withOwner toSet

/-- Its controller. -/
def set : Object :=
  (Object.ofKey ⟨"apps", "v1", "ReplicaSet"⟩ (.namespaced "ns" "web")).withOwner toTeam

/-- The controller of the controller. -/
def team : Object := .ofKey ⟨"", "v1", "Namespace"⟩ (.cluster "team")

/-- Owners are looked up in memory. -/
def owners : Owners Memory := ⟨TypeTable.builtin.resolveGvk, Memory.store .verbatim⟩

/-- Both controllers are seeded. -/
def held : Memory := Memory.empty.after [.insert .verbatim set, .insert .verbatim team]

/-- The topmost controller is found with two steps, and so with more.  One step is too few. -/
theorem team_found :
    owners.store.Unchanging held ∧
    (∀ limit, 2 ≤ limit → (owners.root pod limit held).1 = .ok (some toTeam)) ∧
    (owners.root pod 1 held).1 = .error (.ownerDepthExceeded "ns/p" 1) := by
  have unchanging : owners.store.Unchanging held := Memory.unchanging_of_quiet .verbatim rfl
  have distinct : Distinct (owners.line pod held) 1 := by
    intro i j hij hj a b ha hb
    obtain rfl : i = 0 := by omega
    obtain rfl : j = 1 := by omega
    cases ha
    cases hb
    decide
  have htwo : (owners.root pod 2 held).1 = .ok (some toTeam) :=
    ((ascent_of_unchanging unchanging pod 2).top toTeam).mpr ⟨1, by decide, rfl, rfl, distinct⟩
  refine ⟨unchanging, fun limit hlimit => ?_, rfl⟩
  rcases (ascent_of_unchanging unchanging pod 2).higher limit hlimit with hsame | hexceeded
  · rw [hsame, htwo]
  · rw [htwo] at hexceeded
    cases hexceeded

end Owners.Lineage

end Reconciliation
