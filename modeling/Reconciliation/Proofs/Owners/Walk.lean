import Reconciliation.Ownership
import Reconciliation.Proofs.Fallible

namespace Reconciliation

/-!
# The walk to the topmost controller

* `OwnerReference.mark`, `Owners.Distinct` — what a walk tells references apart by, and references that differ
  in it;
* `Owners.position?`, `Owners.reference?` — where a walk without a limit stands after some steps;
* `Owners.Reaches` — a walk that has come some steps far and has met no kind and name again;
* `Owners.Ends` — the four ways in which a walk with a limit ends;
* `Owners.exists_ends`, `Owners.Ends.root_eq` — every walk ends in one of them, and whatever it ends with
  is the answer.

The walk without a limit goes from reference to reference by look-ups alone.  It keeps no list of what it
has met and counts no steps, so that it can say what the answers are about.
-/

variable {σ : Type}

/-- What a walk tells references apart by: kind and name. -/
def OwnerReference.mark (reference : OwnerReference) : String × Name :=
  (reference.kind, reference.name)

namespace Owners

/-- Up to the `n`-th, no two references in a line have the same kind and name. -/
def Distinct (line : Nat → Option OwnerReference) (n : Nat) : Prop :=
  ∀ i j, i < j → j ≤ n → ∀ a b, line i = some a → line j = some b → a.mark ≠ b.mark

namespace Distinct

variable {line : Nat → Option OwnerReference} {n m : Nat}

theorem mono (h : Distinct line n) (hle : m ≤ n) : Distinct line m :=
  fun i j hij hj => h i j hij (Nat.le_trans hj hle)

/-- One more reference is told apart from all before it. -/
theorem succ {next : OwnerReference} (h : Distinct line n) (hnext : line (n + 1) = some next)
    (hnew : ∀ i ≤ n, ∀ a, line i = some a → a.mark ≠ next.mark) : Distinct line (n + 1) := by
  intro i j hij hj a b ha hb
  rcases Nat.lt_or_eq_of_le hj with hlt | rfl
  · exact h i j hij (Nat.lt_succ_iff.mp hlt) a b ha hb
  · obtain rfl : next = b := Option.some.inj (hnext.symm.trans hb)
    exact hnew i (Nat.lt_succ_iff.mp hij) a ha

/-- References that are told apart have one place only. -/
theorem eq_of_mark_eq {i j : Nat} {a b : OwnerReference} (h : Distinct line n) (hi : i ≤ n)
    (hj : j ≤ n) (ha : line i = some a) (hb : line j = some b) (hmark : a.mark = b.mark) : i = j := by
  rcases Nat.lt_trichotomy i j with hlt | heq | hgt
  · exact absurd hmark (h i j hlt hj a b ha hb)
  · exact heq
  · exact absurd hmark.symm (h j i hgt hi b a hb ha)

end Distinct

variable (owners : Owners σ) (object : Object) (state : σ)

/-! ### The walk without a limit -/

/-- Where a walk stands: at a reference that it is about to follow, in some state. -/
structure Position (σ : Type) where
  reference : OwnerReference
  state : σ

/-- The next position: at the controller of the object that the reference points at, if there are an
    object and a controller. -/
def ahead? (scope : Option Namespace) (position : Position σ) : Option (Position σ) :=
  match owners.find scope position.reference position.state with
  | (.ok (some next), state) => some ⟨next, state⟩
  | (.ok none, _) | (.error _, _) => none

/-- Where the walk from an object stands after `n` steps, if it comes so far. -/
def position? : Nat → Option (Position σ)
  | 0 => object.controller?.map fun first => ⟨first, state⟩
  | n + 1 => (position? n).bind (owners.ahead? object.key.scope)

/-- The reference at which the walk from an object stands after `n` steps. -/
def reference? (n : Nat) : Option OwnerReference :=
  (owners.position? object state n).map (·.reference)

/-- The kinds and names that the walk has met after `n` steps, the latest first. -/
def marks (n : Nat) : List (String × Name) :=
  (((List.range (n + 1)).filterMap (owners.reference? object state)).map (·.mark)).reverse

variable {owners object state} {n : Nat} {position : Position σ}

theorem reference?_of_position? (h : owners.position? object state n = some position) :
    owners.reference? object state n = some position.reference := by
  rw [reference?, h, Option.map_some]

/-- A look-up that finds a controller leads on. -/
theorem position?_succ {next : OwnerReference} {after : σ}
    (h : owners.position? object state n = some position)
    (found : owners.find object.key.scope position.reference position.state =
      (.ok (some next), after)) :
    owners.position? object state (n + 1) = some ⟨next, after⟩ := by
  rw [position?, h, Option.bind_some, ahead?, found]

/-- Whoever stands somewhere after a step stood at a reference that has led there. -/
theorem exists_of_position?_succ (h : owners.position? object state (n + 1) = some position) :
    ∃ before, owners.position? object state n = some before ∧
      owners.find object.key.scope before.reference before.state =
        (.ok (some position.reference), position.state) := by
  rw [position?] at h
  obtain ⟨before, hbefore, hahead⟩ := Option.bind_eq_some_iff.mp h
  refine ⟨before, hbefore, ?_⟩
  unfold ahead? at hahead
  split at hahead
  · rename_i hfind
    cases hahead
    exact hfind
  · cases hahead
  · cases hahead

/-- Whoever stands somewhere after some steps stood somewhere after fewer. -/
theorem exists_position?_of_le {i : Nat} (h : owners.position? object state n = some position)
    (hle : i ≤ n) : ∃ before, owners.position? object state i = some before := by
  obtain ⟨more, rfl⟩ := Nat.exists_eq_add_of_le hle
  induction more generalizing position with
  | zero => exact ⟨position, h⟩
  | succ more ih =>
    obtain ⟨before, hbefore, _⟩ := exists_of_position?_succ h
    exact ih hbefore (Nat.le_add_right i more)

/-- Every reference before the last has led on. -/
theorem exists_find_of_lt {i : Nat} {reference : OwnerReference}
    (h : owners.position? object state n = some position) (hlt : i < n)
    (hi : owners.reference? object state i = some reference) :
    ∃ before next after,
      owners.find object.key.scope reference before = (.ok (some next), after) := by
  obtain ⟨_, hnext⟩ := exists_position?_of_le h (Nat.succ_le_of_lt hlt)
  obtain ⟨before, hbefore, hfind⟩ := exists_of_position?_succ hnext
  obtain rfl : before.reference = reference :=
    Option.some.inj ((reference?_of_position? hbefore).symm.trans hi)
  exact ⟨_, _, _, hfind⟩

/-- Where a look-up finds no controller, the walk goes no further. -/
theorem position?_succ_eq_none (h : owners.position? object state n = some position)
    (stops : ∀ next, (owners.find object.key.scope position.reference position.state).1 ≠
      .ok (some next)) :
    owners.position? object state (n + 1) = none := by
  rw [Option.eq_none_iff_forall_ne_some]
  intro after hafter
  obtain ⟨before, hbefore, hfind⟩ := exists_of_position?_succ hafter
  obtain rfl : position = before := Option.some.inj (h.symm.trans hbefore)
  exact stops after.reference (congrArg Prod.fst hfind)

theorem mem_marks {mark : String × Name} : mark ∈ owners.marks object state n ↔
    ∃ i ≤ n, ∃ reference, owners.reference? object state i = some reference ∧
      reference.mark = mark := by
  simp only [marks, List.mem_reverse, List.mem_map, List.mem_filterMap, List.mem_range,
    Nat.lt_succ_iff]
  constructor
  · rintro ⟨reference, ⟨i, hi, hreference⟩, hmark⟩
    exact ⟨i, hi, reference, hreference, hmark⟩
  · rintro ⟨i, hi, reference, hreference, hmark⟩
    exact ⟨reference, ⟨i, hi, hreference⟩, hmark⟩

theorem marks_succ {next : OwnerReference}
    (h : owners.reference? object state (n + 1) = some next) :
    owners.marks object state (n + 1) = next.mark :: owners.marks object state n := by
  rw [marks, List.range_succ, List.filterMap_append]
  simp [marks, h]

/-! ### The walk with a limit -/

/-- The walk has come `n` steps far, and has met no kind and name again. -/
structure Reaches (owners : Owners σ) (object : Object) (state : σ) (n : Nat)
    (position : Position σ) : Prop where
  stands : owners.position? object state n = some position
  fresh : Distinct (owners.reference? object state) n

namespace Reaches

theorem first {reference : OwnerReference} (h : object.controller? = some reference) :
    Reaches owners object state 0 ⟨reference, state⟩ := by
  refine ⟨?_, fun i j hij hj => absurd hij (by omega)⟩
  rw [position?, h, Option.map_some]

/-- **Step.**  A look-up leads on to a reference whose kind and name are new. -/
theorem succ {next : OwnerReference} {after : σ} (h : Reaches owners object state n position)
    (found : owners.find object.key.scope position.reference position.state =
      (.ok (some next), after))
    (hnew : next.mark ∉ owners.marks object state n) :
    Reaches owners object state (n + 1) ⟨next, after⟩ := by
  have hstands := position?_succ h.stands found
  refine ⟨hstands, h.fresh.succ (reference?_of_position? hstands) fun i hi a ha hmark => ?_⟩
  exact hnew (mem_marks.mpr ⟨i, hi, a, ha, hmark⟩)

/-- **Run.**  The walk with a limit gets as far as the walk without one, as long as it meets no kind and
    name again. -/
theorem root_eq (h : Reaches owners object state n position) (left : Nat) :
    owners.root object (n + left) state =
      owners.walk object.key (n + left) (owners.marks object state n) left position.reference
        position.state := by
  induction n generalizing left position with
  | zero =>
    obtain ⟨first, hfirst, rfl⟩ := Option.map_eq_some_iff.mp h.stands
    have hmarks : owners.marks object state 0 = [first.mark] := by
      simp [marks, reference?_of_position? h.stands]
    rw [root, hfirst, hmarks, Nat.zero_add]
    rfl
  | succ n ih =>
    obtain ⟨before, hbefore, hfind⟩ := exists_of_position?_succ h.stands
    have hreference := reference?_of_position? h.stands
    have hnew : (owners.marks object state n).contains position.reference.mark = false := by
      rw [← Bool.not_eq_true, List.contains_iff_mem, mem_marks]
      rintro ⟨i, hi, reference, hi', hmark⟩
      exact h.fresh i (n + 1) (Nat.lt_succ_iff.mpr hi) (Nat.le_refl _) _ _ hi' hreference hmark
    have hbefore := ih ⟨hbefore, h.fresh.mono (Nat.le_succ n)⟩ (left + 1)
    rw [show n + (left + 1) = n + 1 + left by omega] at hbefore
    rw [hbefore, walk, hfind, marks_succ hreference]
    dsimp only
    rw [← OwnerReference.mark, hnew]
    rfl

end Reaches

/-- How a walk that may take `depth` steps ends after `n` of them. -/
inductive Ends (owners : Owners σ) (object : Object) (state : σ) (depth : Nat) :
    Nat → Except EngineError (Option OwnerReference) × σ → Prop
  /-- The object that the reference points at has no controller. -/
  | top {n : Nat} {position : Position σ} {after : σ}
      (reaches : Reaches owners object state n position) (within : n < depth)
      (found : owners.find object.key.scope position.reference position.state =
        (.ok none, after)) :
      Ends owners object state depth n (.ok (some position.reference), after)
  /-- The look-up fails. -/
  | failure {n : Nat} {position : Position σ} {after : σ} {error : EngineError}
      (reaches : Reaches owners object state n position) (within : n < depth)
      (found : owners.find object.key.scope position.reference position.state =
        (.error error, after)) :
      Ends owners object state depth n (.error error, after)
  /-- The controller has the kind and the name of a reference before it. -/
  | recurrence {n : Nat} {position : Position σ} {after : σ} {next : OwnerReference}
      (reaches : Reaches owners object state n position) (within : n < depth)
      (found : owners.find object.key.scope position.reference position.state =
        (.ok (some next), after))
      (met : next.mark ∈ owners.marks object state n) :
      Ends owners object state depth n (.error (.ownerCycle object.key.display), after)
  /-- All steps are taken. -/
  | limit {position : Position σ} (reaches : Reaches owners object state depth position) :
      Ends owners object state depth depth
        (.error (.ownerDepthExceeded object.key.display depth), position.state)

variable {depth : Nat} {result : Except EngineError (Option OwnerReference) × σ}

/-- Whatever a walk ends with is the answer. -/
theorem Ends.root_eq (h : Ends owners object state depth n result) :
    owners.root object depth state = result := by
  cases h with
  | top reaches within found =>
    obtain ⟨left, rfl⟩ := Nat.exists_eq_add_of_lt within
    rw [Nat.add_assoc, reaches.root_eq, walk, found]
  | failure reaches within found =>
    obtain ⟨left, rfl⟩ := Nat.exists_eq_add_of_lt within
    rw [Nat.add_assoc, reaches.root_eq, walk, found]
  | recurrence reaches within found met =>
    obtain ⟨left, rfl⟩ := Nat.exists_eq_add_of_lt within
    rw [Nat.add_assoc, reaches.root_eq, walk, found]
    dsimp only
    rw [← OwnerReference.mark, if_pos (List.contains_iff_mem.mpr met)]
  | limit reaches => exact reaches.root_eq 0

/-- A walk that has come `n` steps far ends there or later. -/
theorem Reaches.exists_ends (h : Reaches owners object state n position) (hle : n ≤ depth) :
    ∃ m result, Ends owners object state depth m result := by
  obtain ⟨left, rfl⟩ := Nat.exists_eq_add_of_le hle
  induction left generalizing n position with
  | zero => exact ⟨n, _, .limit h⟩
  | succ left ih =>
    rcases hfind : owners.find object.key.scope position.reference position.state with
      ⟨error | found, after⟩
    · exact ⟨n, _, .failure h (by omega) hfind⟩
    · cases found with
      | none => exact ⟨n, _, .top h (by omega) hfind⟩
      | some next =>
        by_cases hmet : next.mark ∈ owners.marks object state n
        · exact ⟨n, _, .recurrence h (by omega) hfind hmet⟩
        · have hnext := ih (h.succ hfind hmet) (by omega)
          rwa [show n + 1 + left = n + (left + 1) by omega] at hnext

/-- Every walk from an object that has a controller ends in one of the four ways. -/
theorem exists_ends (owners : Owners σ) (state : σ) {first : OwnerReference}
    (h : object.controller? = some first) (depth : Nat) :
    ∃ n result, Ends owners object state depth n result :=
  (Reaches.first h).exists_ends (Nat.zero_le depth)

theorem root_of_none (h : object.controller? = none) (depth : Nat) :
    owners.root object depth state = (.ok none, state) := by
  rw [root, h]

/-- A walk that comes to a kind and a name again within its limit is said to loop. -/
theorem Ends.eq_cycle {m : Nat} (h : Ends owners object state depth m result)
    (stands : owners.position? object state n = some position) (hle : n ≤ depth)
    (repeats : ¬ Distinct (owners.reference? object state) n) :
    result.1 = .error (.ownerCycle object.key.display) := by
  -- A walk that stops for another reason has not got as far as to the repetition.
  have hfar : ∀ {last : Position σ}, Reaches owners object state m last →
      (∀ next, (owners.find object.key.scope last.reference last.state).1 ≠ .ok (some next)) →
      False := by
    intro last reaches stops
    rcases Nat.lt_or_ge m n with hlt | hge
    · obtain ⟨before, hbefore⟩ := exists_position?_of_le stands (Nat.succ_le_of_lt hlt)
      rw [position?_succ_eq_none reaches.stands stops] at hbefore
      cases hbefore
    · exact repeats (reaches.fresh.mono hge)
  cases h with
  | top reaches within found => exact (hfar reaches (by simp [found])).elim
  | failure reaches within found => exact (hfar reaches (by simp [found])).elim
  | recurrence reaches within found met => rfl
  | limit reaches => exact absurd (reaches.fresh.mono hle) repeats

/-- A type that cannot be told is a mapping error. -/
theorem typeOf_eq_error {reference : OwnerReference} {error : EngineError}
    (h : owners.typeOf reference = .error error) : ∃ source, error = .mapping source := by
  unfold typeOf at h
  cases hgvk : reference.gvk with
  | error problem =>
    rw [hgvk] at h
    cases h
    exact ⟨_, rfl⟩
  | ok gvk =>
    rw [hgvk] at h
    obtain ⟨source, _, hsource⟩ := mapError_eq_error.mp h
    exact ⟨source, hsource.symm⟩

/-- A look-up fails because of a type or because of the call of the store. -/
theorem find_eq_error {scope : Option Namespace} {reference : OwnerReference} {error : EngineError}
    {after : σ} (h : owners.find scope reference state = (.error error, after)) :
    (∃ source, error = .mapping source) ∨ ∃ target source, error = .store .get target source := by
  unfold find at h
  split at h
  · rename_i cause htype
    cases h
    exact .inl (typeOf_eq_error htype)
  · dsimp only at h
    split at h
    · cases h
    · cases h
      exact .inr ⟨_, _, rfl⟩

end Owners

end Reconciliation
