import Reconciliation.Proofs.Memory.Dependents
import Reconciliation.Proofs.Memory.Injection

namespace Reconciliation

/-!
# Deletions in either order

* `FallsWith` — the slots that a deletion without orphaning empties: that of its target, and those of the
  objects that depend on it;
* `Without` — the objects without those in some slots;
* `fallsWith_left_iff` — what one deletion spares falls with another one after it exactly if it fell before
  it;
* `Memory.Deletion` — a deletion that is not guarded and does not orphan;
* `Memory.without_after`, `Memory.objects_after_perm` — what several deletions leave, one after the other,
  and that their order does not matter;
* `Memory.Commutation`, `Memory.deletions_commute` — what two deletions leave in either order.

The second deletion acts on objects from which the first one has taken some out, and ways that led to its
dependents may be cut.  They are cut only for objects that fell with the first one: whoever refers to an
object that falls falls with it.
-/

/-! ### What falls with an object -/

/-- A slot is emptied when the object in a slot is deleted with its dependents. -/
def FallsWith (objects : Table Slot Object) (slot place : Slot) : Prop :=
  ∃ target, objects.find? slot = some target ∧
    (place = slot ∨ Dependent objects target.metadata.uid.toList place)

/-- The objects that are left are those that are not in certain slots, each as it was. -/
def Without (objects : Table Slot Object) (gone : Slot → Prop) (left : Table Slot Object) : Prop :=
  ∀ place object, left.find? place = some object ↔ objects.find? place = some object ∧ ¬ gone place

namespace FallsWith

variable {objects : Table Slot Object} {slot other place : Slot}

/-- Only an object falls. -/
theorem held (h : FallsWith objects slot place) : ∃ object, objects.find? place = some object := by
  obtain ⟨target, hheld, rfl | dependent⟩ := h
  · exact ⟨target, hheld⟩
  · exact dependent.held

/-- Whoever refers to an object that falls falls with it. -/
theorem of_refersTo (h : FallsWith objects slot other) {between object : Object} {uid : Uid}
    (found : objects.find? other = some between) (identity : between.metadata.uid = some uid)
    (held : objects.find? place = some object) (refers : object.refersTo uid = true) :
    FallsWith objects slot place := by
  obtain ⟨target, htarget, rfl | dependent⟩ := h
  · obtain rfl : target = between := Option.some.inj (htarget.symm.trans found)
    exact ⟨target, htarget, .inr (.direct held (by simp [identity]) refers)⟩
  · exact ⟨target, htarget, .inr (.through dependent found identity held refers)⟩

/-- What falls with an object that falls falls. -/
theorem trans (first : FallsWith objects slot other) (second : FallsWith objects other place) :
    FallsWith objects slot place := by
  obtain ⟨between, found, rfl | dependent⟩ := second
  · exact first
  · induction dependent with
    | direct held waits refers => exact first.of_refersTo found (by simpa using waits) held refers
    | through _ owned identity held refers ih => exact ih.of_refersTo owned identity held refers

/-- An object without owners falls with nothing but itself. -/
theorem eq_of_owners_nil (h : FallsWith objects slot place) {object : Object}
    (held : objects.find? place = some object) (ownerless : object.metadata.owners = []) :
    place = slot := by
  have hrefers {other : Object} (found : objects.find? place = some other) (uid : Uid) :
      other.refersTo uid = false := by
    obtain rfl : object = other := Option.some.inj (held.symm.trans found)
    rw [Object.refersTo, ownerless, List.any_nil]
  obtain ⟨target, _, rfl | dependent⟩ := h
  · rfl
  · cases dependent with
    | direct found _ refers => cases (hrefers found _).symm.trans refers
    | through _ _ _ found refers => cases (hrefers found _).symm.trans refers

end FallsWith

namespace Without

variable {objects left left' : Table Slot Object} {gone gone' : Slot → Prop}

/-- What is left was there. -/
theorem held (h : Without objects gone left) {place : Slot} {object : Object}
    (found : left.find? place = some object) : objects.find? place = some object :=
  ((h place object).mp found).1

/-- The same objects are left exactly if the same ones are gone. -/
theorem eq_iff (h : Without objects gone left) (h' : Without objects gone' left') :
    left = left' ↔
      ∀ place object, objects.find? place = some object → (gone place ↔ gone' place) := by
  constructor
  · rintro rfl place object hheld
    have hsame := (h place object).symm.trans (h' place object)
    rw [and_congr_right_iff, not_iff_not] at hsame
    exact hsame hheld
  · intro hsame
    refine Table.ext_find? fun place => Option.ext fun object => ?_
    rw [h place object, h' place object, and_congr_right_iff]
    exact fun hheld => not_congr (hsame place object hheld)

end Without

/-- What depends on owners among the objects that are left depended on them before. -/
theorem Dependent.of_left {objects left : Table Slot Object} {gone : Slot → Prop}
    (hleft : Without objects gone left) {owners : List Uid} {place : Slot}
    (h : Dependent left owners place) : Dependent objects owners place := by
  induction h with
  | direct held waits refers => exact .direct (hleft.held held) waits refers
  | through _ found identity held refers ih =>
    exact .through ih (hleft.held found) identity (hleft.held held) refers

/-- **The ways that are left.**  What one deletion spares falls with another object afterwards exactly if it
    fell with that object before. -/
theorem fallsWith_left_iff {objects left : Table Slot Object} {first second place : Slot}
    (hleft : Without objects (FallsWith objects first) left)
    (spared : ¬ FallsWith objects first place) :
    FallsWith left second place ↔ FallsWith objects second place := by
  constructor
  · rintro ⟨target, held, hplace⟩
    exact ⟨target, hleft.held held, hplace.imp_right (Dependent.of_left hleft)⟩
  · intro h
    -- With the second target the place would have fallen, too.
    have htarget : ¬ FallsWith objects first second := fun hfalls => spared (hfalls.trans h)
    obtain ⟨target, held, hplace⟩ := h
    refine ⟨target, (hleft second target).mpr ⟨held, htarget⟩, hplace.imp_right fun dependent => ?_⟩
    clear hplace
    -- The induction goes along the way from the target, with the place as its end.
    induction dependent with
    | @direct place object _ found waits refers =>
      exact .direct ((hleft place object).mpr ⟨found, spared⟩) waits refers
    | @through place other object between _ _ owned identity found refers ih =>
      -- The object between has been spared, since this one has been.
      have hother : ¬ FallsWith objects first other :=
        fun hfalls => spared (hfalls.of_refersTo owned identity found refers)
      exact .through (ih hother) ((hleft other between).mpr ⟨owned, hother⟩) identity
        ((hleft place object).mpr ⟨found, spared⟩) refers

namespace Memory

/-! ### One deletion -/

/-- A deletion that is not guarded and does not orphan. -/
structure Deletion where
  stamp : Stamp
  type : ResourceType
  key : Key
  policy : Option PropagationPolicy
  cascades : policy ≠ some .orphan

namespace Deletion

/-- The call. -/
def event (d : Deletion) : Event := .call d.stamp (.delete d.type d.key ⟨none, d.policy⟩)

/-- The slot of the target. -/
def slot (d : Deletion) : Slot := slotAt d.type d.key

end Deletion

/-- With any policy but that of orphaning the dependents are removed. -/
theorem settle_of_cascades {policy : Option PropagationPolicy} (h : policy ≠ some .orphan)
    (target : Object) (objects : Table Slot Object) :
    settle (policy.getD .background) target objects = cascade objects target.metadata.uid.toList := by
  unfold settle
  cases target.metadata.uid with
  | none => rw [Option.toList, cascade]
  | some uid =>
    cases policy with
    | none => rfl
    | some policy =>
      cases policy with
      | foreground | background => rfl
      | orphan => exact absurd rfl h

/-- A cascade from a target leaves what does not fall with it. -/
theorem without_cascade {objects : Table Slot Object} {slot : Slot} {target : Object}
    (held : objects.find? slot = some target) :
    Without objects (FallsWith objects slot)
      (cascade (objects.erase slot) target.metadata.uid.toList) := by
  have hdependent {place : Slot} (hne : place ≠ slot) :
      Dependent (objects.erase slot) target.metadata.uid.toList place ↔
        Dependent objects target.metadata.uid.toList place := by
    cases identity : target.metadata.uid with
    | none => exact iff_of_false Dependent.not_of_nil Dependent.not_of_nil
    | some uid => exact dependent_erase_iff held identity hne
  have hfalls (place : Slot) : FallsWith objects slot place ↔
      place = slot ∨ Dependent objects target.metadata.uid.toList place := by
    simp [FallsWith, held]
  intro place object
  rw [find?_cascade_iff, Table.find?_erase, hfalls]
  by_cases hplace : place = slot
  · simp [hplace]
  · rw [if_neg hplace, hdependent hplace]
    simp [hplace]

/-- Without faults a deletion removes what falls with its target, if there is one. -/
theorem step_deletion_of_quiet (d : Deletion) {m : Memory} (quiet : m.faults = []) :
    (step d.event m).1 = (m.objects.find? d.slot).elim (.error (.absent d.type.kind d.key))
        (fun _ => .ok none) ∧
      Without m.objects (FallsWith m.objects d.slot) (step d.event m).2.objects := by
  cases held : m.objects.find? d.slot with
  | none =>
    have hnone (place : Slot) : ¬ FallsWith m.objects d.slot place := by simp [FallsWith, held]
    rw [Deletion.event, step_delete_of_none quiet d.stamp _ held]
    exact ⟨rfl, fun place object => (and_iff_left (hnone place)).symm⟩
  | some target =>
    have hguarded (token : ResourceVersion) (h : (none : Option ResourceVersion) = some token) :
        target.metadata.version = some token := by cases h
    rw [Deletion.event, step_delete_of_guarded quiet d.stamp ⟨none, d.policy⟩ held hguarded]
    refine ⟨rfl, ?_⟩
    show Without _ _ (settle (d.policy.getD .background) target (m.objects.erase d.slot))
    rw [settle_of_cascades d.cascades]
    exact without_cascade held

/-- A deletion takes the fault that waits for it and does nothing else. -/
theorem step_deletion_of_waiting (d : Deletion) {m : Memory} {fault : StoreError}
    {later : List StoreError} (h : waiting .delete m.faults = fault :: later) :
    (step d.event m).1 = .error fault ∧ (step d.event m).2.objects = m.objects ∧
      waiting .delete (step d.event m).2.faults = later := by
  rcases step_call_cases d.stamp (.delete d.type d.key ⟨none, d.policy⟩) m with
    ⟨_, rest, htake, hstep⟩ | ⟨htake, _⟩
  · obtain ⟨rfl, rfl⟩ := List.cons.inj (h.symm.trans (waiting_of_takeFault? htake).1)
    rw [Deletion.event, hstep]
    exact ⟨rfl, rfl, rfl⟩
  · have hnone : waiting .delete m.faults = [] := waiting_eq_nil_iff.mpr htake
    rw [hnone] at h
    cases h

/-- A deletion for which no fault waits does what it does without faults. -/
theorem step_deletion_of_free (d : Deletion) {m : Memory} (h : waiting .delete m.faults = []) :
    (step d.event m).1 = (m.objects.find? d.slot).elim (.error (.absent d.type.kind d.key))
        (fun _ => .ok none) ∧
      Without m.objects (FallsWith m.objects d.slot) (step d.event m).2.objects ∧
      waiting .delete (step d.event m).2.faults = [] := by
  rcases step_call_cases d.stamp (.delete d.type d.key ⟨none, d.policy⟩) m with
    ⟨_, _, htake, _⟩ | ⟨_, hfree, _⟩
  · have hnone : takeFault? .delete m.faults = none := waiting_eq_nil_iff.mp h
    cases hnone.symm.trans htake
  · have hquiet := step_deletion_of_quiet d (m := m.unfaulted) rfl
    rw [Deletion.event, hfree.same] at hquiet
    exact ⟨hquiet.1, hquiet.2, by rw [Deletion.event, hfree.faults, h]⟩

/-! ### Several deletions -/

/-- **Run.** The first of several deletions take the faults that wait; those after them remove what falls
    with their targets among the objects from before the run. -/
theorem without_after (deletions : List Deletion) (m : Memory) :
    Without m.objects
      (fun place => ∃ d ∈ deletions.drop (waiting .delete m.faults).length,
        FallsWith m.objects d.slot place)
      (m.after (deletions.map (·.event))).objects := by
  induction deletions generalizing m with
  | nil => simp [Without]
  | cons d deletions ih =>
    have hafter : m.after ((d :: deletions).map (·.event)) =
        (step d.event m).2.after (deletions.map (·.event)) := rfl
    have hrest := ih (step d.event m).2
    rw [hafter]
    cases hwaiting : waiting .delete m.faults with
    | cons fault later =>
      -- Nothing is removed, and one fault less waits for one deletion less.
      obtain ⟨_, hobjects, hlater⟩ := step_deletion_of_waiting d hwaiting
      rw [hobjects, hlater] at hrest
      exact hrest
    | nil =>
      obtain ⟨_, hfirst, hnone⟩ := step_deletion_of_free d hwaiting
      rw [hnone] at hrest
      intro place object
      rw [hrest place object, hfirst place object, and_assoc]
      refine and_congr_right fun _ => ?_
      -- What the first deletion spares falls with the others as before.
      simp only [List.length_nil, List.drop_zero, List.mem_cons, exists_eq_or_imp, not_or]
      refine and_congr_right fun hspared => not_congr ?_
      simp only [fallsWith_left_iff hfirst hspared]

/-- Several deletions for which no fault waits may be made in any order. -/
theorem objects_after_perm {deletions others : List Deletion} (h : deletions.Perm others) {m : Memory}
    (free : waiting .delete m.faults = []) :
    (m.after (deletions.map (·.event))).objects = (m.after (others.map (·.event))).objects := by
  refine ((without_after deletions m).eq_iff (without_after others m)).mpr fun place _ _ => ?_
  simp only [free, List.length_nil, List.drop_zero, h.mem_iff]

/-- Two deletions in either order. -/
structure Commutation (m : Memory) (first second : Deletion) : Prop where
  /-- Unless exactly one fault waits for a deletion, the order does not matter. -/
  same : (waiting .delete m.faults).length ≠ 1 →
    (m.after [first.event, second.event]).objects = (m.after [second.event, first.event]).objects
  /-- If exactly one waits, only the second deletion is made, so that the order matters unless the same
      objects fall with both targets. -/
  faulted : (waiting .delete m.faults).length = 1 →
    ((m.after [first.event, second.event]).objects = (m.after [second.event, first.event]).objects ↔
      ∀ place, FallsWith m.objects first.slot place ↔ FallsWith m.objects second.slot place)
  /-- If none waits, what falls with one of the targets is removed. -/
  removed : waiting .delete m.faults = [] →
    Without m.objects
      (fun place => FallsWith m.objects first.slot place ∨ FallsWith m.objects second.slot place)
      (m.after [first.event, second.event]).objects
  /-- If none waits and both targets are there, the first deletion succeeds, and the second one finds
      its target unless that has fallen with the first. -/
  answers : waiting .delete m.faults = [] → ∀ target other,
    m.objects.find? first.slot = some target → m.objects.find? second.slot = some other →
    (step first.event m).1 = .ok none ∧
    (¬ FallsWith m.objects first.slot second.slot →
      (step second.event (step first.event m).2).1 = .ok none) ∧
    (FallsWith m.objects first.slot second.slot →
      (step second.event (step first.event m).2).1 =
        .error (.absent second.type.kind second.key))

/-- **Commutation.**  In every state, reached by a run or not, and whatever refers to what, two deletions
    that are not guarded and do not orphan leave the same objects in either order, unless exactly one fault
    waits for a deletion. -/
theorem deletions_commute (m : Memory) (first second : Deletion) : Commutation m first second where
  same hwaiting := by
    by_cases hfree : waiting .delete m.faults = []
    · exact objects_after_perm (.swap second first []) hfree
    · -- Both deletions take a fault, and nothing is removed in either order.
      have hpos := List.length_pos_iff.mpr hfree
      have hnone (d d' : Deletion) : [d, d'].drop (waiting .delete m.faults).length = [] :=
        List.drop_eq_nil_of_le (by rw [List.length_cons, List.length_singleton]; omega)
      refine ((without_after [first, second] m).eq_iff (without_after [second, first] m)).mpr ?_
      simp only [hnone, implies_true]
  faulted hone := by
    refine ((without_after [first, second] m).eq_iff (without_after [second, first] m)).trans ?_
    simp only [hone, List.drop_succ_cons, List.drop_zero, List.mem_singleton, exists_eq_left]
    constructor
    · intro hsame place
      -- Only what is there can fall.
      constructor
      · intro h
        obtain ⟨object, hheld⟩ := h.held
        exact (hsame place object hheld).mpr h
      · intro h
        obtain ⟨object, hheld⟩ := h.held
        exact (hsame place object hheld).mp h
    · exact fun hsame place _ _ => (hsame place).symm
  removed hfree := by
    have hafter := without_after [first, second] m
    simpa [hfree, Without] using hafter
  answers hfree target other hfirst hsecond := by
    obtain ⟨hanswer, hleft, hnone⟩ := step_deletion_of_free first hfree
    have hnext := (step_deletion_of_free second hnone).1
    refine ⟨by rw [hanswer, hfirst]; rfl, fun hspared => ?_, fun hfalls => ?_⟩
    · rw [hnext, (hleft _ _).mpr ⟨hsecond, hspared⟩]
      rfl
    · have hgone : (step first.event m).2.objects.find? second.slot = none :=
        Option.eq_none_iff_forall_ne_some.mpr fun object hfound =>
          ((hleft _ _).mp hfound).2 hfalls
      rw [hnext, hgone]
      rfl

namespace Shared

open Specimen

/-- Two objects without owners, one that depends on both of them and on a fourth one, and the fourth one,
    which depends on it. -/
def seeding : List Event := [
  .insert .verbatim (Diamond.object "Secret" "ns" "a" "a" []),
  .insert .verbatim (Diamond.object "Secret" "ns" "b" "b" []),
  .insert .verbatim (Diamond.object "Secret" "ns" "c" "c" ["a", "d", "b"]),
  .insert .verbatim (Diamond.object "Job" "other" "d" "d" ["c"])]

/-- The deletion of the first object, without a policy. -/
def first : Deletion := ⟨.verbatim, secrets, key "a", none, by decide⟩

/-- The deletion of the second object. -/
def second : Deletion :=
  ⟨.verbatim, secrets, key "b", some .foreground, by decide⟩

/-- An object of the seed as it is held. -/
def held (number : Nat) (kind scope name : String) (owners : List String) : Object :=
  stamped .verbatim ⟨"", kind, .namespaced scope name⟩ number
    (Diamond.object kind scope name name owners)

/-- The objects of the seed are there, and neither target falls with the other one. -/
theorem apart {objects : Table Slot Object} (h : objects = (empty.after seeding).objects) :
    objects.find? first.slot = some (held 1 "Secret" "ns" "a" []) ∧
    objects.find? second.slot = some (held 2 "Secret" "ns" "b" []) ∧
    ¬ FallsWith objects first.slot second.slot ∧ ¬ FallsWith objects second.slot first.slot := by
  have hfirst : objects.find? first.slot = some (held 1 "Secret" "ns" "a" []) := by
    rw [h]
    decide
  have hsecond : objects.find? second.slot = some (held 2 "Secret" "ns" "b" []) := by
    rw [h]
    decide
  exact ⟨hfirst, hsecond,
    fun hfalls => absurd (hfalls.eq_of_owners_nil hsecond rfl) (by decide),
    fun hfalls => absurd (hfalls.eq_of_owners_nil hfirst rfl) (by decide)⟩

/-- Both deletions succeed, and the shared dependents are gone in either order, though the ways from the
    second target to them have been cut. -/
theorem shared_removed :
    (empty.after seeding).Reachable ∧
    (step first.event (empty.after seeding)).1 = .ok none ∧
    (step second.event (step first.event (empty.after seeding)).2).1 = .ok none ∧
    ((empty.after seeding).after [first.event, second.event]).objects =
      ((empty.after seeding).after [second.event, first.event]).objects ∧
    ((empty.after seeding).after [first.event, second.event]).objects.find?
      ⟨"", "Job", .namespaced "other" "d"⟩ = none := by
  obtain ⟨hfirst, hsecond, hspared, _⟩ := apart rfl
  have h := deletions_commute (empty.after seeding) first second
  have hfree : waiting .delete (empty.after seeding).faults = [] := by decide
  obtain ⟨hone, htwo, _⟩ := h.answers hfree _ _ hfirst hsecond
  have hbetween : (empty.after seeding).objects.find? ⟨"", "Secret", .namespaced "ns" "c"⟩ =
      some (held 3 "Secret" "ns" "c" ["a", "d", "b"]) := by decide
  have hlast : (empty.after seeding).objects.find? ⟨"", "Job", .namespaced "other" "d"⟩ =
      some (held 4 "Job" "other" "d" ["c"]) := by decide
  have htarget : FallsWith (empty.after seeding).objects first.slot first.slot :=
    ⟨_, hfirst, .inl rfl⟩
  have hfar : FallsWith (empty.after seeding).objects first.slot
      ⟨"", "Job", .namespaced "other" "d"⟩ :=
    (htarget.of_refersTo hfirst rfl hbetween (by decide)).of_refersTo hbetween rfl hlast (by decide)
  refine ⟨⟨seeding, rfl⟩, hone, htwo hspared, h.same (by rw [hfree]; decide), ?_⟩
  exact Option.eq_none_iff_forall_ne_some.mpr fun object hfound =>
    ((h.removed hfree _ object).mp hfound).2 (.inl hfar)

/-- With one fault that waits for a deletion the order matters: the target that is deleted first stays. -/
theorem order_matters :
    let m := empty.after (seeding ++ [.failNext .delete (.internal "down")])
    m.Reachable ∧ (m.objects.find? first.slot).isSome ∧ (m.objects.find? second.slot).isSome ∧
      (m.after [first.event, second.event]).objects ≠
        (m.after [second.event, first.event]).objects := by
  intro m
  have hobjects : m.objects = (empty.after seeding).objects := rfl
  obtain ⟨hfirst, hsecond, _, hspared⟩ := apart hobjects
  refine ⟨⟨_, rfl⟩, by rw [hfirst]; rfl, by rw [hsecond]; rfl, fun hsame => hspared ?_⟩
  have hfalls := ((without_after [first, second] m).eq_iff (without_after [second, first] m)).mp hsame
    first.slot _ hfirst
  have hone : waiting .delete m.faults = [.internal "down"] := by decide
  simp only [hone, List.length_singleton, List.drop_succ_cons, List.drop_zero, List.mem_singleton,
    exists_eq_left] at hfalls
  exact hfalls.mpr ⟨_, hfirst, .inl rfl⟩

end Shared

end Memory

end Reconciliation
