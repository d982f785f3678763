import Mathlib.Logic.Function.Iterate
import Reconciliation.Proofs.Memory.Filing
import Reconciliation.Proofs.Table

namespace Reconciliation

/-!
# What a deletion removes

* `Dependent` — the slots of the objects that depend on some owners, directly or through others;
* `find?_cascade_iff` — a cascade leaves exactly the objects that do not depend on the owners;
* `sweep` — one round of the loop that a cascade is: the first owner that waits is dealt with;
* `iterate_sweep` — the loop ends after at most as many rounds as there are objects and owners;
* `Memory.deletion_exact` — what a deletion leaves, under each policy.

The loop looks for dependents among the objects that are left, while `Dependent` speaks of the objects
that were there before the deletion.  What carries the induction is that a round removes dependents
only, and that whatever depended on them before the round depends on an owner that waits after it.
-/

/-! ### Dependents -/

/-- The objects that depend on some owners are the least set that holds every object that refers to one
    of the owners, or to the identity of an object of the set. -/
inductive Dependent (objects : Table Slot Object) (owners : List Uid) : Slot → Prop
  | direct {slot : Slot} {object : Object} {owner : Uid}
      (held : objects.find? slot = some object) (waits : owner ∈ owners)
      (refers : object.refersTo owner = true) : Dependent objects owners slot
  | through {slot other : Slot} {object between : Object} {uid : Uid}
      (dependent : Dependent objects owners other)
      (found : objects.find? other = some between) (identity : between.metadata.uid = some uid)
      (held : objects.find? slot = some object) (refers : object.refersTo uid = true) :
      Dependent objects owners slot

/-- The objects that do not refer to an owner. -/
def independent (objects : Table Slot Object) (owner : Uid) : Table Slot Object :=
  objects.filter fun _ object => !object.refersTo owner

/-- The identities of the objects that refer to an owner, the last one first. -/
def dependentUids (objects : Table Slot Object) (owner : Uid) : List Uid :=
  (objects.filter fun _ object => object.refersTo owner).values.reverse.filterMap (·.metadata.uid)

theorem mem_dependentUids {objects : Table Slot Object} {owner uid : Uid} :
    uid ∈ dependentUids objects owner ↔
      ∃ slot object, objects.find? slot = some object ∧ object.refersTo owner = true ∧
        object.metadata.uid = some uid := by
  simp only [dependentUids, List.mem_filterMap, List.mem_reverse, Table.mem_values_iff,
    Table.find?_filter]
  constructor
  · rintro ⟨object, ⟨slot, held, refers⟩, identity⟩
    exact ⟨slot, object, held, refers, identity⟩
  · rintro ⟨slot, object, held, refers, identity⟩
    exact ⟨object, ⟨slot, held, refers⟩, identity⟩

theorem find?_independent {objects : Table Slot Object} {owner : Uid} {slot : Slot}
    {object : Object} :
    (independent objects owner).find? slot = some object ↔
      objects.find? slot = some object ∧ object.refersTo owner = false := by
  simp [independent, Table.find?_filter]

/-- One round of a cascade. -/
theorem cascade_cons (objects : Table Slot Object) (owner : Uid) (waiting : List Uid) :
    cascade objects (owner :: waiting) =
      cascade (independent objects owner) (dependentUids objects owner ++ waiting) := by
  rw [cascade]
  rfl

namespace Dependent

variable {objects : Table Slot Object} {owner : Uid} {owners waiting : List Uid} {slot : Slot}

/-- Only objects depend on an owner. -/
theorem held (h : Dependent objects owners slot) : ∃ object, objects.find? slot = some object := by
  cases h with
  | direct held _ _ => exact ⟨_, held⟩
  | through _ _ _ held _ => exact ⟨_, held⟩

theorem not_of_nil : ¬ Dependent objects [] slot := by
  intro h
  induction h with
  | direct _ waits _ => cases waits
  | through _ _ _ _ _ ih => exact ih

/-- What depends on the owners that wait after a round depended on those that waited before it. -/
theorem before_round
    (h : Dependent (independent objects owner) (dependentUids objects owner ++ waiting) slot) :
    Dependent objects (owner :: waiting) slot := by
  induction h with
  | direct held waits refers =>
    have held := (find?_independent.mp held).1
    rcases List.mem_append.mp waits with hfreed | hwaits
    · -- The owner refers to the one that the round has dealt with.
      obtain ⟨other, between, found, depends, identity⟩ := mem_dependentUids.mp hfreed
      exact .through (.direct found List.mem_cons_self depends) found identity held refers
    · exact .direct held (List.mem_cons_of_mem _ hwaits) refers
  | through _ found identity held refers ih =>
    exact .through ih (find?_independent.mp found).1 identity (find?_independent.mp held).1 refers

/-- What depends on the owners that wait before a round is removed by it, or depends on those that wait
    after it. -/
theorem after_round (h : Dependent objects (owner :: waiting) slot) {object : Object}
    (found : objects.find? slot = some object) :
    object.refersTo owner = true ∨
      Dependent (independent objects owner) (dependentUids objects owner ++ waiting) slot := by
  induction h generalizing object with
  | @direct slot other uid held waits refers =>
    obtain rfl : other = object := Option.some.inj (held.symm.trans found)
    cases href : other.refersTo owner with
    | true => exact .inl rfl
    | false =>
      have hwaits : uid ∈ waiting := by
        rcases List.mem_cons.mp waits with rfl | hwaits
        · rw [refers] at href
          cases href
        · exact hwaits
      exact .inr (.direct (find?_independent.mpr ⟨held, href⟩)
        (List.mem_append_right _ hwaits) refers)
  | @through slot before other between uid dependent owned identity held refers ih =>
    obtain rfl : other = object := Option.some.inj (held.symm.trans found)
    cases href : other.refersTo owner with
    | true => exact .inl rfl
    | false =>
      have hkept := find?_independent.mpr ⟨held, href⟩
      refine .inr ?_
      rcases ih owned with hremoved | hlater
      · -- The object between is removed by the round, so that its identity waits now.
        have hfreed := mem_dependentUids.mpr ⟨before, between, owned, hremoved, identity⟩
        exact .direct hkept (List.mem_append_left _ hfreed) refers
      · -- It is left, and the way through it stays.
        obtain ⟨same, hsame⟩ := hlater.held
        obtain rfl : same = between :=
          Option.some.inj ((find?_independent.mp hsame).1.symm.trans owned)
        exact .through hlater hsame identity hkept refers

end Dependent

/-- **Closure.**  A cascade leaves exactly the objects that do not depend on the owners, each as it
    was. -/
theorem find?_cascade_iff {objects : Table Slot Object} {owners : List Uid} {slot : Slot}
    {object : Object} :
    (cascade objects owners).find? slot = some object ↔
      objects.find? slot = some object ∧ ¬ Dependent objects owners slot := by
  induction objects, owners using cascade.induct with
  | case1 objects =>
    rw [cascade]
    exact ⟨fun h => ⟨h, Dependent.not_of_nil⟩, And.left⟩
  | case2 objects owner waiting _ _ ih =>
    have ih : (cascade (independent objects owner) (dependentUids objects owner ++ waiting)).find?
        slot = some object ↔ (independent objects owner).find? slot = some object ∧
          ¬ Dependent (independent objects owner) (dependentUids objects owner ++ waiting) slot := ih
    rw [cascade_cons, ih, find?_independent]
    constructor
    · rintro ⟨⟨held, href⟩, hfree⟩
      refine ⟨held, fun dependent => ?_⟩
      rcases dependent.after_round held with hremoved | hlater
      · rw [href] at hremoved
        cases hremoved
      · exact hfree hlater
    · rintro ⟨held, hfree⟩
      refine ⟨⟨held, ?_⟩, fun dependent => hfree dependent.before_round⟩
      rw [← Bool.not_eq_true]
      exact fun href => hfree (.direct held List.mem_cons_self href)

/-! ### The loop ends -/

/-- One round: the first owner that waits is dealt with, and the objects removed for it wait next. -/
def sweep : Table Slot Object × List Uid → Table Slot Object × List Uid
  | (objects, []) => (objects, [])
  | (objects, owner :: waiting) =>
    (independent objects owner, dependentUids objects owner ++ waiting)

/-- A round removes as many objects as there are owners that begin to wait, at least. -/
theorem size_independent_add_length (objects : Table Slot Object) (owner : Uid) :
    (independent objects owner).size + (dependentUids objects owner).length ≤ objects.size := by
  have hsum := objects.size_filter_add_size_filter_not fun _ object => object.refersTo owner
  have hlength : (dependentUids objects owner).length ≤
      (objects.filter fun _ object => object.refersTo owner).size := by
    refine Nat.le_trans (List.length_filterMap_le _ _) ?_
    simp [Table.values, Table.size]
  unfold independent
  omega

/-- **Termination.**  The rounds come to an end, after at most as many as there are objects and owners,
    and what they leave is the cascade. -/
theorem iterate_sweep {objects : Table Slot Object} {waiting : List Uid} {rounds : Nat}
    (h : objects.size + waiting.length ≤ rounds) :
    sweep^[rounds] (objects, waiting) = (cascade objects waiting, []) := by
  induction rounds generalizing objects waiting with
  | zero =>
    obtain rfl : waiting = [] := List.eq_nil_of_length_eq_zero (by omega)
    rw [cascade]
    rfl
  | succ rounds ih =>
    cases waiting with
    | nil =>
      rw [cascade]
      exact Function.iterate_fixed rfl (rounds + 1)
    | cons owner waiting =>
      have hround := size_independent_add_length objects owner
      have hnext : sweep (objects, owner :: waiting) =
          (independent objects owner, dependentUids objects owner ++ waiting) := rfl
      rw [Function.iterate_succ_apply, hnext, cascade_cons]
      refine ih ?_
      rw [List.length_append]
      rw [List.length_cons] at h
      omega

/-- Taking out an object leaves fewer objects. -/
theorem size_erase_lt {objects : Table Slot Object} {slot : Slot} {object : Object}
    (held : objects.find? slot = some object) : (objects.erase slot).size < objects.size := by
  have hsum := objects.size_filter_add_size_filter_not fun other _ => compare slot other ≠ .eq
  have hmem : (slot, object) ∈
      (objects.filter fun other _ => !decide (compare slot other ≠ .eq)).entries := by
    rw [← Table.find?_eq_some_iff, Table.find?_filter]
    exact ⟨held, by simp [Std.ReflCmp.compare_self]⟩
  have hpos := List.length_pos_of_mem hmem
  unfold Table.erase
  unfold Table.size at hsum ⊢
  omega

/-! ### Deletions -/

/-- An object without its references to an owner does not refer to it. -/
theorem Object.refersTo_withoutOwners (object : Object) (uid : Uid) :
    (object.withoutOwners [uid]).refersTo uid = false := by
  simp [Object.withoutOwners, Object.refersTo, List.any_filter]

namespace Memory

/-- A deletion that succeeds has found its object, and leaves what is settled for it. -/
theorem settled_of_deleted {m left : Memory} {stamp : Stamp} {type : ResourceType} {key : Key}
    {options : DeleteOptions} {answer : Option Payload}
    (deleted : step (.call stamp (.delete type key options)) m = (.ok answer, left)) :
    ∃ target, m.objects.find? (slotAt type key) = some target ∧
      left.objects =
        settle (options.propagation.getD .background) target (m.objects.erase (slotAt type key)) := by
  have c := step_change (.call stamp (.delete type key options)) m
  rw [deleted] at c
  cases c with
  | keep idle _ _ =>
    obtain ⟨error, herror⟩ := idle rfl
    cases herror
  | write puts _ _ _ => cases puts
  | remove held _ objects _ => exact ⟨_, held, objects⟩

/-- Without its object a slot is not in the way of its dependents: they depend on the identity that is
    dealt with first. -/
theorem dependent_erase_iff {objects : Table Slot Object} {slot other : Slot} {target : Object}
    {uid : Uid} (held : objects.find? slot = some target) (identity : target.metadata.uid = some uid)
    (hne : other ≠ slot) :
    Dependent (objects.erase slot) [uid] other ↔ Dependent objects [uid] other := by
  have hkept : ∀ {place : Slot} {object : Object}, place ≠ slot →
      ((objects.erase slot).find? place = some object ↔ objects.find? place = some object) := by
    intro place object hplace
    rw [Table.find?_erase, if_neg hplace]
  have hheld : ∀ {place : Slot} {object : Object}, (objects.erase slot).find? place = some object →
      objects.find? place = some object := by
    intro place object hfind
    rw [Table.find?_erase] at hfind
    split at hfind
    · cases hfind
    · exact hfind
  constructor
  · intro h
    clear hne
    induction h with
    | direct found waits refers => exact .direct (hheld found) waits refers
    | through _ owned owns found refers ih => exact .through ih (hheld owned) owns (hheld found) refers
  · intro h
    induction h with
    | direct found waits refers => exact .direct ((hkept hne).mpr found) waits refers
    | @through place before object between uid' _ owned owns found refers ih =>
      by_cases hbefore : before = slot
      · -- The way leads through the target, whose identity waits from the start.
        subst hbefore
        obtain rfl : target = between := Option.some.inj (held.symm.trans owned)
        obtain rfl : uid = uid' := Option.some.inj (identity.symm.trans owns)
        exact .direct ((hkept hne).mpr found) List.mem_cons_self refers
      · exact .through (ih hbefore) ((hkept hbefore).mpr owned) owns ((hkept hne).mpr found) refers

/-- **Deletion.**  Let a deletion succeed in a state of a run from the empty store.  Unless it orphans,
    its loop ends after at most as many rounds as there are objects, and what is left are the objects,
    unchanged, that are not the target and do not depend on it.  If it orphans, what is left are the
    objects that are not the target, each without just its references to the target.  Either way no
    object that is left refers to one that is gone. -/
theorem deletion_exact {m left : Memory} (reachable : m.Reachable) {stamp : Stamp}
    {type : ResourceType} {key : Key} {options : DeleteOptions} {answer : Option Payload}
    (deleted : step (.call stamp (.delete type key options)) m = (.ok answer, left)) :
    ∃ target uid, m.objects.find? (slotAt type key) = some target ∧
      target.metadata.uid = some uid ∧
      (options.propagation ≠ some .orphan →
        (∃ rounds, rounds ≤ m.objects.size ∧
          sweep^[rounds] (m.objects.erase (slotAt type key), [uid]) = (left.objects, [])) ∧
        ∀ slot object, left.objects.find? slot = some object ↔
          m.objects.find? slot = some object ∧ slot ≠ slotAt type key ∧
            ¬ Dependent m.objects [uid] slot) ∧
      (options.propagation = some .orphan → ∀ slot,
        left.objects.find? slot =
          if slot = slotAt type key then none
          else (m.objects.find? slot).map fun object => object.withoutOwners [uid]) ∧
      ∀ gone object identity slot survivor, m.objects.find? gone = some object →
        left.objects.find? gone = none → object.metadata.uid = some identity →
        left.objects.find? slot = some survivor → survivor.refersTo identity = false := by
  obtain ⟨target, held, hobjects⟩ := settled_of_deleted deleted
  obtain ⟨uid, identity⟩ := Option.isSome_iff_exists.mp (reachable.wellKept.kept held).identified
  refine ⟨target, uid, held, identity, ?_⟩
  by_cases horphan : options.propagation = some .orphan
  · have hfind : ∀ slot, left.objects.find? slot = if slot = slotAt type key then none
        else (m.objects.find? slot).map fun object => object.withoutOwners [uid] := by
      intro slot
      rw [hobjects, settle, identity, horphan]
      show (orphan _ uid).find? slot = _
      rw [find?_orphan, Table.find?_erase]
      split <;> rfl
    refine ⟨fun hother => absurd horphan hother, fun _ => hfind, ?_⟩
    intro gone object other slot survivor hgone hnone hother hsurvivor
    -- Nothing but the target is gone, and nobody refers to it any more.
    obtain rfl : gone = slotAt type key := by
      rw [hfind, hgone] at hnone
      simpa using hnone
    obtain rfl : target = object := Option.some.inj (held.symm.trans hgone)
    obtain rfl : uid = other := Option.some.inj (identity.symm.trans hother)
    rw [hfind] at hsurvivor
    split at hsurvivor
    · cases hsurvivor
    · obtain ⟨before, _, rfl⟩ := Option.map_eq_some_iff.mp hsurvivor
      exact before.refersTo_withoutOwners uid
  · have hcascade : left.objects = cascade (m.objects.erase (slotAt type key)) [uid] := by
      rw [hobjects, settle, identity]
      cases hpolicy : options.propagation with
      | none => rfl
      | some policy =>
        cases policy with
        | foreground | background => rfl
        | orphan => exact absurd hpolicy horphan
    have hfind : ∀ slot object, left.objects.find? slot = some object ↔
        m.objects.find? slot = some object ∧ slot ≠ slotAt type key ∧
          ¬ Dependent m.objects [uid] slot := by
      intro slot object
      rw [hcascade, find?_cascade_iff, Table.find?_erase]
      by_cases hslot : slot = slotAt type key
      · simp [hslot]
      · rw [if_neg hslot, dependent_erase_iff held identity hslot]
        simp [hslot]
    refine ⟨fun _ => ⟨⟨m.objects.size, Nat.le_refl _, ?_⟩, hfind⟩,
      fun hother => absurd hother horphan, ?_⟩
    · have hsize := size_erase_lt held
      rw [hcascade]
      exact iterate_sweep (by simp; omega)
    · intro gone object other slot survivor hgone hnone hother hsurvivor
      obtain ⟨hheld, hslot, hfree⟩ := (hfind slot survivor).mp hsurvivor
      rw [← Bool.not_eq_true]
      intro href
      -- Whoever refers to one that is gone depends on the target, too.
      by_cases htarget : gone = slotAt type key
      · subst htarget
        obtain rfl : target = object := Option.some.inj (held.symm.trans hgone)
        obtain rfl : uid = other := Option.some.inj (identity.symm.trans hother)
        exact hfree (.direct hheld List.mem_cons_self href)
      · by_cases hdependent : Dependent m.objects [uid] gone
        · exact hfree (.through hdependent hgone hother hheld href)
        · rw [(hfind gone object).mpr ⟨hgone, htarget, hdependent⟩] at hnone
          cases hnone

namespace Diamond

open Specimen

/-- An object with an identity, and with references to owners by theirs. -/
def object (kind scope name uid : String) (owners : List String) : Object :=
  let base := Object.ofKey ⟨"", "v1", kind⟩ (.namespaced scope name)
  { base with
    metadata := { base.metadata with
      uid := some ⟨uid⟩
      owners := owners.map fun owner => ⟨"v1", kind, ⟨owner⟩, ⟨owner⟩, none, none⟩ } }

/-- Two objects depend on `a`, a third one of another type and namespace on both of them, and `a` on this
    third one.  The last object depends on something else. -/
def seeding : List Event := [
  .insert .verbatim (object "Secret" "ns" "a" "a" ["d"]),
  .insert .verbatim (object "Secret" "ns" "b" "b" ["x", "a", "y"]),
  .insert .verbatim (object "Secret" "ns" "c" "c" ["a"]),
  .insert .verbatim (object "Job" "other" "d" "d" ["b", "c"]),
  .insert .verbatim (object "Secret" "ns" "e" "e" ["x"])]

/-- The deletion of `a`. -/
def deletion (policy : Option PropagationPolicy) : Event :=
  .call .verbatim (.delete secrets (key "a") ⟨none, policy⟩)

/-- What the deletion leaves. -/
def left (policy : Option PropagationPolicy) : Memory :=
  (step (deletion policy) (empty.after seeding)).2

/-- The object on the far side of the diamond. -/
def far : Slot := ⟨"", "Job", .namespaced "other" "d"⟩

/-- One of the two objects between. -/
def near : Slot := slotAt secrets (key "b")

/-- The object that depends on something else. -/
def bystander : Slot := slotAt secrets (key "e")

/-- An object of the seed as it is held. -/
def held (number : Nat) (kind scope name uid : String) (owners : List String) : Object :=
  stamped .verbatim ⟨"", kind, .namespaced scope name⟩ number (object kind scope name uid owners)

set_option maxRecDepth 8000 in
/-- Without a policy the far side goes with the target, and an object that depends on something else
    stays.  An orphaned object keeps its other owners in their order. -/
theorem far_side_removed :
    (empty.after seeding).Reachable ∧
    step (deletion none) (empty.after seeding) = (.ok none, left none) ∧
    step (deletion (some .orphan)) (empty.after seeding) = (.ok none, left (some .orphan)) ∧
    (empty.after seeding).objects.find? far = some (held 4 "Job" "other" "d" "d" ["b", "c"]) ∧
    (left none).objects.find? far = none ∧
    (left none).objects.find? bystander = some (held 5 "Secret" "ns" "e" "e" ["x"]) ∧
    (left (some .orphan)).objects.find? near = some (held 2 "Secret" "ns" "b" "b" ["x", "y"]) := by
  have reachable : (empty.after seeding).Reachable := ⟨seeding, rfl⟩
  have cascading : step (deletion none) (empty.after seeding) = (.ok none, left none) :=
    Prod.ext rfl rfl
  have orphaning : step (deletion (some .orphan)) (empty.after seeding) =
      (.ok none, left (some .orphan)) := Prod.ext rfl rfl
  have hnear : (empty.after seeding).objects.find? near =
      some (held 2 "Secret" "ns" "b" "b" ["x", "a", "y"]) := by decide
  have hfar : (empty.after seeding).objects.find? far =
      some (held 4 "Job" "other" "d" "d" ["b", "c"]) := by decide
  have htarget : (empty.after seeding).objects.find? (slotAt secrets (key "a")) =
      some (held 1 "Secret" "ns" "a" "a" ["d"]) := by decide
  -- The loop is run, since the cascade itself does not unfold.
  have hloop : (left none).objects = (sweep^[5]
      ((empty.after seeding).objects.erase (slotAt secrets (key "a")), [⟨"a"⟩])).1 := by
    rw [iterate_sweep (by decide)]
    rfl
  refine ⟨reachable, cascading, orphaning, hfar, ?_, by rw [hloop]; decide, ?_⟩
  · obtain ⟨target, uid, hheld, identity, hcascade, _⟩ := deletion_exact reachable cascading
    obtain rfl := Option.some.inj (htarget.symm.trans hheld)
    obtain rfl := Option.some.inj identity
    have hbetween : Dependent (empty.after seeding).objects [⟨"a"⟩] near :=
      .direct hnear List.mem_cons_self (by decide)
    have hdependent : Dependent (empty.after seeding).objects [⟨"a"⟩] far :=
      .through hbetween hnear rfl hfar (by decide)
    refine Option.eq_none_iff_forall_ne_some.mpr fun object hleft => ?_
    exact (((hcascade (by decide)).2 far object).mp hleft).2.2 hdependent
  · obtain ⟨target, uid, hheld, identity, _, horphan, _⟩ := deletion_exact reachable orphaning
    obtain rfl := Option.some.inj (htarget.symm.trans hheld)
    obtain rfl := Option.some.inj identity
    rw [horphan rfl near, hnear]
    decide

end Diamond

end Memory

end Reconciliation
