import Reconciliation.Proofs.Memory.Run

namespace Reconciliation

/-!
# How the store in memory keeps its objects

* `Memory.token` — the version token of a write, by its number;
* `Object.withoutOwners` — an object without its references to some owners;
* `Memory.orphaned` — the identities that an event takes out of owner references;
* `Memory.Kept`, `Memory.WellKept` — an object, and all objects, in the slots where they belong, with
  identities, times and tokens of their own;
* `Change.held` — an object held after an event was written by it, or was held before, but for
  references that were orphaned;
* `Reachable.wellKept` — every state of a run is well kept.
-/

namespace Memory

/-! ### Tokens -/

/-- The version token of a write. -/
def token (number : Nat) : ResourceVersion := ⟨toString number⟩

theorem token_injective {m n : Nat} (h : token m = token n) : m = n := by
  have htext : toString m = toString n := congrArg ResourceVersion.text h
  have hdigits : Nat.toDigits 10 m = Nat.toDigits 10 n := by
    have hlist := congrArg String.toList htext
    simpa [Nat.toString_eq_ofList_toDigits] using hlist
  have hvalue := congrArg (fun digits => Nat.ofDigitChars 10 digits 0) hdigits
  simpa [Nat.ofDigitChars_ten_toDigits] using hvalue

end Memory

/-! ### References that are taken away -/

/-- The object without its references to the owners of the listed identities. -/
def Object.withoutOwners (object : Object) (uids : List Uid) : Object :=
  { object with
    metadata := { object.metadata with
      owners := object.metadata.owners.filter fun reference => !uids.contains reference.uid } }

namespace Object

@[simp] theorem withoutOwners_nil (object : Object) : object.withoutOwners [] = object := by
  have hall : object.metadata.owners.filter (fun reference => !([] : List Uid).contains reference.uid)
      = object.metadata.owners := List.filter_eq_self.mpr (by simp)
  rw [withoutOwners, hall]

theorem withoutOwners_append (object : Object) (first second : List Uid) :
    object.withoutOwners (first ++ second) = (object.withoutOwners first).withoutOwners second := by
  simp [withoutOwners, List.filter_filter, Bool.and_comm]

/-- Nothing is taken away exactly when no reference names one of the identities. -/
theorem withoutOwners_eq_self_iff {object : Object} {uids : List Uid} :
    object.withoutOwners uids = object ↔ ∀ uid ∈ uids, object.refersTo uid = false := by
  have hfilter : object.withoutOwners uids = object ↔
      object.metadata.owners.filter (fun reference => !uids.contains reference.uid) =
        object.metadata.owners := by
    constructor
    · intro h
      exact congrArg (fun o : Object => o.metadata.owners) h
    · intro h
      unfold withoutOwners
      rw [h]
  rw [hfilter, List.filter_eq_self]
  constructor
  · intro h uid huid
    rw [refersTo, List.any_eq_false]
    intro reference href heq
    have hkept := h reference href
    rw [eq_of_beq heq] at hkept
    simp [huid] at hkept
  · intro h reference href
    simp only [Bool.not_eq_true', List.contains_eq_mem, decide_eq_false_iff_not]
    intro hmem
    have hfalse := h _ hmem
    rw [refersTo, List.any_eq_false] at hfalse
    exact hfalse reference href (by simp)

end Object

/-- A cascade removes objects and changes none. -/
theorem find?_cascade {objects : Table Slot Object} {waiting : List Uid} {slot : Slot}
    {object : Object} (h : (cascade objects waiting).find? slot = some object) :
    objects.find? slot = some object := by
  induction objects, waiting using cascade.induct with
  | case1 objects => simpa [cascade] using h
  | case2 objects owner waiting dependents kept ih =>
    rw [cascade] at h
    exact (Table.find?_filter.mp (ih h)).1

theorem find?_orphan (objects : Table Slot Object) (owner : Uid) (slot : Slot) :
    (orphan objects owner).find? slot =
      (objects.find? slot).map fun object => object.withoutOwners [owner] := by
  unfold orphan
  rw [Table.find?_map]
  congr 1
  funext object
  simp [Object.withoutOwners, bne, Bool.beq_eq_decide_eq]

namespace Memory

/-- The identity that the deletion of an object takes out of owner references. -/
def orphanedBy (policy : PropagationPolicy) (removed : Object) : List Uid :=
  if policy = .orphan then removed.metadata.uid.toList else []

/-- What is left after a removal was there before, but for references to the removed object. -/
theorem find?_settle {policy : PropagationPolicy} {removed : Object} {objects : Table Slot Object}
    {slot : Slot} {object : Object}
    (h : (settle policy removed objects).find? slot = some object) :
    ∃ before, objects.find? slot = some before ∧
      object = before.withoutOwners (orphanedBy policy removed) := by
  unfold settle at h
  cases huid : removed.metadata.uid with
  | none =>
    rw [huid] at h
    exact ⟨object, h, by simp [orphanedBy, huid]⟩
  | some uid =>
    rw [huid] at h
    cases policy with
    | foreground | background => exact ⟨object, find?_cascade h, by simp [orphanedBy]⟩
    | orphan =>
      dsimp only at h
      rw [find?_orphan] at h
      obtain ⟨before, hbefore, heq⟩ := Option.map_eq_some_iff.mp h
      exact ⟨before, hbefore, by simp [orphanedBy, huid, heq]⟩

/-- What is left after the removal of an object was there before, in another slot. -/
theorem find?_remove {policy : PropagationPolicy} {removed : Object} {objects : Table Slot Object}
    {slot other : Slot} {object : Object}
    (h : (settle policy removed (objects.erase slot)).find? other = some object) :
    other ≠ slot ∧ ∃ before, objects.find? other = some before ∧
      object = before.withoutOwners (orphanedBy policy removed) := by
  obtain ⟨before, hbefore, heq⟩ := find?_settle h
  rw [Table.find?_erase] at hbefore
  split at hbefore
  · cases hbefore
  · rename_i hne
    exact ⟨hne, before, hbefore, heq⟩

/-- The identities that an event takes out of owner references, by its answer. -/
def orphaned (m : Memory) : Event → Store.Answer → List Uid
  | .call _ (.delete type key options), .ok _ =>
    (m.objects.find? (slotAt type key)).elim [] (orphanedBy (options.propagation.getD .background))
  | _, _ => []

/-- An object that is held after an event was written by it, or was held before, but for references
    that were orphaned. -/
theorem Change.held {m m' : Memory} {event : Event} {answer : Store.Answer}
    (c : Change m event answer m') {slot : Slot} {object : Object}
    (h : m'.objects.find? slot = some object) :
    object.metadata.version = some (token (m.version + 1)) ∨
    ∃ before, m.objects.find? slot = some before ∧
      object = before.withoutOwners (m.orphaned event answer) := by
  cases c with
  | keep idle objects _ =>
    -- A delete orphans only if it succeeds, and then it removes.
    have hnone : m.orphaned event answer = [] := by
      unfold orphaned
      split
      · obtain ⟨error, herror⟩ := idle rfl
        cases herror
      · rfl
    rw [objects] at h
    exact Or.inr ⟨object, h, by simp [hnone]⟩
  | @write event stamp base gvk m' puts typed objects _ =>
    rw [objects, Table.find?_insert] at h
    -- Either the slot is the one that was written, or it is as before.
    split at h
    · obtain rfl := Option.some.inj h
      exact Or.inl rfl
    · have hnone : m.orphaned event
          (.ok (some (.object (stamped stamp (slotOf gvk base) (m.version + 1) base)))) = [] := by
        cases puts <;> rfl
      exact Or.inr ⟨object, h, by simp [hnone]⟩
  | remove held _ objects _ =>
    rw [objects] at h
    obtain ⟨_, before, hbefore, heq⟩ := find?_remove h
    exact Or.inr ⟨before, hbefore, by simp [orphaned, held, heq]⟩

/-! ### Well-kept states -/

/-- An object as it is kept in a slot after some number of writes. -/
structure Kept (version : Nat) (slot : Slot) (object : Object) : Prop where
  filed : ∃ gvk, object.gvk = .ok gvk ∧ slot = slotOf gvk object
  identified : object.metadata.uid.isSome
  dated : object.metadata.created.isSome
  numbered : ∃ number, 1 ≤ number ∧ number ≤ version ∧
    object.metadata.version = some (token number)

/-- Every object is kept where it belongs, and no two carry the same token. -/
structure WellKept (m : Memory) : Prop where
  kept : ∀ {slot : Slot} {object : Object}, m.objects.find? slot = some object →
    Kept m.version slot object
  distinct : ∀ {slot other : Slot} {object twin : Object},
    m.objects.find? slot = some object → m.objects.find? other = some twin →
    object.metadata.version = twin.metadata.version → slot = other

theorem Kept.mono {version later : Nat} {slot : Slot} {object : Object}
    (h : Kept version slot object) (hle : version ≤ later) : Kept later slot object := by
  obtain ⟨number, hpos, hnumber, hversion⟩ := h.numbered
  exact ⟨h.filed, h.identified, h.dated, number, hpos, Nat.le_trans hnumber hle, hversion⟩

theorem Kept.withoutOwners {version : Nat} {slot : Slot} {object : Object}
    (h : Kept version slot object) (uids : List Uid) :
    Kept version slot (object.withoutOwners uids) :=
  ⟨h.filed, h.identified, h.dated, h.numbered⟩

/-- What is written is kept. -/
theorem kept_stamped {gvk : GroupVersionKind} {base : Object} (stamp : Stamp) (version : Nat)
    (typed : base.gvk = .ok gvk) :
    Kept (version + 1) (slotOf gvk base) (stamped stamp (slotOf gvk base) (version + 1) base) where
  filed := ⟨gvk, typed, rfl⟩
  identified := by cases huid : base.metadata.uid <;> simp [stamped, huid]
  dated := by cases hcreated : base.metadata.created <;> simp [stamped, hcreated]
  numbered := ⟨version + 1, by omega, Nat.le_refl _, rfl⟩

theorem wellKept_empty : WellKept empty where
  kept h := by cases h
  distinct h := by cases h

/-- The next token is carried by no object yet. -/
theorem WellKept.fresh {m : Memory} (h : WellKept m) {slot : Slot} {object : Object}
    (hfind : m.objects.find? slot = some object) :
    object.metadata.version ≠ some (token (m.version + 1)) := by
  obtain ⟨number, _, hnumber, hversion⟩ := (h.kept hfind).numbered
  intro heq
  rw [hversion] at heq
  have := token_injective (Option.some.inj heq)
  omega

theorem WellKept.write {m m' : Memory} (h : WellKept m) {stamp : Stamp} {base : Object}
    {gvk : GroupVersionKind} (typed : base.gvk = .ok gvk)
    (objects : m'.objects =
      m.objects.insert (slotOf gvk base) (stamped stamp (slotOf gvk base) (m.version + 1) base))
    (version : m'.version = m.version + 1) : WellKept m' where
  kept {slot object} hfind := by
    rw [objects, Table.find?_insert] at hfind
    rw [version]
    split at hfind
    · rename_i hslot
      obtain rfl := Option.some.inj hfind
      rw [hslot]
      exact kept_stamped stamp m.version typed
    · exact (h.kept hfind).mono (by omega)
  distinct {slot other object twin} hfind hother hsame := by
    rw [objects, Table.find?_insert] at hfind hother
    -- The written object has the next token, which nothing else carries yet.
    split at hfind <;> split at hother
    · simp_all
    · obtain rfl := Option.some.inj hfind
      exact absurd hsame.symm (h.fresh hother)
    · obtain rfl := Option.some.inj hother
      exact absurd hsame (h.fresh hfind)
    · exact h.distinct hfind hother hsame

/-- A state that holds nothing but what another one held is well kept, too. -/
theorem WellKept.of_held {m m' : Memory} (h : WellKept m) (version : m'.version = m.version)
    (held : ∀ {slot : Slot} {object : Object}, m'.objects.find? slot = some object →
      ∃ before uids, m.objects.find? slot = some before ∧ object = before.withoutOwners uids) :
    WellKept m' where
  kept hfind := by
    obtain ⟨before, uids, hbefore, rfl⟩ := held hfind
    rw [version]
    exact (h.kept hbefore).withoutOwners uids
  distinct hfind hother hsame := by
    obtain ⟨before, _, hbefore, rfl⟩ := held hfind
    obtain ⟨twin, _, htwin, rfl⟩ := held hother
    exact h.distinct hbefore htwin hsame

/-- **Step.** Every event leaves a well-kept state well kept. -/
theorem Change.wellKept {m m' : Memory} {event : Event} {answer : Store.Answer}
    (c : Change m event answer m') (h : WellKept m) : WellKept m' := by
  cases c with
  | keep _ objects version =>
    refine h.of_held version fun {slot object} hfind => ⟨object, [], ?_, by simp⟩
    rw [← objects]
    exact hfind
  | write _ typed objects version => exact h.write typed objects version
  | remove _ _ objects version =>
    refine h.of_held version fun {slot object} hfind => ?_
    rw [objects] at hfind
    obtain ⟨_, before, hbefore, heq⟩ := find?_remove hfind
    exact ⟨before, _, hbefore, heq⟩

/-- **Run.** Every state after a well-kept one is well kept. -/
theorem WellKept.after {m : Memory} (h : WellKept m) (events : List Event) :
    WellKept (m.after events) := by
  induction events generalizing m with
  | nil => exact h
  | cons event rest ih => exact ih ((step_change event m).wellKept h)

theorem Reachable.wellKept {m : Memory} (h : Reachable m) : WellKept m := by
  obtain ⟨events, rfl⟩ := h
  exact wellKept_empty.after events

end Memory

end Reconciliation
