import Reconciliation.Proofs.Discovery
import Reconciliation.Proofs.Memory.Run
import Reconciliation.Proofs.Owners.Walk

namespace Reconciliation

/-!
# Walks that are said to loop

* `OwnerReference.group?` — the group that a reference declares;
* `Owners.slot?`, `Owners.Revisits` — the slots that a walk comes to, and a walk that comes to one of them
  twice;
* `Owners.mark_eq_of_slot_eq` — as long as no kind and name come again, no slot does;
* `Owners.revisits_iff_of_alarm` — when a walk that is said to loop comes to a slot twice.

A walk is said to loop when a kind and a name come again.  References to one slot have the same kind and
name, but not the other way round: the group, and whether the type lives in namespaces, make the
difference.
-/

variable {σ : Type}

/-- The group that a reference declares, if it declares a type. -/
def OwnerReference.group? (reference : OwnerReference) : Option String :=
  reference.gvk.toOption.map (·.group)

namespace Owners

variable {owners : Owners σ} {object : Object} {state : σ} {n : Nat}

/-- A reference whose type is known declares one of its kind. -/
theorem gvk_of_typeOf {reference : OwnerReference} {type : ResourceType}
    (h : owners.typeOf reference = .ok type) :
    ∃ gvk, reference.gvk = .ok gvk ∧ gvk.kind = reference.kind := by
  obtain ⟨gvk, hgvk, _⟩ := bind_eq_ok.mp h
  have hdeclared : reference.gvk = .ok gvk := mapError_eq_ok.mp hgvk
  exact ⟨gvk, hdeclared, (GroupVersionKind.ofApiVersion_eq_ok hdeclared).2⟩

/-- A reference that has been followed has a type. -/
theorem typeOf_of_find_eq_ok {scope : Option Namespace} {reference : OwnerReference}
    {found : Option OwnerReference} {after : σ}
    (h : owners.find scope reference state = (.ok found, after)) :
    ∃ type, owners.typeOf reference = .ok type := by
  unfold find at h
  split at h
  · cases h
  · exact ⟨_, ‹_›⟩

/-! ### Slots on the way -/

/-- The slot that a reference in a namespace points at, as it says itself: the group and the kind that it
    declares, and the key of an object of its type. -/
def slotOf? (owners : Owners σ) (scope : Option Namespace) (reference : OwnerReference) :
    Option Slot := do
  let gvk ← reference.gvk.toOption
  let type ← (owners.typeOf reference).toOption
  return ⟨gvk.group, gvk.kind, keyOf type scope reference⟩

/-- The slot to which the walk from an object comes by its `n`-th step. -/
def slot? (owners : Owners σ) (object : Object) (state : σ) (n : Nat) : Option Slot :=
  (owners.reference? object state n).bind (owners.slotOf? object.key.scope)

/-- By its `n`-th step the walk has come to some slot twice. -/
def Revisits (owners : Owners σ) (object : Object) (state : σ) (n : Nat) : Prop :=
  ∃ i j slot, i < j ∧ j ≤ n ∧ owners.slot? object state i = some slot ∧
    owners.slot? object state j = some slot

/-- A reference whose type is known points at a slot of its own kind and name. -/
theorem slotOf?_of_typeOf {reference : OwnerReference} {type : ResourceType}
    (h : owners.typeOf reference = .ok type) (scope : Option Namespace) :
    ∃ group, reference.group? = some group ∧
      owners.slotOf? scope reference = some ⟨group, reference.kind, keyOf type scope reference⟩ := by
  obtain ⟨gvk, hgvk, hkind⟩ := gvk_of_typeOf h
  refine ⟨gvk.group, ?_, ?_⟩
  · rw [OwnerReference.group?, hgvk]
    rfl
  · rw [slotOf?, hgvk, h, ← hkind]
    rfl

/-- The slots of two references are the same exactly if the groups and the keys are. -/
theorem slotOf?_eq_iff {scope : Option Namespace} {first last : OwnerReference} {type : ResourceType}
    (typed : owners.typeOf first = .ok type) (same : first.mark = last.mark) :
    owners.slotOf? scope last = owners.slotOf? scope first ↔
      ∃ again, owners.typeOf last = .ok again ∧ last.group? = first.group? ∧
        (again.namespaced = type.namespaced ∨ scope = none) := by
  have hkind : first.kind = last.kind := congrArg Prod.fst same
  have hname : first.name = last.name := congrArg Prod.snd same
  obtain ⟨group, hgroup, hslot⟩ := slotOf?_of_typeOf typed scope
  rw [hslot, hgroup]
  cases hlast : owners.typeOf last with
  | error error =>
    have hnone : owners.slotOf? scope last = none := by
      rw [slotOf?, hlast]
      cases last.gvk <;> rfl
    simp [hnone]
  | ok again =>
    obtain ⟨other, hother, hlastSlot⟩ := slotOf?_of_typeOf hlast scope
    have hscope : (if again.namespaced then scope else none) =
        (if type.namespaced then scope else none) ↔
          again.namespaced = type.namespaced ∨ scope = none := by
      cases again.namespaced <;> cases type.namespaced <;> cases scope <;> simp
    simp [hlastSlot, hother, keyOf, hkind, hname, hscope]

/-- References that point at one slot have the same kind and name. -/
theorem mark_eq_of_slot_eq {scope : Option Namespace} {first last : OwnerReference} {slot : Slot}
    (hfirst : owners.slotOf? scope first = some slot)
    (hlast : owners.slotOf? scope last = some slot) : first.mark = last.mark := by
  have hmark : ∀ {reference : OwnerReference}, owners.slotOf? scope reference = some slot →
      reference.mark = (slot.kind, slot.key.name) := by
    intro reference h
    obtain ⟨_, _, h'⟩ := Option.bind_eq_some_iff.mp h
    obtain ⟨type, htype, _⟩ := Option.bind_eq_some_iff.mp h'
    obtain ⟨group, _, hslot⟩ := slotOf?_of_typeOf (eq_ok_of_toOption htype) scope
    obtain rfl := Option.some.inj (h.symm.trans hslot)
    rfl
  rw [hmark hfirst, hmark hlast]

/-- A walk that has met all kinds and names but the last for the first time comes to a slot twice exactly
    if its last reference points at the slot of the one with the same kind and name. -/
theorem revisits_succ_iff {i : Nat} {first last : OwnerReference}
    (fresh : Distinct (owners.reference? object state) n) (hi : i ≤ n)
    (hfirst : owners.reference? object state i = some first)
    (hlast : owners.reference? object state (n + 1) = some last) (same : first.mark = last.mark)
    {type : ResourceType} (typed : owners.typeOf first = .ok type) :
    owners.Revisits object state (n + 1) ↔
      owners.slotOf? object.key.scope last = owners.slotOf? object.key.scope first := by
  constructor
  · rintro ⟨a, b, slot, hab, hb, ha, hb'⟩
    obtain ⟨r, hr, hrslot⟩ := Option.bind_eq_some_iff.mp ha
    obtain ⟨q, hq, hqslot⟩ := Option.bind_eq_some_iff.mp hb'
    have hmark := mark_eq_of_slot_eq hrslot hqslot
    -- The later of the two is the last reference, and so the earlier is the one of its kind and name.
    obtain rfl : b = n + 1 := by
      rcases Nat.lt_or_eq_of_le hb with hlt | heq
      · exact absurd hmark (fresh a b hab (Nat.lt_succ_iff.mp hlt) r q hr hq)
      · exact heq
    obtain rfl : last = q := Option.some.inj (hlast.symm.trans hq)
    obtain rfl := fresh.eq_of_mark_eq (Nat.lt_succ_iff.mp hab) hi hr hfirst (hmark.trans same.symm)
    obtain rfl : first = r := Option.some.inj (hfirst.symm.trans hr)
    rw [hqslot, hrslot]
  · intro h
    obtain ⟨slot, hslot⟩ : ∃ slot, owners.slotOf? object.key.scope first = some slot := by
      obtain ⟨_, _, hslot⟩ := slotOf?_of_typeOf typed object.key.scope
      exact ⟨_, hslot⟩
    have hearlier : owners.slot? object state i = some slot := by
      rw [slot?, hfirst, Option.bind_some, hslot]
    have hlater : owners.slot? object state (n + 1) = some slot := by
      rw [slot?, hlast, Option.bind_some, h, hslot]
    exact ⟨i, n + 1, slot, Nat.lt_succ_iff.mpr hi, Nat.le_refl _, hearlier, hlater⟩

/-! ### The alarm -/

/-- **The alarm.**  A walk that is said to loop has come from the object to two references of the same
    kind and name, the first such pair on the way.  It has come to a slot twice exactly if the later one
    declares the same group and is of a known type that, unless the walk began without a namespace, lives in
    namespaces if the type of the earlier one does.  Otherwise the alarm is false. -/
theorem revisits_iff_of_alarm {depth : Nat} {origin : String}
    (alarm : (owners.root object depth state).1 = .error (.ownerCycle origin)) :
    origin = object.key.display ∧
      ∃ i n first last type, i ≤ n ∧ n < depth ∧
        owners.reference? object state i = some first ∧
        owners.reference? object state (n + 1) = some last ∧
        first.kind = last.kind ∧ first.name = last.name ∧
        Distinct (owners.reference? object state) n ∧
        owners.typeOf first = .ok type ∧
        (owners.Revisits object state (n + 1) ↔
          ∃ again, owners.typeOf last = .ok again ∧ last.group? = first.group? ∧
            (again.namespaced = type.namespaced ∨ object.key.scope = none)) := by
  cases hcontroller : object.controller? with
  | none =>
    rw [root_of_none hcontroller] at alarm
    cases alarm
  | some top =>
    obtain ⟨n, result, hends⟩ := owners.exists_ends state hcontroller depth
    rw [hends.root_eq] at alarm
    cases hends with
    | top reaches within found => cases alarm
    | failure reaches within found =>
      cases alarm
      rcases find_eq_error found with ⟨_, h⟩ | ⟨_, _, h⟩ <;> cases h
    | limit reaches => cases alarm
    | recurrence reaches within found met =>
      cases alarm
      obtain ⟨i, hi, first, hfirst, hmark⟩ := mem_marks.mp met
      have hlast := reference?_of_position? (position?_succ reaches.stands found)
      -- All references but the last have been followed, so that their types are known.
      obtain ⟨type, htype⟩ : ∃ type, owners.typeOf first = .ok type := by
        rcases Nat.lt_or_eq_of_le hi with hlt | rfl
        · obtain ⟨before, next, after, hfind⟩ := exists_find_of_lt reaches.stands hlt hfirst
          exact typeOf_of_find_eq_ok hfind
        · obtain rfl := Option.some.inj (hfirst.symm.trans (reference?_of_position? reaches.stands))
          exact typeOf_of_find_eq_ok found
      refine ⟨rfl, i, n, first, _, type, hi, within, hfirst, hlast, congrArg Prod.fst hmark,
        congrArg Prod.snd hmark, reaches.fresh, htype, ?_⟩
      rw [revisits_succ_iff reaches.fresh hi hfirst hlast hmark htype, slotOf?_eq_iff htype hmark]

end Owners

/-! ### Two objects of one kind and name -/

namespace Owners.Homonyms

/-- Two types of one kind. -/
def types : TypeTable := .ofList
  [⟨"a.example", "v1", "Widget", "widgets", true⟩, ⟨"b.example", "v1", "Widget", "widgets", true⟩]

/-- A reference to a controller of one of the types. -/
def widget (apiVersion : String) : OwnerReference :=
  ⟨apiVersion, "Widget", ⟨"x"⟩, ⟨""⟩, some true, none⟩

/-- An object of the one type, controlled by the one of the other type. -/
def lower : Object :=
  (Object.ofKey ⟨"a.example", "v1", "Widget"⟩ (.namespaced "ns" "x")).withOwner
    (widget "b.example/v1")

/-- An object of the other type, which nothing controls. -/
def upper : Object := .ofKey ⟨"b.example", "v1", "Widget"⟩ (.namespaced "ns" "x")

/-- An object that the first one controls. -/
def pod : Object :=
  (Object.ofKey ⟨"", "v1", "Pod"⟩ (.namespaced "ns" "p")).withOwner (widget "a.example/v1")

/-- Owners of these types are looked up in memory. -/
def owners : Owners Memory := ⟨types.resolveGvk, Memory.store .verbatim⟩

/-- Both controllers are seeded. -/
def held : Memory := Memory.empty.after [.insert .verbatim lower, .insert .verbatim upper]

/-- The walk ends at the second controller. -/
theorem reference?_of_le {n : Nat} (h : 2 ≤ n) : owners.reference? pod held n = none := by
  have hend : owners.position? pod held 2 = none := Option.isNone_iff_eq_none.mp (by decide)
  rw [reference?, Option.map_eq_none_iff, Option.eq_none_iff_forall_ne_some]
  intro position hposition
  obtain ⟨before, hbefore⟩ := exists_position?_of_le hposition h
  rw [hend] at hbefore
  cases hbefore

/-- The walk is said to loop, and does not come to any slot twice. -/
theorem alarm_without_loop :
    (owners.root pod defaultOwnerDepth held).1 = .error (.ownerCycle "ns/p") ∧
    (∀ n, 2 ≤ n → owners.reference? pod held n = none) ∧
    ∀ n, ¬ owners.Revisits pod held n := by
  refine ⟨rfl, fun n => reference?_of_le, ?_⟩
  rintro n ⟨i, j, slot, hij, _, hi, hj⟩
  have hlt : j < 2 := by
    rcases Nat.lt_or_ge j 2 with hlt | hge
    · exact hlt
    · rw [slot?, reference?_of_le hge] at hj
      cases hj
  obtain rfl : i = 0 := by omega
  obtain rfl : j = 1 := by omega
  exact absurd (hi.trans hj.symm) (by decide)

/-- The types of the two references are of different groups. -/
theorem no_return :
    (owners.root pod defaultOwnerDepth held).1 = .error (.ownerCycle "ns/p") ∧
    ∃ i n first last, i ≤ n ∧ n < defaultOwnerDepth ∧
      owners.reference? pod held i = some first ∧
      owners.reference? pod held (n + 1) = some last ∧
      first.kind = last.kind ∧ first.name = last.name ∧ ¬ owners.Revisits pod held (n + 1) := by
  have halarm : (owners.root pod defaultOwnerDepth held).1 = .error (.ownerCycle "ns/p") := rfl
  obtain ⟨_, i, n, first, last, type, hi, hn, hfirst, hlast, hkind, hname, _, htype, hiff⟩ :=
    revisits_iff_of_alarm halarm
  refine ⟨halarm, i, n, first, last, hi, hn, hfirst, hlast, hkind, hname, fun revisits => ?_⟩
  obtain ⟨again, hagain, hgroup, _⟩ := hiff.mp revisits
  obtain rfl : n = 0 := by
    rcases Nat.eq_zero_or_pos n with hzero | hpos
    · exact hzero
    · rw [reference?_of_le (show 2 ≤ n + 1 by omega)] at hlast
      cases hlast
  obtain rfl : i = 0 := Nat.le_zero.mp hi
  cases hfirst
  cases hlast
  cases htype
  cases hagain
  exact absurd hgroup (by decide)

end Owners.Homonyms

end Reconciliation
