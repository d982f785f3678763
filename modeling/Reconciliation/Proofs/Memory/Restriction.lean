import Reconciliation.Proofs.Fallible
import Reconciliation.Proofs.Memory.Failure
import Reconciliation.Proofs.Memory.Serving

namespace Reconciliation.Memory

/-!
# Stores in which only some types are installed

* `Addresses` — a call that is made for a group and a kind, with nothing else wrong about it;
* `Refused` — a call that finds nothing and changes nothing;
* `Overwrites` — an update or a delete of an object that is held;
* `knows_after_restrict` — a type that is left out by a restriction is not installed in any later state;
* `held_of_unknown` — where objects of such a type come from;
* `refused_iff_of_restricted` — which calls for such a type are refused.

Gets, lists and creates ask whether the type is installed.  Updates and deletes do not: they are refused
because what they address is missing, unless it was there before the restriction or has been seeded.
-/

/-! ### Calls for a type -/

/-- A call that is made for a group and a kind.  A new object is properly named. -/
inductive Addresses (group kind : String) : Store.Call → Prop
  | get {type : ResourceType} (key : Key) (of : type.group = group ∧ type.kind = kind) :
      Addresses group kind (.get type key)
  | list {type : ResourceType} (filter : Filter) (of : type.group = group ∧ type.kind = kind) :
      Addresses group kind (.list type filter)
  | create {object : Object} {version : String} (typed : object.gvk = .ok ⟨group, version, kind⟩)
      (named : validateName object.metadata.name.text = .ok ()) :
      Addresses group kind (.create object)
  | update {object : Object} {version : String} (typed : object.gvk = .ok ⟨group, version, kind⟩) :
      Addresses group kind (.update object)
  | delete {type : ResourceType} (key : Key) (options : DeleteOptions)
      (of : type.group = group ∧ type.kind = kind) :
      Addresses group kind (.delete type key options)

/-- A call that finds nothing, and leaves objects and number as they were. -/
def Refused (m : Memory) (result : Store.Answer × Memory) : Prop :=
  (∃ kind key, result.1 = .error (.notFound kind key)) ∧
    result.2.objects = m.objects ∧ result.2.version = m.version

/-- An update or a delete of an object that is held. -/
def Overwrites (m : Memory) : Store.Call → Prop
  | .update object => ∃ gvk held, object.gvk = .ok gvk ∧
      m.objects.find? (slotOf gvk object) = some held
  | .delete type key _ => ∃ held, m.objects.find? (slotAt type key) = some held
  | .get _ _ | .list _ _ | .create _ => False

/-- The state in which all types are installed. -/
def unrestricted (m : Memory) : Memory := { m with known := none }

/-! ### Types that are left out -/

/-- **Run.** Only a restriction changes which types are installed. -/
theorem known_after {events : List Event} (settled : ∀ event ∈ events, event.installs = false)
    (m : Memory) : (m.after events).known = m.known := by
  induction events generalizing m with
  | nil => rfl
  | cons event rest ih =>
    obtain ⟨hevent, hrest⟩ := List.forall_mem_cons.mp settled
    exact (ih hrest _).trans (known_of_not_installs event hevent m)

/-- A type that a restriction leaves out is not installed. -/
theorem knows_restrict {types : List ResourceType} {group kind : String}
    (excluded : ∀ type ∈ types, (type.group, type.kind) ≠ (group, kind)) (m : Memory) :
    (m.restrict types).knows group kind = false := by
  rw [knows, restrict]
  simpa [Prod.ext_iff] using excluded

/-- A type that a restriction leaves out is not installed afterwards. -/
theorem knows_after_restrict {types : List ResourceType} {group kind : String}
    (excluded : ∀ type ∈ types, (type.group, type.kind) ≠ (group, kind)) {events : List Event}
    (settled : ∀ event ∈ events, event.installs = false) (m : Memory) :
    ((m.restrict types).after events).knows group kind = false := by
  rw [knows, known_after settled, ← knows, knows_restrict excluded]

/-! ### Where objects come from -/

/-- An object that is held after an event was held before, or something was put into its slot, by a seed
    or by a create that succeeded. -/
theorem Change.filled {m m' : Memory} {event : Event} {answer : Store.Answer}
    (c : Change m event answer m') {slot : Slot} {object : Object}
    (held : m'.objects.find? slot = some object) :
    (∃ before, m.objects.find? slot = some before) ∨
      ∃ stamp seed, Belongs slot seed ∧ (event = .insert stamp seed ∨
        event = .call stamp (.create seed) ∧ ∃ brought, answer = .ok brought) := by
  cases c with
  | keep _ objects _ =>
    rw [objects] at held
    exact Or.inl ⟨object, held⟩
  | write puts typed objects _ =>
    rw [objects, Table.find?_insert] at held
    split at held
    · rename_i hslot
      cases puts with
      | insert => exact Or.inr ⟨_, _, ⟨_, typed, hslot.symm⟩, Or.inl rfl⟩
      | create _ object => exact Or.inr ⟨_, object, ⟨_, typed, hslot.symm⟩, Or.inr ⟨rfl, _, rfl⟩⟩
      | update _ _ current _ before =>
        rw [hslot]
        exact Or.inl ⟨current, before⟩
    · exact Or.inl ⟨object, held⟩
  | remove _ _ objects _ =>
    rw [objects] at held
    obtain ⟨_, before, hbefore, _⟩ := find?_remove held
    exact Or.inl ⟨before, hbefore⟩

/-- **Step.** An object of a type that is not installed was held before, or is seeded. -/
theorem held_of_unknown_step {m : Memory} {event : Event} {slot : Slot} {object : Object}
    (unknown : m.knows slot.group slot.kind = false)
    (held : (step event m).2.objects.find? slot = some object) :
    (∃ before, m.objects.find? slot = some before) ∨
      ∃ stamp seed, event = .insert stamp seed ∧ Belongs slot seed := by
  rcases (step_change event m).filled held with hbefore | ⟨stamp, seed, hbelongs, hevent⟩
  · exact Or.inl hbefore
  · rcases hevent with rfl | ⟨rfl, brought, hbrought⟩
    · exact Or.inr ⟨stamp, seed, rfl, hbelongs⟩
    · -- A create would have asked for the type.
      obtain ⟨stored, hstored, -⟩ := map_eq_ok.mp hbrought
      obtain ⟨gvk, hgvk, -, hknown, -⟩ := create_eq_ok hstored
      obtain ⟨gvk', hgvk', rfl⟩ := hbelongs
      obtain rfl : gvk' = gvk := Except.ok.inj (hgvk'.symm.trans hgvk)
      rw [show m.knows gvk'.group gvk'.kind = false from unknown] at hknown
      cases hknown

/-- **Run.** An object of a type that is not installed was held at the beginning, or has been seeded. -/
theorem held_of_unknown {events : List Event} (settled : ∀ event ∈ events, event.installs = false)
    {m : Memory} {slot : Slot} {object : Object} (unknown : m.knows slot.group slot.kind = false)
    (held : (m.after events).objects.find? slot = some object) :
    (∃ before, m.objects.find? slot = some before) ∨
      ∃ stamp seed, .insert stamp seed ∈ events ∧ Belongs slot seed := by
  induction events generalizing m object with
  | nil => exact Or.inl ⟨object, held⟩
  | cons event rest ih =>
    obtain ⟨hevent, hrest⟩ := List.forall_mem_cons.mp settled
    have hunknown : (step event m).2.knows slot.group slot.kind = false := by
      rw [knows, known_of_not_installs event hevent m]
      exact unknown
    rcases ih hrest hunknown held with ⟨before, hbefore⟩ | ⟨stamp, seed, hseed, hbelongs⟩
    · rcases held_of_unknown_step unknown hbefore with hearlier | ⟨stamp, seed, rfl, hbelongs⟩
      · exact Or.inl hearlier
      · exact Or.inr ⟨stamp, seed, List.mem_cons_self, hbelongs⟩
    · exact Or.inr ⟨stamp, seed, List.mem_cons_of_mem _ hseed, hbelongs⟩

/-! ### What calls for such a type come to -/

section Calls

variable {m : Memory} {group kind : String} (stamp : Stamp)

/-- Gets, lists and creates ask whether the type is installed. -/
theorem refused_of_unknown {asked : Store.Call} (addressed : Addresses group kind asked)
    (unknown : m.knows group kind = false) (unfaulted : takeFault? asked.operation m.faults = none)
    (asks : asked.operation ∈ [.get, .list, .create]) : Refused m (step (.call stamp asked) m) := by
  cases addressed with
  | get key of =>
    obtain ⟨rfl, rfl⟩ := of
    have hunknown : (m.counted .get).knows _ _ = false := unknown
    have hacts : takeFault? .get m.faults = none := unfaulted
    show Refused m (mapAnswer _ (call .get _ m))
    rw [call_of_unfaulted hacts]
    simp only [hunknown, Bool.false_eq_true, if_false]
    exact ⟨⟨_, _, rfl⟩, rfl, rfl⟩
  | list filter of =>
    obtain ⟨rfl, rfl⟩ := of
    have hunknown : (m.counted .list).knows _ _ = false := unknown
    have hacts : takeFault? .list m.faults = none := unfaulted
    show Refused m (mapAnswer _ (call .list _ m))
    rw [call_of_unfaulted hacts]
    simp only [hunknown, Bool.false_eq_true, if_false]
    exact ⟨⟨_, _, rfl⟩, rfl, rfl⟩
  | create typed named =>
    have hunknown : (m.counted .create).knows group kind = false := unknown
    have hacts : takeFault? .create m.faults = none := unfaulted
    show Refused m (mapAnswer _ (call .create _ m))
    rw [call_of_unfaulted hacts]
    simp only [typed, named, hunknown, Bool.not_false, if_true]
    exact ⟨⟨_, _, rfl⟩, rfl, rfl⟩
  | update | delete => simp [Store.Call.operation] at asks

/-- Updates and deletes of what is not held find nothing. -/
theorem refused_of_absent {asked : Store.Call} (addressed : Addresses group kind asked)
    (unfaulted : takeFault? asked.operation m.faults = none)
    (asks : asked.operation ∈ [.update, .delete]) (absent : ¬ Overwrites m asked) :
    Refused m (step (.call stamp asked) m) := by
  cases addressed with
  | get | list | create => simp [Store.Call.operation] at asks
  | @update object version typed =>
    have hacts : takeFault? .update m.faults = none := unfaulted
    have habsent : (m.counted .update).objects.find? (slotOf ⟨group, version, kind⟩ object) = none :=
      Option.eq_none_iff_forall_ne_some.mpr fun held hheld => absent ⟨_, held, typed, hheld⟩
    show Refused m (mapAnswer _ (call .update _ m))
    rw [call_of_unfaulted hacts]
    simp only [typed, habsent]
    exact ⟨⟨_, _, rfl⟩, rfl, rfl⟩
  | @delete type key options of =>
    have hacts : takeFault? .delete m.faults = none := unfaulted
    have habsent : (m.counted .delete).objects.find? (slotAt type key) = none :=
      Option.eq_none_iff_forall_ne_some.mpr fun held hheld => absent ⟨held, hheld⟩
    show Refused m (mapAnswer _ (call .delete _ m))
    rw [call_of_unfaulted hacts]
    simp only [habsent]
    exact ⟨⟨_, _, rfl⟩, rfl, rfl⟩

/-- An update or a delete of what is held succeeds, or fails for another reason than its absence. -/
theorem not_refused_of_overwrites {asked : Store.Call}
    (unfaulted : takeFault? asked.operation m.faults = none) (overwrites : Overwrites m asked) :
    ¬ Refused m (step (.call stamp asked) m) := by
  rintro ⟨⟨kind, key, hanswer⟩, -⟩
  cases asked with
  | get | list | create => exact overwrites
  | update object =>
    obtain ⟨gvk, held, hgvk, hfind⟩ := overwrites
    have hacts : takeFault? .update m.faults = none := unfaulted
    have hheld : (m.counted .update).objects.find? (slotOf gvk object) = some held := hfind
    change (mapAnswer _ (call .update _ m)).1 = _ at hanswer
    rw [call_of_unfaulted hacts] at hanswer
    simp only [hgvk, hheld] at hanswer
    cases htoken : object.metadata.version with
    | none =>
      rw [htoken] at hanswer
      cases hanswer
    | some token =>
      rw [htoken] at hanswer
      dsimp only at hanswer
      split at hanswer <;> cases hanswer
  | delete type address options =>
    obtain ⟨held, hfind⟩ := overwrites
    have hacts : takeFault? .delete m.faults = none := unfaulted
    have hheld : (m.counted .delete).objects.find? (slotAt type address) = some held := hfind
    change (mapAnswer _ (call .delete _ m)).1 = _ at hanswer
    rw [call_of_unfaulted hacts] at hanswer
    simp only [hheld] at hanswer
    cases hguard : options.precondition with
    | none =>
      rw [hguard] at hanswer
      cases hanswer
    | some token =>
      rw [hguard] at hanswer
      dsimp only at hanswer
      split at hanswer <;> cases hanswer

end Calls

/-- A call does not ask which types are installed if what it does when it acts does not. -/
theorem call_unrestricted {α : Type} {op : Operation} {act : Memory → Except StoreError α × Memory}
    (blind : ∀ m, act m.unrestricted = ((act m).1, (act m).2.unrestricted)) (m : Memory) :
    call op act m.unrestricted = ((call op act m).1, (call op act m).2.unrestricted) := by
  have hfaults : m.unrestricted.faults = m.faults := rfl
  rcases call_cases op act m with ⟨error, rest, htake, hcall⟩ | ⟨htake, hcall⟩
  · rw [hcall]
    simp only [call, hfaults, htake]
    rfl
  · rw [hcall]
    simp only [call, hfaults, htake]
    exact blind { m with calls := m.calls.bump op }

theorem update_unrestricted (stamp : Stamp) (object : Object) (m : Memory) :
    update stamp object m.unrestricted =
      ((update stamp object m).1, (update stamp object m).2.unrestricted) := by
  refine call_unrestricted (fun m => ?_) m
  have hobjects : m.unrestricted.objects = m.objects := rfl
  dsimp only
  cases object.gvk with
  | error error => rfl
  | ok gvk =>
    dsimp only
    rw [hobjects]
    cases m.objects.find? (slotOf gvk object) with
    | none => rfl
    | some current =>
      cases object.metadata.version with
      | none => rfl
      | some token =>
        dsimp only
        split <;> rfl

theorem delete_unrestricted (type : ResourceType) (key : Key) (options : DeleteOptions) (m : Memory) :
    delete type key options m.unrestricted =
      ((delete type key options m).1, (delete type key options m).2.unrestricted) := by
  refine call_unrestricted (fun m => ?_) m
  have hobjects : m.unrestricted.objects = m.objects := rfl
  dsimp only
  rw [hobjects]
  cases m.objects.find? (slotAt type key) with
  | none => rfl
  | some current =>
    cases options.precondition with
    | none => rfl
    | some token =>
      dsimp only
      split <;> rfl

/-- Updates and deletes do as they would do if all types were installed. -/
theorem step_unrestricted (stamp : Stamp) {asked : Store.Call}
    (asks : asked.operation ∈ [.update, .delete]) (m : Memory) :
    step (.call stamp asked) m.unrestricted =
      ((step (.call stamp asked) m).1, (step (.call stamp asked) m).2.unrestricted) := by
  cases asked with
  | get | list | create => simp [Store.Call.operation] at asks
  | update object =>
    show mapAnswer _ (update stamp object m.unrestricted) = _
    rw [update_unrestricted]
    rfl
  | delete type key options =>
    show mapAnswer _ (delete type key options m.unrestricted) = _
    rw [delete_unrestricted]
    rfl

/-- Only an update or a delete overwrites. -/
theorem asks_of_overwrites {m : Memory} {asked : Store.Call} (overwrites : Overwrites m asked) :
    asked.operation ∈ [.update, .delete] := by
  cases asked with
  | get | list | create => exact overwrites.elim
  | update | delete => simp [Store.Call.operation]

/-- **Which calls for a type that is left out are refused.**  In every state that is reached from a
    restricted store, by calls, seeds and faults to come, and for every group and kind that the
    restriction leaves out: a call for which no fault waits finds nothing and changes nothing, unless
    it is an update or a delete of an object that is held.  Such a call does what it does in a store in
    which all types are installed.  Only objects are held that were held before the restriction, or
    have been seeded since. -/
theorem refused_iff_of_restricted {start : Memory} {types : List ResourceType} {events : List Event}
    {group kind : String} {asked : Store.Call}
    (settled : ∀ event ∈ events, event.installs = false)
    (excluded : ∀ type ∈ types, (type.group, type.kind) ≠ (group, kind))
    (addressed : Addresses group kind asked) (stamp : Stamp)
    (unfaulted : ∀ fault ∈ ((start.restrict types).after events).faults,
      fault.1 ≠ asked.operation) :
    let m := (start.restrict types).after events
    (Refused m (step (.call stamp asked) m) ↔ ¬ Overwrites m asked) ∧
      (Overwrites m asked → step (.call stamp asked) m.unrestricted =
        ((step (.call stamp asked) m).1, (step (.call stamp asked) m).2.unrestricted)) ∧
      ∀ slot object, slot.group = group → slot.kind = kind → m.objects.find? slot = some object →
        (∃ before, start.objects.find? slot = some before) ∨
          ∃ stamp seed, .insert stamp seed ∈ events ∧ Belongs slot seed := by
  intro m
  have hunknown : m.knows group kind = false := knows_after_restrict excluded settled start
  have hacts : takeFault? asked.operation m.faults = none := takeFault?_eq_none_iff.mpr unfaulted
  refine ⟨⟨fun hrefused hover => not_refused_of_overwrites stamp hacts hover hrefused,
    fun habsent => ?_⟩, fun hover => step_unrestricted stamp (asks_of_overwrites hover) m, ?_⟩
  · by_cases asks : asked.operation ∈ [.update, .delete]
    · exact refused_of_absent stamp addressed hacts asks habsent
    · refine refused_of_unknown stamp addressed hunknown hacts ?_
      cases asked <;> simp_all [Store.Call.operation]
  · rintro slot object rfl rfl hheld
    exact held_of_unknown (m := start.restrict types) settled (knows_restrict excluded start) hheld

namespace Uninstalled

open Specimen

/-- The one type that is installed. -/
def installed : ResourceType := ⟨"", "v1", "ConfigMap", "configmaps", true⟩

/-- What happens to the restricted store: the object is seeded. -/
def events : List Event := [.insert .verbatim sample]

/-- The restricted store with the object. -/
def seeded : Memory := (empty.restrict [installed]).after events

/-- A get of the object. -/
def got : Store.Call := .get secrets sample.key

/-- An update of the object with its token. -/
def updated : Store.Call :=
  .update { sample with metadata := { sample.metadata with version := some ⟨"1"⟩ } }

/-- A delete of the object. -/
def deleted : Store.Call := .delete secrets sample.key ⟨none, none⟩

/-- The object is not found, and deleted all the same. -/
theorem deleted_though_not_found :
    Refused seeded (step (.call .verbatim got) seeded) ∧
      ¬ Refused seeded (step (.call .verbatim deleted) seeded) ∧
      step (.call .verbatim deleted) seeded.unrestricted =
        ((step (.call .verbatim deleted) seeded).1,
          (step (.call .verbatim deleted) seeded).2.unrestricted) := by
  have hsettled : ∀ event ∈ events, event.installs = false := by decide
  have hexcluded : ∀ t ∈ [installed], (t.group, t.kind) ≠ ("", "Secret") := by decide
  have hunfaulted : ∀ op, ∀ fault ∈ ((empty.restrict [installed]).after events).faults,
      fault.1 ≠ op := fun _ _ h => by cases h
  have haddressed : Addresses "" "Secret" got ∧ Addresses "" "Secret" deleted :=
    ⟨.get _ ⟨rfl, rfl⟩, .delete _ _ ⟨rfl, rfl⟩⟩
  have hget := refused_iff_of_restricted hsettled hexcluded haddressed.1 .verbatim (hunfaulted _)
  have hdelete := refused_iff_of_restricted hsettled hexcluded haddressed.2 .verbatim (hunfaulted _)
  have hover : Overwrites seeded deleted := ⟨_, rfl⟩
  exact ⟨hget.1.mpr id, fun hrefused => hdelete.1.mp hrefused hover, hdelete.2.1 hover⟩

/-- **Not every call is refused.**  The update and the delete are for a type that the restriction leaves
    out, and no fault waits; still both succeed, the one changes the number of writes and the other
    removes the object. -/
theorem overwritten_though_left_out :
    (∀ t ∈ [installed], (t.group, t.kind) ≠ ("", "Secret")) ∧ seeded.faults = [] ∧
      Addresses "" "Secret" updated ∧ Addresses "" "Secret" deleted ∧
      (∃ stored, (step (.call .verbatim updated) seeded).1 = .ok stored) ∧
      seeded.version = 1 ∧ (step (.call .verbatim updated) seeded).2.version = 2 ∧
      (step (.call .verbatim deleted) seeded).1 = .ok none ∧
      seeded.objects.find? (slotAt secrets sample.key) ≠ none ∧
      (step (.call .verbatim deleted) seeded).2.objects.find? (slotAt secrets sample.key) = none := by
  refine ⟨by decide, rfl, .update rfl, .delete _ _ ⟨rfl, rfl⟩, ⟨_, rfl⟩, rfl, rfl, rfl, ?_, ?_⟩
  · exact Option.some_ne_none _
  · exact Option.eq_none_iff_forall_ne_some.mpr fun _ h => (find?_remove h).1 rfl

end Uninstalled

end Reconciliation.Memory
