import Reconciliation.Proofs.Memory.Filing

namespace Reconciliation.Memory

/-!
# The store in memory while no fault waits

* `Event.uses` — an event that is a call or seeds an object, and so neither queues a fault nor installs
  types;
* `Event.installs`, `Event.reads` — an event that installs types, and one that only reads;
* `Detached`, `exists_act` — what a call does when it acts, whatever calls and faults there are;
* `settings_of_uses`, `known_of_not_installs` — which events leave the faults and the installed types as
  they are;
* `Belongs` — an object whose declared type and key address a slot;
* `visible` — what a read of a key finds;
* `step_get`, `step_create`, `step_update_of_same` and so on — what each call answers and does, by
  what its slot holds.
-/

/-- An event that is a call, or that seeds an object. -/
def Event.uses : Event → Bool
  | .call _ _ | .insert _ _ => true
  | .failNext _ _ | .restrict _ => false

/-- An event that changes which types are installed. -/
def Event.installs : Event → Bool
  | .restrict _ => true
  | .call _ _ | .insert _ _ | .failNext _ _ => false

/-- An event that only reads. -/
def Event.reads : Event → Bool
  | .call _ asked => asked.reads
  | _ => false

theorem Event.uses_of_reads {event : Event} (h : event.reads = true) : event.uses = true := by
  cases event with
  | call stamp call => rfl
  | _ => cases h

/-- A read leaves every object as it is. -/
theorem Change.objects_of_reads {m m' : Memory} {event : Event} {answer : Store.Answer}
    (c : Change m event answer m') (h : event.reads = true) : m'.objects = m.objects := by
  cases c with
  | keep _ objects _ => exact objects
  | write puts _ _ _ => cases puts <;> cases h
  | remove _ _ _ _ => cases h

/-- An object whose declared type and key address a slot. -/
def Belongs (slot : Slot) (object : Object) : Prop :=
  ∃ gvk, object.gvk = .ok gvk ∧ slotOf gvk object = slot

theorem Belongs.key_eq {type : ResourceType} {key : Key} {object : Object}
    (h : Belongs (slotAt type key) object) : object.key = key := by
  obtain ⟨gvk, _, hslot⟩ := h
  exact congrArg Slot.key hslot

/-- An object with the type and the key of a kept one belongs where that one is. -/
theorem Kept.belongs {version : Nat} {slot : Slot} {object next : Object}
    (h : Kept version slot object) (typed : next.gvk = object.gvk) (keyed : next.key = object.key) :
    Belongs slot next := by
  obtain ⟨gvk, hgvk, rfl⟩ := h.filed
  exact ⟨gvk, typed.trans hgvk, by rw [slotOf, slotOf, keyed]⟩

/-- The state in which one more call of an operation is counted. -/
def counted (op : Operation) (m : Memory) : Memory := { m with calls := m.calls.bump op }

/-- A call for which no fault waits acts. -/
theorem call_of_unfaulted {m : Memory} {op : Operation} (unfaulted : takeFault? op m.faults = none)
    {α : Type} (act : Memory → Except StoreError α × Memory) : call op act m = act (m.counted op) := by
  rcases call_cases op act m with ⟨error, rest, htake, _⟩ | ⟨_, hcall⟩
  · rw [unfaulted] at htake
    cases htake
  · exact hcall

/-- Without faults a call acts. -/
theorem call_of_quiet {m : Memory} (quiet : m.faults = []) {α : Type} (op : Operation)
    (act : Memory → Except StoreError α × Memory) : call op act m = act (m.counted op) :=
  call_of_unfaulted (by rw [quiet]; rfl) act

/-- What a call brings may be renamed where it acts. -/
theorem map_call {α β : Type} (bring : α → β) (op : Operation)
    (act : Memory → Except StoreError α × Memory) (m : Memory) :
    mapAnswer (Except.map bring) (call op act m) =
      call op (fun m => mapAnswer (Except.map bring) (act m)) m := by
  unfold call
  dsimp only
  split <;> rfl

/-! ### What stays as it is -/

/-- The faults that wait and the types that are installed are the same in both states. -/
def SameSettings (m m' : Memory) : Prop := m'.faults = m.faults ∧ m'.known = m.known

theorem SameSettings.knows {m m' : Memory} (h : SameSettings m m') (group kind : String) :
    m'.knows group kind = m.knows group kind := by
  rw [Memory.knows, Memory.knows, h.2]

/-- An action that does not look at the calls that are counted or at the faults, and that leaves both, and
    the types that are installed. -/
def Detached (act : Memory → Store.Answer × Memory) : Prop :=
  ∀ m calls faults,
    act { m with calls := calls, faults := faults } =
      ((act m).1, { (act m).2 with calls := calls, faults := faults }) ∧
    (act m).2.known = m.known

namespace Detached

variable {act : Memory → Store.Answer × Memory}

theorem calls_eq (h : Detached act) (m : Memory) : (act m).2.calls = m.calls := by
  rw [(h m m.calls m.faults).1]

theorem settings (h : Detached act) (m : Memory) : SameSettings m (act m).2 :=
  ⟨by rw [(h m m.calls m.faults).1], (h m m.calls m.faults).2⟩

end Detached

/-- What a call does when it acts is detached. -/
theorem exists_act (stamp : Stamp) (asked : Store.Call) :
    ∃ act : Memory → Store.Answer × Memory, Detached act ∧
      ∀ m, step (.call stamp asked) m = call asked.operation act m := by
  cases asked with
  | get type key =>
    refine ⟨_, fun m calls faults => ?_, fun m => map_call _ _ _ m⟩
    have hknows : Memory.knows { m with calls := calls, faults := faults } = m.knows := rfl
    dsimp only [mapAnswer]
    rw [hknows]
    split
    · split <;> exact ⟨rfl, rfl⟩
    · exact ⟨rfl, rfl⟩
  | list type filter =>
    refine ⟨_, fun m calls faults => ?_, fun m => map_call _ _ _ m⟩
    have hknows : Memory.knows { m with calls := calls, faults := faults } = m.knows := rfl
    dsimp only [mapAnswer]
    rw [hknows]
    split <;> exact ⟨rfl, rfl⟩
  | create object =>
    refine ⟨_, fun m calls faults => ?_, fun m => map_call _ _ _ m⟩
    have hknows : Memory.knows { m with calls := calls, faults := faults } = m.knows := rfl
    dsimp only [mapAnswer]
    split
    · exact ⟨rfl, rfl⟩
    · exact ⟨rfl, rfl⟩
    · rw [hknows]
      split
      · exact ⟨rfl, rfl⟩
      · split <;> exact ⟨rfl, rfl⟩
  | update object =>
    refine ⟨_, fun m calls faults => ?_, fun m => map_call _ _ _ m⟩
    dsimp only [mapAnswer]
    split
    · exact ⟨rfl, rfl⟩
    · split
      · exact ⟨rfl, rfl⟩
      · exact ⟨rfl, rfl⟩
      · split <;> exact ⟨rfl, rfl⟩
  | delete type key options =>
    refine ⟨_, fun m calls faults => ?_, fun m => map_call _ _ _ m⟩
    dsimp only [mapAnswer]
    split
    · exact ⟨rfl, rfl⟩
    · split
      · split <;> exact ⟨rfl, rfl⟩
      · exact ⟨rfl, rfl⟩

theorem sameSettings_insert (stamp : Stamp) (object : Object) (m : Memory) :
    SameSettings m (step (.insert stamp object) m).2 := by
  cases hgvk : object.gvk <;> simp only [step, insert, hgvk, mapAnswer] <;> exact ⟨rfl, rfl⟩

/-- **Step.** While no fault waits, calls and seeds keep the settings. -/
theorem settings_of_uses (event : Event) (uses : event.uses = true) (m : Memory)
    (quiet : m.faults = []) : SameSettings m (step event m).2 := by
  cases event with
  | call stamp asked =>
    obtain ⟨act, hdetached, hstep⟩ := exists_act stamp asked
    rw [hstep, call_of_quiet quiet]
    exact hdetached.settings (m.counted asked.operation)
  | insert stamp object => exact sameSettings_insert stamp object m
  | failNext op error => cases uses
  | restrict types => cases uses

/-- **Step.** Only a restriction changes which types are installed. -/
theorem known_of_not_installs (event : Event) (keeps : event.installs = false) (m : Memory) :
    (step event m).2.known = m.known := by
  cases event with
  | call stamp asked =>
    obtain ⟨act, hdetached, hstep⟩ := exists_act stamp asked
    rw [hstep]
    rcases call_cases asked.operation act m with ⟨error, rest, _, hcall⟩ | ⟨_, hcall⟩
    · rw [hcall]
    · rw [hcall]
      exact (hdetached.settings (m.counted asked.operation)).2
  | insert stamp object => exact (sameSettings_insert stamp object m).2
  | failNext op error => rfl
  | restrict types => cases keeps

/-! ### What the calls answer -/

/-- What a read of a key finds: the object in its slot, if the type is installed. -/
def visible (type : ResourceType) (key : Key) (m : Memory) : Option Object :=
  if m.knows type.group type.kind then m.objects.find? (slotAt type key) else none

theorem visible_of_knows {m : Memory} {type : ResourceType} (known : m.knows type.group type.kind = true)
    (key : Key) : m.visible type key = m.objects.find? (slotAt type key) := by
  rw [visible, if_pos known]

/-- What is visible is held, and its type is installed. -/
theorem visible_eq_some_iff {m : Memory} {type : ResourceType} {key : Key} {object : Object} :
    m.visible type key = some object ↔
      m.knows type.group type.kind = true ∧ m.objects.find? (slotAt type key) = some object := by
  unfold visible
  split <;> simp_all

/-- What is not in its slot is not visible. -/
theorem visible_of_none {m : Memory} {type : ResourceType} {key : Key}
    (h : m.objects.find? (slotAt type key) = none) : m.visible type key = none := by
  rw [visible, h, ite_self]

/-- What a read finds depends on the objects and the installed types alone. -/
theorem visible_congr {m m' : Memory} (type : ResourceType) (key : Key)
    (objects : m'.objects = m.objects) (settings : SameSettings m m') :
    m'.visible type key = m.visible type key := by
  rw [visible, visible, objects, settings.knows]

/-- A read finds what is visible. -/
theorem get_of_quiet {m : Memory} (quiet : m.faults = []) (type : ResourceType) (key : Key) :
    get type key m = ((m.visible type key).elim (.error (.absent type.kind key)) .ok,
      m.counted .get) := by
  rw [get, call_of_quiet quiet]
  show (if m.knows type.group type.kind then _ else _) = _
  unfold visible
  split
  · cases hfind : m.objects.find? (slotAt type key) with
    | none => simp only [counted, hfind, Option.elim]
    | some object => simp only [counted, hfind, Option.elim]
  · rfl

/-- A create that succeeds was given a proper name and an installed type, and has filled a free slot. -/
theorem create_eq_ok {stamp : Stamp} {object stored : Object} {m : Memory}
    (h : (create stamp object m).1 = .ok stored) :
    ∃ gvk, object.gvk = .ok gvk ∧ validateName object.metadata.name.text = .ok () ∧
      m.knows gvk.group gvk.kind = true ∧ m.objects.find? (slotOf gvk object) = none ∧
      stored = stamped stamp (slotOf gvk object) (m.version + 1) (asNew object) ∧
      (create stamp object m).2 = { m.counted .create with
        version := m.version + 1, objects := m.objects.insert (slotOf gvk object) stored } := by
  unfold create at h ⊢
  rcases call_cases .create _ m with ⟨error, rest, _, hcall⟩ | ⟨_, hcall⟩
  · rw [hcall] at h
    cases h
  · rw [hcall] at h ⊢
    dsimp only at h ⊢
    -- Whatever is wrong with the object, there is no success.
    cases hgvk : object.gvk with
    | error error =>
      rw [hgvk] at h
      cases h
    | ok gvk =>
      cases hname : validateName object.metadata.name.text with
      | error error =>
        rw [hgvk, hname] at h
        cases h
      | ok _ =>
        rw [hgvk, hname] at h
        dsimp only at h ⊢
        split at h
        · cases h
        · rename_i hknown
          split at h
          · cases h
          · rename_i hfree
            rw [if_neg hknown, if_neg hfree]
            cases h
            rw [Bool.not_eq_true', Bool.not_eq_false] at hknown
            exact ⟨gvk, rfl, rfl, hknown, by simpa [Table.contains] using hfree, rfl, rfl⟩

section Calls

variable {m : Memory} (quiet : m.faults = []) (stamp : Stamp)
include quiet

theorem step_get (type : ResourceType) (key : Key) :
    step (.call stamp (.get type key)) m =
      ((m.visible type key).elim (.error (.absent type.kind key)) fun object =>
        .ok (some (.object object)), m.counted .get) := by
  show mapAnswer _ (get type key m) = _
  rw [get_of_quiet quiet]
  cases m.visible type key <;> rfl

/-- A create of an object with a valid name is refused if its slot is taken, and else writes it. -/
theorem step_create {type : ResourceType} {key : Key} {object : Object}
    (known : m.knows type.group type.kind = true) (belongs : Belongs (slotAt type key) object)
    (named : validateName key.name.text = .ok ()) :
    step (.call stamp (.create object)) m =
      match m.objects.find? (slotAt type key) with
      | some _ => (.error (.alreadyExists type.kind key.display), m.counted .create)
      | none =>
        let stored := stamped stamp (slotAt type key) (m.version + 1) (asNew object)
        (.ok (some (.object stored)),
          { m.counted .create with
            version := m.version + 1, objects := m.objects.insert (slotAt type key) stored }) := by
  obtain ⟨gvk, hgvk, hslot⟩ := belongs
  have hgroup : gvk.group = type.group := congrArg Slot.group hslot
  have hkind : gvk.kind = type.kind := congrArg Slot.kind hslot
  have hkey : object.key = key := congrArg Slot.key hslot
  have hname : validateName object.metadata.name.text = .ok () := by
    rw [← named, ← hkey]
    rfl
  have hknown : (m.counted .create).knows type.group type.kind = true := known
  show mapAnswer _ (call .create _ m) = _
  rw [call_of_quiet quiet]
  simp only [hgvk, hname, hslot, hgroup, hkind, hkey, hknown, Bool.not_true, Bool.false_eq_true,
    if_false]
  cases hfind : m.objects.find? (slotAt type key) with
  | none =>
    have hfree : (m.counted .create).objects.contains (slotAt type key) = false := by
      rw [Table.contains, counted, hfind]
      rfl
    rw [hfree]
    rfl
  | some held =>
    have htaken : (m.counted .create).objects.contains (slotAt type key) = true := by
      rw [Table.contains, counted, hfind]
      rfl
    rw [htaken]
    rfl

/-- An update with the token that is stored replaces the object. -/
theorem step_update_of_same {slot : Slot} {object current : Object} {token : ResourceVersion}
    (belongs : Belongs slot object) (held : m.objects.find? slot = some current)
    (own : object.metadata.version = some token) (same : current.metadata.version = some token) :
    step (.call stamp (.update object)) m =
      let stored := stamped stamp slot (m.version + 1) (inPlaceOf current object)
      (.ok (some (.object stored)),
        { m.counted .update with
          version := m.version + 1, objects := m.objects.insert slot stored }) := by
  obtain ⟨gvk, hgvk, hslot⟩ := belongs
  have hheld : (m.counted .update).objects.find? slot = some current := held
  show mapAnswer _ (call .update _ m) = _
  rw [call_of_quiet quiet]
  simp only [hgvk, hslot, hheld, own, same, if_true]
  rfl

/-- An update with another token is a conflict. -/
theorem step_update_of_ne {type : ResourceType} {key : Key} {object current : Object}
    {token : ResourceVersion} (belongs : Belongs (slotAt type key) object)
    (held : m.objects.find? (slotAt type key) = some current)
    (own : object.metadata.version = some token) (stale : current.metadata.version ≠ some token) :
    ∃ reason, step (.call stamp (.update object)) m =
      (.error (.conflict key.display reason), m.counted .update) := by
  obtain ⟨gvk, hgvk, hslot⟩ := belongs
  have hkey : object.key = key := congrArg Slot.key hslot
  have hheld : (m.counted .update).objects.find? (slotAt type key) = some current := held
  refine ⟨"object has been modified (have " ++ token.text ++ ", store has " ++
    current.metadata.version.elim "none" (·.text) ++ ")", ?_⟩
  show mapAnswer _ (call .update _ m) = _
  rw [call_of_quiet quiet]
  simp only [hgvk, hslot, hheld, hkey, own, if_neg stale]
  rfl

/-- A delete of an object that is not there fails. -/
theorem step_delete_of_none {type : ResourceType} {key : Key} (options : DeleteOptions)
    (free : m.objects.find? (slotAt type key) = none) :
    step (.call stamp (.delete type key options)) m =
      (.error (.absent type.kind key), m.counted .delete) := by
  have hfree : (m.counted .delete).objects.find? (slotAt type key) = none := free
  show mapAnswer _ (call .delete _ m) = _
  rw [call_of_quiet quiet]
  simp only [hfree]
  rfl

/-- A delete that is not guarded, or guarded by the token that is stored, removes the object. -/
theorem step_delete_of_guarded {type : ResourceType} {key : Key} (options : DeleteOptions)
    {current : Object} (held : m.objects.find? (slotAt type key) = some current)
    (guarded : ∀ token, options.precondition = some token → current.metadata.version = some token) :
    step (.call stamp (.delete type key options)) m =
      let policy := options.propagation.getD .background
      (.ok none, { m.counted .delete with
        objects := settle policy current (m.objects.erase (slotAt type key)) }) := by
  have hheld : (m.counted .delete).objects.find? (slotAt type key) = some current := held
  show mapAnswer _ (call .delete _ m) = _
  rw [call_of_quiet quiet]
  cases hguard : options.precondition with
  | none =>
    simp only [hheld]
    rfl
  | some token =>
    simp only [hheld, if_pos (guarded token hguard)]
    rfl

end Calls

end Reconciliation.Memory
