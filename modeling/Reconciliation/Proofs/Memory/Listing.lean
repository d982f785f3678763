import Reconciliation.Proofs.Memory.Serving
import Reconciliation.Proofs.Selector.Meaning

namespace Reconciliation

/-!
# What a list brings

* `Key.Precedes` — the order of keys, spelled out;
* `Filter.Narrows` — a filter that asks for whatever another one asks for;
* `Memory.listed` — the objects of a type that pass a filter, as they are found in a state;
* `Memory.get_key_eq_ok_iff` — an object is read under its own key exactly if it is held for its type;
* `Memory.listed_of_narrows` — a narrower filter takes objects out of what is listed;
* `Memory.Listing`, `Memory.list_agrees_with_get` — a list brings, in the order of their keys, just the
  objects that reads bring and that pass the filter.

A list goes through all slots and looks into the objects, while a read looks for one slot.  They agree
because every object of a reachable state is in the slot of its own type and key.
-/

/-! ### The order of keys -/

/-- One key stands before another: no namespace before every namespace, one namespace before another by
    its text, and in one place by the name. -/
def Key.Precedes (first second : Key) : Prop :=
  match first.scope, second.scope with
  | none, none => first.name.text < second.name.text
  | none, some _ => True
  | some _, none => False
  | some space, some other =>
    space.text < other.text ∨ (space = other ∧ first.name.text < second.name.text)

theorem compare_text_eq_lt {first second : String} :
    compare first second = .lt ↔ first < second :=
  compareOfLessAndEq_eq_lt

theorem Key.compare_eq_lt_iff {first second : Key} :
    compare first second = .lt ↔ first.Precedes second := by
  obtain ⟨scope, name⟩ := first
  obtain ⟨scope', name'⟩ := second
  have hcompare : compare (Key.mk scope name) (Key.mk scope' name') =
      (compare scope scope').then (compare name.text name'.text) := rfl
  rw [hcompare, Ordering.then_eq_lt, compare_text_eq_lt]
  match scope, scope' with
  | none, none => simp [Key.Precedes]
  | none, some space => exact iff_of_true (.inl rfl) trivial
  | some space, none => simp [Key.Precedes]
  | some space, some other =>
    have hspace : compare (some space) (some other) = compare space other := rfl
    have htext : compare space other = compare space.text other.text := rfl
    rw [hspace, Std.LawfulEqCmp.compare_eq_iff_eq, htext, compare_text_eq_lt]
    exact Iff.rfl

/-- Slots of one type are ordered by their keys. -/
theorem Slot.key_precedes {first second : Slot} (group : first.group = second.group)
    (kind : first.kind = second.kind) (h : compare first second = .lt) :
    first.key.Precedes second.key := by
  have hcompare : compare first second =
      (compare first.group second.group).then
        ((compare first.kind second.kind).then (compare first.key second.key)) := rfl
  have hgroup : compare first.group second.group = .eq := by rw [group]; exact Std.ReflCmp.compare_self
  have hkind : compare first.kind second.kind = .eq := by rw [kind]; exact Std.ReflCmp.compare_self
  rw [hcompare, hgroup, hkind] at h
  exact Key.compare_eq_lt_iff.mp h

/-! ### Narrower filters -/

/-- A filter that asks for the namespace and all labels that another one asks for, and perhaps for
    more. -/
structure Filter.Narrows (narrow wide : Filter) : Prop where
  scope : ∀ space, wide.scope = some space → narrow.scope = some space
  labels : ∀ name value, wide.labels.find? name = some value → narrow.labels.find? name = some value

theorem Filter.Narrows.admits {narrow wide : Filter} (h : narrow.Narrows wide) {object : Object}
    (passes : narrow.admits object = true) : wide.admits object = true := by
  obtain ⟨hscope, hlabels⟩ := Filter.admits_iff.mp passes
  exact Filter.admits_iff.mpr ⟨fun space hspace => hscope space (h.scope space hspace),
    fun name value hfind => hlabels name value (h.labels name value hfind)⟩

namespace Memory

/-! ### What is listed -/

/-- The objects of a type that pass a filter, in the order of their slots. -/
def listed (type : ResourceType) (filter : Filter) (m : Memory) : List Object :=
  (m.objects.filter fun slot object =>
    slot.group == type.group && slot.kind == type.kind && filter.admits object).values

variable {m : Memory} {type : ResourceType} {filter : Filter}

/-- A list brings what is listed, if the type is installed. -/
theorem list_of_quiet (quiet : m.faults = []) (type : ResourceType) (filter : Filter) :
    (list type filter m).1 =
      if m.knows type.group type.kind then .ok (listed type filter m)
      else .error (.notFound type.kind "*") := by
  rw [list, call_of_quiet quiet]
  show (if m.knows type.group type.kind then _ else _ : Except _ _ × Memory).1 = _
  split <;> rfl

theorem mem_listed {object : Object} :
    object ∈ listed type filter m ↔
      (∃ slot, m.objects.find? slot = some object ∧ slot.group = type.group ∧
        slot.kind = type.kind) ∧ filter.admits object = true := by
  simp only [listed, Table.mem_values_iff, Table.find?_filter, Bool.and_eq_true, beq_iff_eq]
  constructor
  · rintro ⟨slot, held, ⟨group, kind⟩, passes⟩
    exact ⟨⟨slot, held, group, kind⟩, passes⟩
  · rintro ⟨⟨slot, held, group, kind⟩, passes⟩
    exact ⟨slot, held, ⟨group, kind⟩, passes⟩

/-- An object that is held is held under its own key. -/
theorem Reachable.key_of_held (reachable : m.Reachable) {slot : Slot} {object : Object}
    (held : m.objects.find? slot = some object) : slot.key = object.key := by
  obtain ⟨gvk, _, rfl⟩ := (reachable.wellKept.kept held).filed
  rfl

/-- What is listed stands in the order of the keys. -/
theorem pairwise_listed (reachable : m.Reachable) (type : ResourceType) (filter : Filter) :
    (listed type filter m).Pairwise fun first second => first.key.Precedes second.key := by
  refine List.pairwise_map.mpr ?_
  have hsorted := (m.objects.filter fun slot object =>
    slot.group == type.group && slot.kind == type.kind && filter.admits object).sorted
  -- What is kept has one group and one kind, so that the order of slots is that of keys.
  refine List.Pairwise.imp_of_mem ?_ hsorted
  intro first second hfirst hsecond hlt
  obtain ⟨hheld, htype⟩ := Table.find?_filter.mp (Table.find?_eq_some_iff.mpr hfirst)
  obtain ⟨hheld', htype'⟩ := Table.find?_filter.mp (Table.find?_eq_some_iff.mpr hsecond)
  simp only [Bool.and_eq_true, beq_iff_eq] at htype htype'
  rw [← reachable.key_of_held hheld, ← reachable.key_of_held hheld']
  exact Slot.key_precedes (htype.1.1.trans htype'.1.1.symm) (htype.1.2.trans htype'.1.2.symm) hlt

/-- A narrower filter takes objects out of what is listed, and keeps the others in their order. -/
theorem listed_of_narrows {narrow : Filter} (h : narrow.Narrows filter) (type : ResourceType)
    (m : Memory) : listed type narrow m = (listed type filter m).filter narrow.admits := by
  rw [listed, listed, Table.values, Table.values, List.filter_map, Table.filter, Table.filter,
    List.filter_filter]
  refine congrArg _ (List.filter_congr fun entry _ => ?_)
  cases hnarrow : narrow.admits entry.2 with
  | false => simp [hnarrow]
  | true => simp [hnarrow, h.admits hnarrow]

/-! ### Lists and reads -/

/-- An object is read under its own key exactly if it is held somewhere for its type. -/
theorem get_key_eq_ok_iff (reachable : m.Reachable) (quiet : m.faults = [])
    (known : m.knows type.group type.kind = true) {object : Object} :
    (get type object.key m).1 = .ok object ↔
      ∃ slot, m.objects.find? slot = some object ∧ slot.group = type.group ∧
        slot.kind = type.kind := by
  rw [get_of_quiet quiet, visible_of_knows known]
  constructor
  · intro h
    cases hfind : m.objects.find? (slotAt type object.key) with
    | none =>
      rw [hfind] at h
      cases h
    | some held =>
      rw [hfind] at h
      cases h
      exact ⟨_, hfind, rfl, rfl⟩
  · rintro ⟨slot, held, hgroup, hkind⟩
    -- The slot has the key of the object, and is the one that the read looks for.
    have hslot : slotAt type object.key = slot := by
      rw [← reachable.key_of_held held, slotAt, ← hgroup, ← hkind]
    rw [hslot, held]
    rfl

/-- What a list of a type that is installed brings: objects in the order of their keys, an object
    exactly if a read of its key brings it and it passes the filter; and what is left of them under a
    narrower filter is what a list under that filter brings. -/
structure Listing (m : Memory) (type : ResourceType) (filter : Filter) (items : List Object) :
    Prop where
  ordered : items.Pairwise fun first second => first.key.Precedes second.key
  mem_iff : ∀ object, object ∈ items ↔
    (get type object.key m).1 = .ok object ∧
      (∀ space, filter.scope = some space → object.metadata.scope = some space) ∧
      ∀ name value, filter.labels.find? name = some value →
        object.metadata.labels.find? name = some value
  narrowed : ∀ narrow : Filter, narrow.Narrows filter →
    (list type narrow m).1 = .ok (items.filter narrow.admits)

/-- **Lists and reads agree.**  In every state of a run from the empty store in which no fault waits, a
    list fails exactly if the type is not installed, as every read of the type does; otherwise it brings
    just the objects that reads bring and that pass the filter, in the order of their keys. -/
theorem list_agrees_with_get (reachable : m.Reachable) (quiet : m.faults = [])
    (type : ResourceType) (filter : Filter) :
    (m.knows type.group type.kind = false →
      (list type filter m).1 = .error (.notFound type.kind "*") ∧
        ∀ key, (get type key m).1 = .error (.absent type.kind key)) ∧
      (m.knows type.group type.kind = true →
        ∃ items, (list type filter m).1 = .ok items ∧ Listing m type filter items) := by
  constructor
  · intro unknown
    have hlist : (list type filter m).1 = .error (.notFound type.kind "*") := by
      rw [list_of_quiet quiet, unknown]
      rfl
    refine ⟨hlist, fun key => ?_⟩
    rw [get_of_quiet quiet, visible, unknown]
    rfl
  · intro known
    have hlist (filter : Filter) : (list type filter m).1 = .ok (listed type filter m) := by
      rw [list_of_quiet quiet, if_pos known]
    refine ⟨listed type filter m, hlist filter, pairwise_listed reachable type filter, ?_, ?_⟩
    · intro object
      rw [mem_listed, ← get_key_eq_ok_iff reachable quiet known, Filter.admits_iff]
      exact Iff.rfl
    · intro narrow hnarrows
      rw [hlist, listed_of_narrows hnarrows]

namespace Shelf

open Specimen

/-- An object with a label. -/
def labelled (key : Key) (app : String) : Object := (secret key).withLabel "app" app

/-- Secrets in two namespaces and in none, in no order. -/
def filling : List Event :=
  [.insert .verbatim (labelled (key "b") "web"), .insert .verbatim (labelled (.cluster "d") "web"),
    .insert .verbatim (labelled (.namespaced "cd" "c") "web"),
    .insert .verbatim (labelled (key "a") "db")]

/-- The filter for what is labelled `app=web` in one namespace. -/
def web : Filter := ⟨some ⟨"ns"⟩, .ofList [("app", "web")]⟩

set_option maxRecDepth 4000 in
/-- All secrets are listed in the order of their keys, and a namespace and a label take some out. -/
theorem secrets_listed :
    (empty.after filling).Reachable ∧ (empty.after filling).faults = [] ∧
    ∃ items, (list secrets .all (empty.after filling)).1 = .ok items ∧
      items.map (·.key.display) = ["d", "cd/c", "ns/a", "ns/b"] ∧
      (list secrets web (empty.after filling)).1 = .ok (items.filter web.admits) ∧
      (items.filter web.admits).map (·.key.display) = ["ns/b"] := by
  have hreachable : (empty.after filling).Reachable := ⟨filling, rfl⟩
  have hquiet : (empty.after filling).faults = [] := rfl
  obtain ⟨-, hknown⟩ := list_agrees_with_get hreachable hquiet secrets .all
  obtain ⟨items, hlist, hlisting⟩ := hknown rfl
  have hitems : items = listed secrets .all (empty.after filling) := by
    have hsame := hlist.symm.trans (list_of_quiet hquiet secrets .all)
    exact Except.ok.inj hsame
  have hnarrows : web.Narrows .all := ⟨fun _ h => (by cases h), fun _ _ h => (by cases h)⟩
  refine ⟨hreachable, hquiet, items, hlist, ?_, hlisting.narrowed web hnarrows, ?_⟩
  · rw [hitems]
    decide
  · rw [hitems]
    decide

end Shelf

end Memory

end Reconciliation
