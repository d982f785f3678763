import Reconciliation.Store.Basic

namespace Reconciliation

/-!
# Slots and dependents

* `Slot` — the place of an object in a store: its group, its kind and its key;
* `Object.refersTo` — whether an object names an owner by its identity;
* `cascade` — the objects left when all dependents of some owners are removed;
* `orphan` — the objects with their references to one owner removed.

Slots are ordered by group, kind and key.  A version is no part of a slot.
-/

/-- The place of an object in a store. -/
structure Slot where
  group : String
  kind : String
  key : Key
deriving DecidableEq, Repr, Inhabited

namespace Slot

instance : Ord Slot :=
  ⟨compareLex (compareOn Slot.group) (compareLex (compareOn Slot.kind) (compareOn Slot.key))⟩

instance : Std.TransOrd Slot :=
  inferInstanceAs (Std.TransCmp
    (compareLex (compareOn Slot.group) (compareLex (compareOn Slot.kind) (compareOn Slot.key))))

instance : Std.LawfulEqOrd Slot where
  eq_of_compare {a b} h := by
    have ⟨hg, h⟩ := Ordering.then_eq_eq.mp h
    have ⟨hk, h⟩ := Ordering.then_eq_eq.mp h
    have hg : a.group = b.group := Std.LawfulEqOrd.eq_of_compare hg
    have hk : a.kind = b.kind := Std.LawfulEqOrd.eq_of_compare hk
    have h : a.key = b.key := Std.LawfulEqOrd.eq_of_compare h
    cases a; cases b
    simp_all

end Slot

/-- Whether one of the owners of the object has the identity, as a controller or not. -/
def Object.refersTo (object : Object) (uid : Uid) : Bool :=
  object.metadata.owners.any fun reference => reference.uid == uid

/-- The objects without the dependents of the owners, their dependents, and so on.  Of the owners
    that wait, the first is dealt with first, and the objects removed for it wait next. -/
def cascade (objects : Table Slot Object) : List Uid → Table Slot Object
  | [] => objects
  | owner :: waiting =>
    let dependents := objects.filter fun _ object => object.refersTo owner
    let kept := objects.filter fun _ object => !object.refersTo owner
    cascade kept (dependents.values.reverse.filterMap (·.metadata.uid) ++ waiting)
termination_by waiting => (objects.size, waiting.length)
decreasing_by
  have hsum : dependents.size + kept.size = objects.size :=
    objects.size_filter_add_size_filter_not fun _ object => object.refersTo owner
  rcases Nat.eq_zero_or_pos dependents.size with h | h
  -- Nothing depends on the owner: as many objects, one owner less.
  · have hnil : dependents.entries = [] := List.eq_nil_of_length_eq_zero h
    rw [show kept.size = objects.size by omega]
    apply Prod.Lex.right
    show (dependents.values.reverse.filterMap _ ++ waiting).length < _
    simp [Table.values, hnil]
  -- Some object depends on it: fewer objects.
  · have hlt : kept.size < objects.size := by omega
    exact Prod.Lex.left _ _ hlt

/-- The objects with every reference to the owner removed. -/
def orphan (objects : Table Slot Object) (owner : Uid) : Table Slot Object :=
  objects.map fun object =>
    let others := object.metadata.owners.filter fun reference => reference.uid != owner
    { object with metadata := { object.metadata with owners := others } }

end Reconciliation
