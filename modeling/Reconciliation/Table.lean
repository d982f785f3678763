namespace Reconciliation

/-!
# Sorted tables

Finite maps that are listed in the order of their keys:

* `Entries.find?`, `Entries.insert` — look-up and insertion in a list of keyed entries;
* `Table` — a list of entries whose keys strictly increase;
* `Table.find?`, `Table.insert`, `Table.erase`, `Table.filter`, `Table.map` — the operations;
* `Table.ofList` — a table of listed entries, where the last one of a key counts.

The main statements say what an operation does to every look-up: `Table.find?_insert`,
`Table.find?_erase`, and that a table is known by its look-ups, `Table.ext_find?`.
-/

variable {κ α β : Type} [Ord κ]

/-! ### Lists of entries -/

namespace Entries

/-- The value at the first entry of the key. -/
def find? (key : κ) : List (κ × α) → Option α
  | [] => none
  | (k, v) :: rest => if compare key k = .eq then some v else find? key rest

/-- The entries with `value` at `key`: in place of the key's entry, or before the first greater
    key. -/
def insert (key : κ) (value : α) : List (κ × α) → List (κ × α)
  | [] => [(key, value)]
  | (k, v) :: rest =>
    match compare key k with
    | .lt => (key, value) :: (k, v) :: rest
    | .eq => (key, value) :: rest
    | .gt => (k, v) :: insert key value rest

/-- The entries inserted one after the other, so that the last one of a key counts. -/
def ofList (entries : List (κ × α)) : List (κ × α) :=
  entries.foldl (fun done entry => insert entry.1 entry.2 done) []

/-- The keys strictly increase. -/
def Sorted (entries : List (κ × α)) : Prop :=
  entries.Pairwise fun a b => compare a.1 b.1 = .lt

theorem mem_insert {key : κ} {value : α} {entries : List (κ × α)} {e : κ × α}
    (h : e ∈ insert key value entries) : e = (key, value) ∨ e ∈ entries := by
  induction entries with
  | nil => simpa [insert] using h
  | cons head rest ih =>
    rw [insert] at h
    split at h <;> simp only [List.mem_cons] at h ⊢ <;> grind

section
variable [Std.TransOrd κ]

theorem sorted_insert (key : κ) (value : α) {entries : List (κ × α)} (h : Sorted entries) :
    Sorted (insert key value entries) := by
  induction entries with
  | nil => simp [insert, Sorted]
  | cons head rest ih =>
    obtain ⟨hhead, hrest⟩ := List.pairwise_cons.mp h
    rw [insert]
    split
    · rename_i hlt
      refine List.pairwise_cons.mpr ⟨fun e he => ?_, h⟩
      rcases List.mem_cons.mp he with rfl | he
      · exact hlt
      · exact Std.TransCmp.lt_trans hlt (hhead e he)
    · rename_i heq
      exact List.pairwise_cons.mpr ⟨fun e he => Std.TransCmp.lt_of_eq_of_lt heq (hhead e he), hrest⟩
    · rename_i hgt
      refine List.pairwise_cons.mpr ⟨fun e he => ?_, ih hrest⟩
      rcases mem_insert he with rfl | he
      · exact Std.OrientedCmp.lt_of_gt hgt
      · exact hhead e he

/-- Sorted lists with the same entries are the same. -/
theorem eq_of_mem_iff {s t : List (κ × α)} (hs : Sorted s) (ht : Sorted t)
    (h : ∀ e, e ∈ s ↔ e ∈ t) : s = t := by
  induction s generalizing t with
  | nil => exact (List.eq_nil_iff_forall_not_mem.mpr fun e he => by simpa using (h e).mpr he).symm
  | cons a s ih =>
    cases t with
    | nil => exact absurd ((h a).mp List.mem_cons_self) List.not_mem_nil
    | cons b t =>
      obtain ⟨hhead, hs'⟩ := List.pairwise_cons.mp hs
      obtain ⟨khead, ht'⟩ := List.pairwise_cons.mp ht
      -- No key is smaller than itself, so a head does not come again.
      have hlt : ∀ {x y : κ}, compare x y = .lt → compare y x ≠ .lt := fun hxy hyx => by
        rw [Std.OrientedCmp.gt_of_lt hxy] at hyx
        cases hyx
      have hab : a = b := by
        rcases List.mem_cons.mp ((h a).mp List.mem_cons_self) with rfl | ha
        · rfl
        rcases List.mem_cons.mp ((h b).mpr List.mem_cons_self) with rfl | hb
        · rfl
        exact absurd (khead a ha) (hlt (hhead b hb))
      subst hab
      refine congrArg (a :: ·) (ih hs' ht' fun e => ?_)
      have he := h e
      simp only [List.mem_cons] at he
      constructor
      · intro hm
        rcases he.mp (Or.inr hm) with rfl | hm'
        · exact absurd (hhead e hm) (hlt (hhead e hm))
        · exact hm'
      · intro hm
        rcases he.mpr (Or.inr hm) with rfl | hm'
        · exact absurd (khead e hm) (hlt (khead e hm))
        · exact hm'

theorem sorted_ofList (entries : List (κ × α)) : Sorted (ofList entries) := by
  suffices ∀ done : List (κ × α), Sorted done →
      Sorted (entries.foldl (fun done entry => insert entry.1 entry.2 done) done) from
    this [] List.Pairwise.nil
  induction entries with
  | nil => exact fun _ h => h
  | cons e rest ih => exact fun done h => ih _ (sorted_insert e.1 e.2 h)

end

section
variable [Std.LawfulEqOrd κ]

@[simp] theorem find?_insert_self (key : κ) (value : α) (entries : List (κ × α)) :
    find? key (insert key value entries) = some value := by
  induction entries with
  | nil => simp [insert, find?, Std.ReflCmp.compare_self]
  | cons head rest ih =>
    rw [insert]
    split
    · simp [find?, Std.ReflCmp.compare_self]
    · simp [find?, Std.ReflCmp.compare_self]
    · rename_i hgt
      simp [find?, hgt, ih]

theorem find?_insert_of_ne {key other : κ} (h : other ≠ key) (value : α)
    (entries : List (κ × α)) : find? other (insert key value entries) = find? other entries := by
  have hne : compare other key ≠ .eq := fun heq => h (Std.LawfulEqOrd.eq_of_compare heq)
  induction entries with
  | nil => simp [insert, find?, hne]
  | cons head rest ih =>
    rw [insert]
    split
    · simp [find?, hne]
    · rename_i heq
      have : key = head.1 := Std.LawfulEqOrd.eq_of_compare heq
      simp [find?, ← this, hne]
    · simp only [find?, ih]

end

end Entries

/-! ### Tables -/

/-- A finite map, as the list of its entries in the order of their keys. -/
structure Table (κ α : Type) [Ord κ] where
  entries : List (κ × α)
  sorted : Entries.Sorted entries

namespace Table

instance [DecidableEq κ] [DecidableEq α] : DecidableEq (Table κ α) := fun s t =>
  decidable_of_iff (s.entries = t.entries) <| by cases s; cases t; simp

@[ext] theorem ext {s t : Table κ α} (h : s.entries = t.entries) : s = t := by
  cases s; cases t; simp_all

/-- The table without entries. -/
def empty : Table κ α := ⟨[], List.Pairwise.nil⟩

instance : Inhabited (Table κ α) := ⟨empty⟩

/-- Number of entries. -/
def size (t : Table κ α) : Nat := t.entries.length

/-- Whether there is no entry. -/
def isEmpty (t : Table κ α) : Bool := t.entries.isEmpty

/-- The value at the key. -/
def find? (t : Table κ α) (key : κ) : Option α := Entries.find? key t.entries

/-- Whether the key has a value. -/
def contains (t : Table κ α) (key : κ) : Bool := (t.find? key).isSome

/-- The values in the order of their keys. -/
def values (t : Table κ α) : List α := t.entries.map (·.2)

/-- The table with `value` at `key`. -/
def insert [Std.TransOrd κ] (t : Table κ α) (key : κ) (value : α) : Table κ α :=
  ⟨Entries.insert key value t.entries, Entries.sorted_insert key value t.sorted⟩

/-- The entries that satisfy `keep`. -/
def filter (t : Table κ α) (keep : κ → α → Bool) : Table κ α :=
  ⟨t.entries.filter fun e => keep e.1 e.2, List.Pairwise.filter _ t.sorted⟩

/-- The table without the key. -/
def erase (t : Table κ α) (key : κ) : Table κ α :=
  t.filter fun k _ => compare key k ≠ .eq

/-- The table with `f` applied to each value. -/
def map (t : Table κ α) (f : α → β) : Table κ β :=
  ⟨t.entries.map fun e => (e.1, f e.2), by
    have h := t.sorted
    unfold Entries.Sorted at h ⊢
    exact List.pairwise_map.mpr h⟩

/-- The table of the listed entries, where the last one of a key counts. -/
def ofList [Std.TransOrd κ] (entries : List (κ × α)) : Table κ α :=
  ⟨Entries.ofList entries, Entries.sorted_ofList entries⟩

/-! ### What the operations do to a look-up -/

@[simp] theorem find?_empty (key : κ) : (empty : Table κ α).find? key = none := rfl

theorem find?_map (t : Table κ α) (f : α → β) (key : κ) :
    (t.map f).find? key = (t.find? key).map f := by
  show Entries.find? key (t.entries.map fun e => (e.1, f e.2)) =
    (Entries.find? key t.entries).map f
  induction t.entries with
  | nil => rfl
  | cons e rest ih =>
    rw [List.map_cons, Entries.find?, Entries.find?]
    split
    · rfl
    · exact ih

section
variable [Std.LawfulEqOrd κ]

theorem find?_insert [Std.TransOrd κ] [DecidableEq κ] (t : Table κ α) (key other : κ) (value : α) :
    (t.insert key value).find? other = if other = key then some value else t.find? other := by
  split
  · rename_i h
    rw [h]
    exact Entries.find?_insert_self key value t.entries
  · rename_i h
    exact Entries.find?_insert_of_ne h value t.entries

/-- The key is found with a value exactly when the pair is an entry. -/
theorem find?_eq_some_iff {t : Table κ α} {key : κ} {value : α} :
    t.find? key = some value ↔ (key, value) ∈ t.entries := by
  obtain ⟨entries, h⟩ := t
  unfold find?
  induction entries with
  | nil => simp [Entries.find?]
  | cons e rest ih =>
    obtain ⟨hhead, hrest⟩ := List.pairwise_cons.mp h
    rw [Entries.find?]
    split
    · rename_i heq
      have hk : key = e.1 := Std.LawfulEqOrd.eq_of_compare heq
      constructor
      · rintro ⟨rfl⟩
        exact List.mem_cons.mpr (Or.inl (by rw [hk]))
      · intro hm
        rcases List.mem_cons.mp hm with rfl | hm
        · rfl
        · have := hhead _ hm
          rw [show compare e.1 key = .eq by rw [hk]; exact Std.ReflCmp.compare_self] at this
          cases this
    · rename_i hne
      rw [ih hrest, List.mem_cons]
      constructor
      · exact Or.inr
      · rintro (rfl | hm)
        · exact absurd Std.ReflCmp.compare_self hne
        · exact hm

/-- A table is known by its look-ups. -/
theorem ext_find? [Std.TransOrd κ] {s t : Table κ α} (h : ∀ key, s.find? key = t.find? key) :
    s = t := by
  apply ext
  refine Entries.eq_of_mem_iff s.sorted t.sorted fun e => ?_
  rw [← find?_eq_some_iff, ← find?_eq_some_iff, h]

/-- The filtered table finds what the table finds and the test keeps. -/
theorem find?_filter {t : Table κ α} {keep : κ → α → Bool} {key : κ} {value : α} :
    (t.filter keep).find? key = some value ↔ t.find? key = some value ∧ keep key value := by
  rw [find?_eq_some_iff, find?_eq_some_iff]
  exact List.mem_filter

theorem find?_erase [DecidableEq κ] (t : Table κ α) (key other : κ) :
    (t.erase key).find? other = if other = key then none else t.find? other := by
  apply Option.ext
  intro value
  rw [erase, find?_filter]
  split
  · rename_i h
    simp [h, Std.ReflCmp.compare_self]
  · rename_i h
    have : compare key other ≠ .eq := fun heq => h (Std.LawfulEqOrd.eq_of_compare heq).symm
    simp [this]

end

/-- A test cuts a table into two. -/
theorem size_filter_add_size_filter_not (t : Table κ α) (test : κ → α → Bool) :
    (t.filter test).size + (t.filter fun key value => !test key value).size = t.size := by
  simpa [size, filter, List.countP_eq_length_filter] using
    (List.length_eq_countP_add_countP (fun e => test e.1 e.2) (l := t.entries)).symm

end Table

end Reconciliation
