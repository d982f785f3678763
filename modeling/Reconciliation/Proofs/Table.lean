import Mathlib.Algebra.Ring.Nat
import Reconciliation.Table

namespace Reconciliation

/-!
# Tables that are made of entries

* `Entries.sum_insert` — what an insertion does to a sum over the values;
* `Entries.find?_ofList` — of all entries of a key the last one counts;
* `Entries.mem_ofList` — nothing is in a table that is not in the list that it was made of;
* `Table.mem_values_iff` — the values of a table are those that are found;
* `Table.insert_insert`, `Table.insert_of_find?` — a key that is written twice, or with what it has;
* `Table.ofList_entries` — a table is made again of its entries.
-/

namespace Entries

variable {κ α : Type} [Ord κ]

/-! ### Entries that are found -/

theorem find?_append (key : κ) (entries more : List (κ × α)) :
    find? key (entries ++ more) = (find? key entries).or (find? key more) := by
  induction entries with
  | nil => rfl
  | cons entry rest ih =>
    rw [List.cons_append, find?, find?]
    split
    · rfl
    · exact ih

theorem mem_of_find? [Std.LawfulEqOrd κ] {key : κ} {value : α} {entries : List (κ × α)}
    (h : find? key entries = some value) : (key, value) ∈ entries := by
  induction entries with
  | nil => cases h
  | cons entry rest ih =>
    rw [find?] at h
    split at h
    · rename_i heq
      obtain rfl := Option.some.inj h
      rw [Std.LawfulEqOrd.eq_of_compare heq]
      exact List.mem_cons_self
    · exact List.mem_cons_of_mem _ (ih h)

theorem exists_find?_of_mem [Std.ReflOrd κ] {key : κ} {value : α} {entries : List (κ × α)}
    (h : (key, value) ∈ entries) : ∃ found, find? key entries = some found := by
  induction entries with
  | nil => cases h
  | cons entry rest ih =>
    rw [find?]
    split
    · exact ⟨_, rfl⟩
    · rename_i hne
      rcases List.mem_cons.mp h with rfl | hrest
      · exact absurd Std.ReflCmp.compare_self hne
      · exact ih hrest

/-- Before the first key there is none. -/
theorem find?_eq_none_of_lt {key : κ} {entries : List (κ × α)}
    (h : ∀ entry ∈ entries, compare key entry.1 = .lt) : find? key entries = none := by
  induction entries with
  | nil => rfl
  | cons entry rest ih =>
    rw [find?, if_neg (by rw [h entry List.mem_cons_self]; decide)]
    exact ih fun other hother => h other (List.mem_cons_of_mem _ hother)

/-- A sum over the values grows by what is written, less what stood there before. -/
theorem sum_insert [Std.TransOrd κ] (f : α → Nat) (key : κ) (value : α) {entries : List (κ × α)}
    (h : Sorted entries) :
    ((insert key value entries).map fun entry => f entry.2).sum + ((find? key entries).map f).getD 0 =
      (entries.map fun entry => f entry.2).sum + f value := by
  induction entries with
  | nil => simp [insert, find?]
  | cons entry rest ih =>
    obtain ⟨hhead, hrest⟩ := List.pairwise_cons.mp h
    rw [insert]
    split
    · rename_i hlt
      have hnone : find? key (entry :: rest) = none := find?_eq_none_of_lt fun other hother => by
        rcases List.mem_cons.mp hother with rfl | hother
        · exact hlt
        · exact Std.TransCmp.lt_trans hlt (hhead other hother)
      rw [hnone]
      simp [Nat.add_comm]
    · rename_i heq
      rw [find?, if_pos heq]
      simp only [List.map_cons, List.sum_cons, Option.map_some, Option.getD_some]
      omega
    · rename_i hgt
      rw [find?, if_neg (by rw [hgt]; decide)]
      simp only [List.map_cons, List.sum_cons]
      have := ih hrest
      omega

/-! ### Tables of listed entries -/

section

variable [Std.TransOrd κ]

/-- A key that is greater than all others goes to the end. -/
theorem insert_of_forall_lt {key : κ} {value : α} {entries : List (κ × α)}
    (h : ∀ entry ∈ entries, compare entry.1 key = .lt) :
    insert key value entries = entries ++ [(key, value)] := by
  induction entries with
  | nil => rfl
  | cons entry rest ih =>
    have hgt : compare key entry.1 = .gt := Std.OrientedCmp.gt_of_lt (h entry List.mem_cons_self)
    have hrest := ih fun other hother => h other (List.mem_cons_of_mem _ hother)
    rw [insert, hgt]
    dsimp only
    rw [hrest, List.cons_append]

/-- Entries that are sorted already stay as they are. -/
theorem ofList_eq_self {entries : List (κ × α)} (h : Sorted entries) : ofList entries = entries := by
  suffices ∀ done : List (κ × α), Sorted (done ++ entries) →
      entries.foldl (fun done entry => insert entry.1 entry.2 done) done = done ++ entries from
    this [] h
  induction entries with
  | nil => exact fun done _ => (List.append_nil done).symm
  | cons entry rest ih =>
    intro done hdone
    have hlast : ∀ other ∈ done, compare other.1 entry.1 = .lt := fun other hother =>
      (List.pairwise_append.mp hdone).2.2 other hother entry List.mem_cons_self
    rw [List.foldl_cons, insert_of_forall_lt hlast]
    have hsplit : done ++ entry :: rest = (done ++ [entry]) ++ rest := by simp
    rw [hsplit] at hdone ⊢
    exact ih (List.pairwise_cons.mp h).2 _ hdone

end

/-- Of all entries of a key the last one counts. -/
theorem find?_ofList [Std.TransOrd κ] [Std.LawfulEqOrd κ] (key : κ) (entries : List (κ × α)) :
    find? key (ofList entries) = find? key entries.reverse := by
  suffices ∀ done : List (κ × α),
      find? key (entries.foldl (fun done entry => insert entry.1 entry.2 done) done) =
        (find? key entries.reverse).or (find? key done) from
    (this []).trans (Option.or_none ..)
  induction entries with
  | nil => exact fun done => rfl
  | cons entry rest ih =>
    intro done
    rw [List.foldl_cons, ih, List.reverse_cons, find?_append, Option.or_assoc]
    congr 1
    by_cases hkey : key = entry.1
    · subst hkey
      simp [find?, Std.ReflCmp.compare_self]
    · have hne : compare key entry.1 ≠ .eq := fun heq => hkey (Std.LawfulEqOrd.eq_of_compare heq)
      simp [find?, find?_insert_of_ne hkey, hne]

theorem mem_ofList [Std.TransOrd κ] [Std.LawfulEqOrd κ] {entries : List (κ × α)} {entry : κ × α}
    (h : entry ∈ ofList entries) : entry ∈ entries := by
  have hfound : (Table.ofList entries).find? entry.1 = some entry.2 := Table.find?_eq_some_iff.mpr h
  rw [Table.find?, Table.ofList] at hfound
  rw [find?_ofList] at hfound
  exact List.mem_reverse.mp (mem_of_find? hfound)

end Entries

theorem Table.mem_values_iff {κ α : Type} [Ord κ] [Std.LawfulEqOrd κ] {t : Table κ α} {value : α} :
    value ∈ t.values ↔ ∃ key, t.find? key = some value := by
  simp [Table.values, Table.find?_eq_some_iff]

namespace Table

variable {κ α : Type} [Ord κ] [Std.TransOrd κ] [Std.LawfulEqOrd κ] [DecidableEq κ]

/-- Of two values that are written at one key the second one counts. -/
theorem insert_insert (t : Table κ α) (key : κ) (first second : α) :
    (t.insert key first).insert key second = t.insert key second := by
  apply ext_find?
  intro other
  simp only [find?_insert]
  split <;> rfl

/-- Writing back what was found changes nothing. -/
theorem insert_of_find? {t : Table κ α} {key : κ} {value : α} (h : t.find? key = some value) :
    t.insert key value = t := by
  apply ext_find?
  intro other
  rw [find?_insert]
  split
  · rename_i heq
    rw [heq, h]
  · rfl

end Table

/-- A table is made again of its entries. -/
theorem Table.ofList_entries {κ α : Type} [Ord κ] [Std.TransOrd κ] (t : Table κ α) :
    Table.ofList t.entries = t :=
  Table.ext (Entries.ofList_eq_self t.sorted)

end Reconciliation
