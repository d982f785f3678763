import Mathlib.Data.Finset.Card
import Reconciliation.Discovery
import Reconciliation.Proofs.First
import Reconciliation.Proofs.Table

namespace Reconciliation

/-!
# The log of registrations

What a table of types answers, in terms of the types in the order in which they were registered:

* `ResourceType.Asked` — what a look-up asks for;
* `TypeTable.find?_ofList` — a table answers as the log of all registrations does;
* `VersionIndex` — the types filed by group and kind, each with the list of its versions;
* `VersionIndex.Indexes` — that an index holds the types of a table, which every registration keeps;
* `TypeTable.first_registered_counts` — the first registered type that fits is the answer, in the table and
  in the index.
-/

/-- What a look-up asks for: a type of the group and the kind and, unless it is left open, of the version. -/
def ResourceType.Asked (group kind version : String) (type : ResourceType) : Prop :=
  type.group = group ∧ type.kind = kind ∧ (version ≠ "" → type.version = version)

instance (group kind version : String) : DecidablePred (ResourceType.Asked group kind version) :=
  fun _ => inferInstanceAs (Decidable (_ ∧ _ ∧ (_ → _)))

/-! ### The table and the log -/

namespace TypeTable

/-- Types of the same group, version and kind are told apart by no look-up. -/
theorem asked_congr {group kind version : String} {type other : ResourceType}
    (h : type.gvk = other.gvk) : type.Asked group kind version ↔ other.Asked group kind version := by
  obtain ⟨hgroup, hversion, hkind⟩ := GroupVersionKind.mk.inj h
  rw [ResourceType.Asked, ResourceType.Asked, hgroup, hversion, hkind]

/-- A version fits if it is left open, or the one that is asked for. -/
theorem fits_version_iff {version : String} {type : ResourceType} :
    (version.isEmpty || type.version == version) = true ↔ (version ≠ "" → type.version = version) := by
  rw [Bool.or_eq_true, String.isEmpty_iff, beq_iff_eq, or_iff_not_imp_left]

theorem resolve_eq (table : TypeTable) (group kind version : String) :
    table.resolve group kind version =
      (table.types.find? fun type => type.Asked group kind version).elim
        (.error (.noMatch group kind version)) .ok := by
  have hasked : (fun type : ResourceType => type.group == group && type.kind == kind &&
      (version.isEmpty || type.version == version)) = fun type => decide (type.Asked group kind version) := by
    funext type
    rw [Bool.eq_iff_iff, Bool.and_eq_true, Bool.and_eq_true, beq_iff_eq, beq_iff_eq, fits_version_iff,
      decide_eq_true_iff, and_assoc]
    exact Iff.rfl
  rw [resolve, hasked]
  cases table.types.find? fun type => type.Asked group kind version <;> rfl

section

variable {p : ResourceType → Bool} (same : ∀ type other, type.gvk = other.gvk → p type = p other)
include same

/-- One more type is found only if no type was found before. -/
theorem find?_register (table : TypeTable) (type : ResourceType) :
    (table.register type).types.find? p = (table.types.find? p).or ([type].find? p) := by
  unfold register
  split
  · rename_i hknown
    obtain ⟨other, hmem, heq⟩ := hknown
    cases hfind : table.types.find? p with
    | some found => rfl
    | none =>
      -- The type that is there already is not found, and no more is the new one.
      have hother := List.find?_eq_none.mp hfind other hmem
      rw [same other type heq] at hother
      simp [hother]
  · exact List.find?_append

/-- **The log.**  What a table finds is what is found first in the log of all registrations. -/
theorem find?_ofList (log : List ResourceType) : (ofList log).types.find? p = log.find? p := by
  suffices ∀ table : TypeTable,
      (log.foldl register table).types.find? p = (table.types.find? p).or (log.find? p) from this empty
  induction log with
  | nil => exact fun table => (Option.or_none ..).symm
  | cons type rest ih =>
    intro table
    rw [List.foldl_cons, ih, find?_register same, Option.or_assoc, ← List.find?_append]
    rfl

end

theorem mem_gvks_ofList {log : List ResourceType} {gvk : GroupVersionKind} :
    gvk ∈ (ofList log).types.map (·.gvk) ↔ gvk ∈ log.map (·.gvk) := by
  have hfind := find?_ofList (p := fun type => type.gvk == gvk) (fun _ _ h => by rw [h]) log
  have hsome := congrArg Option.isSome hfind
  rw [Bool.eq_iff_iff, List.find?_isSome, List.find?_isSome] at hsome
  simpa only [List.mem_map, beq_iff_eq] using hsome

/-- As many types are in a table as there are different ones in the log. -/
theorem size_ofList (log : List ResourceType) :
    (ofList log).size = (log.map (·.gvk)).toFinset.card := by
  have hdistinct : ((ofList log).types.map (·.gvk)).Nodup := List.pairwise_map.mpr (ofList log).distinct
  have hsame : ((ofList log).types.map (·.gvk)).toFinset = (log.map (·.gvk)).toFinset := by
    ext gvk
    rw [List.mem_toFinset, List.mem_toFinset, mem_gvks_ofList]
  rw [← hsame, List.toFinset_card_of_nodup hdistinct, List.length_map, size]

end TypeTable

/-! ### The types by group and kind -/

/-- What all versions of a type have in common. -/
structure Family where
  group : String
  kind : String
deriving DecidableEq, Repr

namespace Family

instance : Ord Family := ⟨compareLex (compareOn Family.group) (compareOn Family.kind)⟩

instance : Std.TransOrd Family :=
  inferInstanceAs (Std.TransCmp (compareLex (compareOn Family.group) (compareOn Family.kind)))

instance : Std.LawfulEqOrd Family where
  eq_of_compare {a b} h := by
    have ⟨hgroup, hkind⟩ := Ordering.then_eq_eq.mp h
    cases a; cases b
    exact congr (congrArg Family.mk (Std.LawfulEqOrd.eq_of_compare hgroup))
      (Std.LawfulEqOrd.eq_of_compare hkind)

end Family

/-- The family that a type belongs to. -/
def ResourceType.family (type : ResourceType) : Family := ⟨type.group, type.kind⟩

/-- The registered types by their families, the versions of each in the order of registration. -/
abbrev VersionIndex := Table Family (List ResourceType)

namespace VersionIndex

/-- The registered versions of a family. -/
def versions (index : VersionIndex) (family : Family) : List ResourceType :=
  (index.find? family).getD []

/-- The index with one more type, unless its version is listed already. -/
def register (index : VersionIndex) (type : ResourceType) : VersionIndex :=
  let versions := index.versions type.family
  index.insert type.family
    (if versions.any (·.version == type.version) then versions else versions ++ [type])

/-- The index of the listed types. -/
def ofList (types : List ResourceType) : VersionIndex :=
  types.foldl register Table.empty

/-- Number of versions of all families. -/
def count (index : VersionIndex) : Nat := (index.values.map List.length).sum

/-- The version of the family, or its first one if the version is left open. -/
def resolve (index : VersionIndex) (group kind version : String) : Except MappingError ResourceType :=
  match index.find? ⟨group, kind⟩ with
  | none => .error (.noMatch group kind version)
  | some versions =>
    let found := if version.isEmpty then versions.head? else versions.find? (·.version == version)
    found.elim (.error (.noMatch group kind version)) .ok

/-- An index holds the types of a table: under each family its types in their order, and no family without
    types. -/
structure Indexes (index : VersionIndex) (table : TypeTable) : Prop where
  versions_eq : ∀ family, index.versions family = table.types.filter (·.family == family)
  count_eq : index.count = table.size
  inhabited : ∀ family, index.find? family ≠ some []

theorem versions_insert (index : VersionIndex) (family other : Family) (types : List ResourceType) :
    VersionIndex.versions (index.insert family types) other =
      if other = family then types else index.versions other := by
  rw [versions, Table.find?_insert]
  split <;> rfl

theorem count_insert (index : VersionIndex) (family : Family) (types : List ResourceType) :
    count (index.insert family types) + (index.versions family).length = index.count + types.length := by
  have hsum := Entries.sum_insert List.length family types index.sorted
  have hcount (other : VersionIndex) :
      other.count = (other.entries.map fun entry => entry.2.length).sum := by
    rw [count, Table.values, List.map_map]
    rfl
  have hbefore : (index.versions family).length = ((index.find? family).map List.length).getD 0 := by
    rw [versions]
    cases index.find? family <;> rfl
  rw [hcount, hcount, hbefore]
  exact hsum

theorem indexes_empty : Indexes Table.empty .empty where
  versions_eq _ := rfl
  count_eq := rfl
  inhabited family h := by cases h

namespace Indexes

variable {index : VersionIndex} {table : TypeTable}

/-- A version is listed exactly if the type is registered. -/
theorem any_version_iff (h : Indexes index table) (type : ResourceType) :
    (index.versions type.family).any (·.version == type.version) = true ↔
      ∃ other ∈ table.types, other.gvk = type.gvk := by
  rw [h.versions_eq]
  simp only [List.any_filter, List.any_eq_true, Bool.and_eq_true, beq_iff_eq, ResourceType.family,
    Family.mk.injEq, ResourceType.gvk, GroupVersionKind.mk.injEq]
  refine exists_congr fun other => and_congr_right fun _ => ?_
  rw [and_assoc]
  exact and_congr_right fun _ => and_comm

/-- The versions of a family may be written back as they were found. -/
theorem writeBack (h : Indexes index table) {family : Family} (known : index.versions family ≠ []) :
    Indexes (index.insert family (index.versions family)) table where
  versions_eq other := by
    rw [versions_insert, ← h.versions_eq]
    split
    · rename_i heq
      rw [heq]
    · rfl
  count_eq := by
    have hcount := index.count_insert family (index.versions family)
    have htable := h.count_eq
    omega
  inhabited other hfound := by
    rw [Table.find?_insert] at hfound
    split at hfound
    · exact known (Option.some.inj hfound)
    · exact h.inhabited other hfound

/-- One more version stands behind the others of its family. -/
theorem add (h : Indexes index table) {type : ResourceType}
    (unknown : ¬ ∃ other ∈ table.types, other.gvk = type.gvk) :
    Indexes (index.insert type.family (index.versions type.family ++ [type])) (table.register type) := by
  have htypes : (table.register type).types = table.types ++ [type] := by
    rw [TypeTable.register, dif_neg unknown]
  refine ⟨fun other => ?_, ?_, fun other hfound => ?_⟩
  · rw [versions_insert, htypes, List.filter_append, ← h.versions_eq]
    split
    · rename_i heq
      simp [heq]
    · rename_i hne
      simp [Ne.symm hne]
  · have hcount := index.count_insert type.family (index.versions type.family ++ [type])
    have htable := h.count_eq
    have hsize : (table.register type).size = table.size + 1 := by
      rw [TypeTable.size, htypes, List.length_append]
      rfl
    rw [List.length_append, List.length_singleton] at hcount
    omega
  · rw [Table.find?_insert] at hfound
    split at hfound
    · simp at hfound
    · exact h.inhabited other hfound

/-- **Registration.**  An index holds the types of a table also with one more type in both. -/
theorem register (h : Indexes index table) (type : ResourceType) :
    Indexes (index.register type) (table.register type) := by
  have hlisted := h.any_version_iff type
  by_cases hknown : ∃ other ∈ table.types, other.gvk = type.gvk
  · have hversions : index.versions type.family ≠ [] := by
      intro hempty
      have hany := hlisted.mpr hknown
      rw [hempty] at hany
      cases hany
    have htable : table.register type = table := dif_pos hknown
    rw [htable, VersionIndex.register, if_pos (hlisted.mpr hknown)]
    exact h.writeBack hversions
  · rw [VersionIndex.register, if_neg (fun hany => hknown (hlisted.mp hany))]
    exact h.add hknown

/-- An index answers as the table does of which it holds the types. -/
theorem resolve_eq (h : Indexes index table) (group kind version : String) :
    index.resolve group kind version = table.resolve group kind version := by
  -- In the table, too, the family is sought first and then the version in it.
  have htable : (table.types.find? fun type => type.Asked group kind version) =
      (index.versions ⟨group, kind⟩).find? fun type => version.isEmpty || type.version == version := by
    rw [h.versions_eq, List.find?_filter]
    congr 1
    funext type
    rw [Bool.eq_iff_iff, decide_eq_true_iff, decide_eq_true_iff, TypeTable.fits_version_iff, beq_iff_eq,
      ResourceType.family, Family.mk.injEq, and_assoc]
    exact Iff.rfl
  rw [TypeTable.resolve_eq, htable, versions, resolve]
  cases index.find? ⟨group, kind⟩ with
  | none => rfl
  | some versions =>
    cases hversion : version.isEmpty with
    | true => cases versions <;> rfl
    | false => simp

theorem isEmpty_eq (h : Indexes index table) : index.isEmpty = table.isEmpty := by
  rw [Bool.eq_iff_iff]
  simp only [Table.isEmpty, TypeTable.isEmpty, List.isEmpty_iff]
  have hcount := h.count_eq
  constructor
  · intro hempty
    rw [count, Table.values, hempty] at hcount
    exact List.eq_nil_of_length_eq_zero hcount.symm
  · intro hempty
    rw [List.eq_nil_iff_forall_not_mem]
    intro entry hentry
    have hfound : index.find? entry.1 = some entry.2 := Table.find?_eq_some_iff.mpr hentry
    have hversions := h.versions_eq entry.1
    rw [hempty, versions, hfound] at hversions
    rw [show entry.2 = [] from hversions] at hfound
    exact h.inhabited _ hfound

end Indexes

/-- The index and the table of the same registrations hold the same types. -/
theorem indexes_ofList (log : List ResourceType) : Indexes (ofList log) (.ofList log) := by
  suffices ∀ index table, Indexes index table →
      Indexes (log.foldl register index) (log.foldl TypeTable.register table) from
    this _ _ indexes_empty
  induction log with
  | nil => exact fun _ _ h => h
  | cons type rest ih => exact fun _ _ h => ih _ _ (h.register type)

end VersionIndex

/-! ### What is answered -/

namespace TypeTable

theorem resolve_eq_ok_iff_firstOf {log : List ResourceType} {group kind version : String}
    {type : ResourceType} :
    (ofList log).resolve group kind version = .ok type ↔
      FirstOf (ResourceType.Asked group kind version) log type := by
  rw [← find?_eq_some_iff_firstOf, resolve_eq,
    find?_ofList fun _ _ h => decide_eq_decide.mpr (asked_congr h)]
  cases log.find? fun type => type.Asked group kind version <;> simp

theorem resolve_eq_error_iff {log : List ResourceType} {group kind version : String}
    {error : MappingError} :
    (ofList log).resolve group kind version = .error error ↔
      error = .noMatch group kind version ∧ ∀ type ∈ log, ¬ type.Asked group kind version := by
  have hnone : (∀ type ∈ log, ¬ type.Asked group kind version) ↔
      (log.find? fun type => type.Asked group kind version) = none := by simp
  rw [hnone, resolve_eq, find?_ofList fun _ _ h => decide_eq_decide.mpr (asked_congr h)]
  cases log.find? fun type => type.Asked group kind version <;> simp [eq_comm]

/-- **Discovery.**  Of the types that were registered, in whatever order and however often, a look-up is
    answered by the first one of the group, the kind and the version, or of the group and the kind if the
    version is left open, and fails exactly if there is none.  There are as many types as different ones
    have been registered.  What is answered once is answered alike whatever is registered later.  The same
    holds of the types filed by group and kind, each with the list of its versions. -/
theorem first_registered_counts (log : List ResourceType) :
    (∀ group kind version type, (ofList log).resolve group kind version = .ok type ↔
      FirstOf (ResourceType.Asked group kind version) log type) ∧
    (∀ group kind version error, (ofList log).resolve group kind version = .error error ↔
      error = .noMatch group kind version ∧ ∀ type ∈ log, ¬ type.Asked group kind version) ∧
    (ofList log).size = (log.map (·.gvk)).toFinset.card ∧
    (∀ later group kind version type, (ofList log).resolve group kind version = .ok type →
      (ofList (log ++ later)).resolve group kind version = .ok type) ∧
    (∀ group kind version, (VersionIndex.ofList log).resolve group kind version =
      (ofList log).resolve group kind version) ∧
    (VersionIndex.ofList log).count = (ofList log).size ∧
    (VersionIndex.ofList log).isEmpty = (ofList log).isEmpty := by
  have hindex := VersionIndex.indexes_ofList log
  refine ⟨fun _ _ _ _ => resolve_eq_ok_iff_firstOf, fun _ _ _ _ => resolve_eq_error_iff,
    size_ofList log, ?_, hindex.resolve_eq, hindex.count_eq, hindex.isEmpty_eq⟩
  intro later group kind version type hanswer
  rw [resolve_eq_ok_iff_firstOf] at hanswer ⊢
  exact hanswer.append later

namespace Preferring

/-- Two versions of a type, the newer one first. -/
def log : List ResourceType := [
  ⟨"x.io", "v2", "Thing", "things", true⟩,
  ⟨"x.io", "v1", "Thing", "things", true⟩]

/-- A version that is known already, with another name, and one that is not. -/
def later : List ResourceType := [
  ⟨"x.io", "v2", "Thing", "others", false⟩,
  ⟨"x.io", "v3", "Thing", "things", true⟩]

/-- The version that is registered first is the preferred one, and stays it. -/
theorem first_version_preferred :
    (ofList log).resolve "x.io" "Thing" "" = .ok ⟨"x.io", "v2", "Thing", "things", true⟩ ∧
    (ofList (log ++ later)).resolve "x.io" "Thing" "" = .ok ⟨"x.io", "v2", "Thing", "things", true⟩ ∧
    (ofList (log ++ later)).resolve "x.io" "Thing" "v2" =
      .ok ⟨"x.io", "v2", "Thing", "things", true⟩ := by
  obtain ⟨hok, _, _, hkept, _⟩ := first_registered_counts log
  have hopen : (ofList log).resolve "x.io" "Thing" "" = .ok ⟨"x.io", "v2", "Thing", "things", true⟩ :=
    (hok "x.io" "Thing" "" _).mpr ⟨[], _, rfl, by decide, by simp⟩
  have hgiven : (ofList log).resolve "x.io" "Thing" "v2" = .ok ⟨"x.io", "v2", "Thing", "things", true⟩ :=
    (hok "x.io" "Thing" "v2" _).mpr ⟨[], _, rfl, by decide, by simp⟩
  exact ⟨hopen, hkept later "x.io" "Thing" "" _ hopen, hkept later "x.io" "Thing" "v2" _ hgiven⟩

end Preferring

end TypeTable

end Reconciliation
