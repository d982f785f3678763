import Reconciliation.Filter
import Reconciliation.Proofs.Fallible
import Reconciliation.Proofs.Table
import Reconciliation.Proofs.Text.Cut

namespace Reconciliation

/-!
# What a selector asks for

* `Selector.Asks` — the labels that the terms of a selector ask for;
* `Object.Meets` — objects that carry all of them;
* `Selector.requirements`, `Selector.mem_requirements` — the same labels, one after the other;
* `Selector.parse_eq_ok` — the labels of an accepted selector, as a table of its requirements;
* `Filter.admits_iff` — objects that pass a filter, by look-ups;
* `Selector.admits_iff_meets_iff` — for which selectors the filter lets just these objects pass.

A table has one value for each name.  A selector may ask for two.
-/

namespace Selector

/-- A term of the selector asks for the label.  A term is what stands between commas, without blanks
    around it, and is divided by its first equals sign. -/
def Asks (selector name value : String) : Prop :=
  ∃ piece ∈ selector.toList.splitOn ',',
    Text.trim (String.ofList piece) = name ++ "=" ++ value ∧ '=' ∉ name.toList

/-- No name is asked for with two values. -/
def Consistent (selector : String) : Prop :=
  ∀ name value other, Asks selector name value → Asks selector name other → value = other

/-- What the terms of a selector ask for, in their order. -/
def requirements (selector : String) : List (String × String) :=
  (selector.toList.splitOn ',').filterMap fun piece =>
    Text.cutFirst? '=' (Text.trim (String.ofList piece))

end Selector

/-- The object carries every label that the selector asks for. -/
def Object.Meets (object : Object) (selector : String) : Prop :=
  ∀ name value, Selector.Asks selector name value → object.metadata.labels.find? name = some value

namespace Selector

/-! ### Accepted selectors -/

/-- Blank terms ask for nothing, so that it does not matter that they are left out. -/
theorem requirements_eq (selector : String) :
    requirements selector = (terms selector).filterMap (Text.cutFirst? '=') := by
  have hblank : Text.cutFirst? '=' "" = none := Text.cutFirst?_of_not_mem (by simp)
  rw [requirements, terms, Text.cutAll, Text.cutAllChars_eq_splitOn, List.map_map,
    List.filterMap_filter, List.filterMap_map]
  refine congrArg (List.filterMap · _) (funext fun piece => ?_)
  by_cases hempty : Text.trim (String.ofList piece) = ""
  · simp [hempty, hblank]
  · simp [hempty]

/-- A term is read as the parts around its first equals sign, if there is something before it. -/
theorem parseTerm_eq_ok_iff {term name value : String} :
    parseTerm term = .ok (name, value) ↔
      Text.cutFirst? '=' term = some (name, value) ∧ name ≠ "" := by
  unfold parseTerm
  cases Text.cutFirst? '=' term with
  | none => simp
  | some parts =>
    dsimp only
    constructor
    · intro h
      split at h
      · cases h
      · rename_i hnamed
        cases h
        exact ⟨rfl, by simpa using hnamed⟩
    · rintro ⟨h, hnamed⟩
      cases h
      rw [if_neg (by simpa using hnamed)]

/-- If terms are accepted, every one of them asks for something. -/
theorem mapM_parseTerm_eq_ok {accepted : List String} {read : List (String × String)}
    (h : accepted.mapM parseTerm = .ok read) :
    accepted.filterMap (Text.cutFirst? '=') = read ∧
      ∀ term ∈ accepted, ∃ requirement, Text.cutFirst? '=' term = some requirement := by
  induction accepted generalizing read with
  | nil =>
    cases h
    exact ⟨rfl, fun _ hterm => by cases hterm⟩
  | cons term rest ih =>
    rw [List.mapM_cons] at h
    obtain ⟨requirement, hterm, h⟩ := bind_eq_ok.mp h
    obtain ⟨others, hrest, h⟩ := bind_eq_ok.mp h
    cases h
    obtain ⟨hread, hall⟩ := ih hrest
    have hcut := (parseTerm_eq_ok_iff.mp hterm).1
    refine ⟨by rw [List.filterMap_cons_some hcut, hread], fun other hother => ?_⟩
    rcases List.mem_cons.mp hother with rfl | hother
    · exact ⟨requirement, hcut⟩
    · exact hall other hother

/-- The labels of an accepted selector are a table of what it asks for, and every term asks for
    something. -/
theorem parse_eq_ok {selector : String} {labels : Table String String}
    (h : parse selector = .ok labels) :
    labels = .ofList (requirements selector) ∧
      ∀ term ∈ terms selector, ∃ requirement, Text.cutFirst? '=' term = some requirement := by
  obtain ⟨read, hread, rfl⟩ := map_eq_ok.mp h
  obtain ⟨hrequirements, hall⟩ := mapM_parseTerm_eq_ok hread
  exact ⟨by rw [requirements_eq, hrequirements], hall⟩

/-! ### Single requirements -/

/-- The parts of a term are what it asks for. -/
theorem asks_of_cutFirst? {selector name value : String} {piece : List Char}
    (hpiece : piece ∈ selector.toList.splitOn ',')
    (hcut : Text.cutFirst? '=' (Text.trim (String.ofList piece)) = some (name, value)) :
    Asks selector name value ∧ Text.trim (String.ofList piece) = name ++ "=" ++ value := by
  obtain ⟨hwritten, hname⟩ := Text.toList_of_cutFirst? hcut
  have hterm : Text.trim (String.ofList piece) = name ++ "=" ++ value :=
    String.toList_inj.mp (by simp [hwritten])
  exact ⟨⟨piece, hpiece, hterm, hname⟩, hterm⟩

theorem mem_requirements {selector name value : String} :
    (name, value) ∈ requirements selector ↔ Asks selector name value := by
  rw [requirements, List.mem_filterMap]
  constructor
  · rintro ⟨piece, hpiece, hcut⟩
    exact (asks_of_cutFirst? hpiece hcut).1
  · rintro ⟨piece, hpiece, hterm, hname⟩
    exact ⟨piece, hpiece, Text.cutFirst?_of_toList (by simp [hterm]) hname⟩

/-- Every term of an accepted selector asks for something, unless it is blank. -/
theorem exists_asks {selector : String} {labels : Table String String}
    (h : parse selector = .ok labels) {piece : List Char}
    (hpiece : piece ∈ selector.toList.splitOn ',') (hblank : Text.trim (String.ofList piece) ≠ "") :
    ∃ name value, Asks selector name value ∧
      Text.trim (String.ofList piece) = name ++ "=" ++ value := by
  have hterm : Text.trim (String.ofList piece) ∈ terms selector := by
    rw [terms, Text.cutAll, Text.cutAllChars_eq_splitOn, List.map_map]
    exact List.mem_filter.mpr ⟨List.mem_map_of_mem hpiece, by simpa using hblank⟩
  obtain ⟨⟨name, value⟩, hcut⟩ := (parse_eq_ok h).2 _ hterm
  exact ⟨name, value, asks_of_cutFirst? hpiece hcut⟩

/-- The last requirement of a name is the one that counts. -/
theorem find?_labels {selector : String} {labels : Table String String}
    (h : parse selector = .ok labels) (name : String) :
    labels.find? name = Entries.find? name (requirements selector).reverse := by
  rw [(parse_eq_ok h).1]
  exact Entries.find?_ofList name (requirements selector)

/-- Without two values for one name, the labels are what is asked for. -/
theorem find?_labels_iff {selector : String} {labels : Table String String}
    (h : parse selector = .ok labels) (consistent : Consistent selector) {name value : String} :
    labels.find? name = some value ↔ Asks selector name value := by
  rw [find?_labels h]
  have asks_of_find? : ∀ {found}, Entries.find? name (requirements selector).reverse = some found →
      Asks selector name found :=
    fun hfind => mem_requirements.mp (List.mem_reverse.mp (Entries.mem_of_find? hfind))
  constructor
  · exact asks_of_find?
  · intro hasks
    obtain ⟨last, hlast⟩ :=
      Entries.exists_find?_of_mem (List.mem_reverse.mpr (mem_requirements.mpr hasks))
    rw [hlast, consistent name value last hasks (asks_of_find? hlast)]

end Selector

/-! ### Objects that pass -/

/-- The object is in the namespace, if one is given. -/
def Object.InScope (object : Object) (scope : Option Namespace) : Prop :=
  ∀ space, scope = some space → object.metadata.scope = some space

/-- An object passes a filter if it is in the namespace, and carries the labels of the table. -/
theorem Filter.admits_iff {scope : Option Namespace} {labels : Table String String}
    {object : Object} :
    (Filter.mk scope labels).admits object = true ↔
      object.InScope scope ∧ ∀ name value, labels.find? name = some value →
        object.metadata.labels.find? name = some value := by
  rw [Filter.admits, Bool.and_eq_true, List.all_eq_true]
  refine and_congr ?_ ?_
  · cases scope <;> simp [Object.InScope]
  · constructor
    · intro h name value hfind
      simpa using h (name, value) (Table.find?_eq_some_iff.mp hfind)
    · rintro h ⟨name, value⟩ hmem
      simpa using h name value (Table.find?_eq_some_iff.mpr hmem)

namespace Selector

variable {selector : String} {labels : Table String String}

/-- The object that carries the labels of a filter passes it. -/
theorem exists_admits (scope : Option Namespace) (labels : Table String String) :
    ∃ object : Object, (Filter.mk scope labels).admits object = true := by
  let metadata : Metadata := { Metadata.empty with scope := scope, labels := labels }
  refine ⟨⟨"", "", metadata, .empty⟩, Filter.admits_iff.mpr ⟨?_, ?_⟩⟩
  · exact fun _ hspace => hspace
  · exact fun _ _ hfind => hfind

/-- **A selector means all its terms, unless two of them contradict each other.**  Every term of an
    accepted selector asks for a label, blank ones apart.  Of the terms with one name the last is
    the one that a filter goes by.  So the filter lets pass just the objects that meet all terms if
    no name is asked for with two values, and only then: the last term of a name silently stands
    for those before it. -/
theorem admits_iff_meets_iff (accepted : parse selector = .ok labels) (scope : Option Namespace) :
    (∀ piece ∈ selector.toList.splitOn ',', Text.trim (String.ofList piece) ≠ "" →
      ∃ name value, Asks selector name value ∧
        Text.trim (String.ofList piece) = name ++ "=" ++ value) ∧
    (∀ object : Object, (Filter.mk scope labels).admits object = true ↔
      object.InScope scope ∧ ∀ name value,
        Entries.find? name (requirements selector).reverse = some value →
          object.metadata.labels.find? name = some value) ∧
    ((∀ object : Object, (Filter.mk scope labels).admits object = true ↔
        object.InScope scope ∧ object.Meets selector) ↔
      Consistent selector) := by
  refine ⟨fun _ hpiece hblank => exists_asks accepted hpiece hblank, fun object => ?_,
    fun hall => ?_, fun consistent object => ?_⟩
  · rw [Filter.admits_iff]
    simp only [find?_labels accepted]
  · -- The object with the labels of the filter meets all terms, and has one value for a name.
    intro name value other hvalue hother
    obtain ⟨object, hadmits⟩ := exists_admits scope labels
    obtain ⟨-, hmeets⟩ := (hall object).mp hadmits
    have hboth := (hmeets name value hvalue).symm.trans (hmeets name other hother)
    exact Option.some.inj hboth
  · rw [Filter.admits_iff]
    simp only [find?_labels_iff accepted consistent, Object.Meets]

/-! ### Two values for one name -/

/-- An object that the second of two terms fits, and the first does not. -/
def relabelled : Object :=
  (Object.ofKey ⟨"", "v1", "Secret"⟩ (.namespaced "ns" "a")).withLabel "k" "b"

/-- The first of two terms is passed over: an object without its label is let pass. -/
theorem first_term_passed_over :
    ∃ labels, parse "k=a,k=b" = .ok labels ∧
      (Filter.mk none labels).admits relabelled = true ∧ ¬ relabelled.Meets "k=a,k=b" := by
  refine ⟨.ofList [("k", "b")], eq_ok_of_toOption (by decide +kernel), by decide +kernel, ?_⟩
  intro hmeets
  have hasks : Asks "k=a,k=b" "k" "a" := mem_requirements.mp (by decide +kernel)
  have hfirst : relabelled.metadata.labels.find? "k" = some "a" := hmeets "k" "a" hasks
  exact absurd hfirst (by decide +kernel)

/-- With terms that contradict each other a selector does not mean all of them. -/
theorem not_all_of_two_values :
    parse "k=a,k=b" = .ok (.ofList [("k", "b")]) ∧
    ¬ ∀ object : Object, (Filter.mk none (.ofList [("k", "b")])).admits object = true ↔
      object.InScope none ∧ object.Meets "k=a,k=b" := by
  have accepted : parse "k=a,k=b" = .ok (.ofList [("k", "b")]) :=
    eq_ok_of_toOption (by decide +kernel)
  have hfirst : Asks "k=a,k=b" "k" "a" := mem_requirements.mp (by decide +kernel)
  have hsecond : Asks "k=a,k=b" "k" "b" := mem_requirements.mp (by decide +kernel)
  refine ⟨accepted, fun hall => ?_⟩
  have consistent := (admits_iff_meets_iff accepted none).2.2.mp hall
  exact absurd (consistent "k" "a" "b" hfirst hsecond) (by decide)

end Selector

end Reconciliation
