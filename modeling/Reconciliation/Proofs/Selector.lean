import Reconciliation.Filter
import Reconciliation.Proofs.Table
import Reconciliation.Proofs.Text.Cut

namespace Reconciliation

/-!
# Selectors that are written and read back

* `Selector.Plain` — labels that a selector can express;
* `Selector.parse_display` — such labels are read back from their selector.
-/

namespace Selector

/-! ### Labels that a selector can express -/

/-- A name and a value that one term of a selector can hold. -/
structure PlainTerm (name value : String) : Prop where
  named : name ≠ ""
  undivided : '=' ∉ name.toList ∧ ',' ∉ name.toList
  start : name.toList.head?.all fun c => !Text.isBlank c
  whole : ',' ∉ value.toList
  finish : value.toList.getLast?.all fun c => !Text.isBlank c

/-- Labels that a selector can express. -/
def Plain (labels : Table String String) : Prop :=
  ∀ name value, (name, value) ∈ labels.entries → PlainTerm name value

namespace PlainTerm

variable {name value : String}

theorem toList_term (name value : String) :
    (name ++ "=" ++ value).toList = name.toList ++ '=' :: value.toList := by
  simp

/-- A term is not cut by commas. -/
theorem no_comma (h : PlainTerm name value) : ',' ∉ (name ++ "=" ++ value).toList := by
  rw [toList_term, List.mem_append, List.mem_cons, not_or, not_or]
  exact ⟨h.undivided.2, by decide, h.whole⟩

/-- A term has no blanks at its ends. -/
theorem trim_term (h : PlainTerm name value) :
    Text.trim (name ++ "=" ++ value) = name ++ "=" ++ value := by
  apply Text.trim_eq_self
  · rw [toList_term]
    cases hname : name.toList with
    | nil => exact absurd (String.toList_eq_nil_iff.mp hname) h.named
    | cons c rest =>
      have hstart := h.start
      rw [hname] at hstart
      exact hstart
  · rw [toList_term, List.getLast?_append]
    cases hvalue : value.toList with
    | nil =>
      show (!Text.isBlank '=') = true
      decide
    | cons c rest =>
      have hfinish := h.finish
      rw [hvalue] at hfinish
      rw [List.getLast?_cons_cons, Option.or_of_isSome (by simp)]
      exact hfinish

/-- A term is read back. -/
theorem parseTerm_term (h : PlainTerm name value) :
    parseTerm (name ++ "=" ++ value) = .ok (name, value) := by
  have hcut : Text.cutFirst? '=' (name ++ "=" ++ value) = some (name, value) :=
    Text.cutFirst?_of_toList (toList_term name value) h.undivided.1
  rw [parseTerm, hcut]
  dsimp only
  rw [if_neg (by simpa using h.named)]

end PlainTerm

/-- The term of a name and a value. -/
def term (entry : String × String) : String := entry.1 ++ "=" ++ entry.2

/-- The terms of a selector are those that it was joined of. -/
theorem terms_display {labels : Table String String} (h : Plain labels) :
    terms (display labels) = labels.entries.map term := by
  have hdisplay : display labels = (String.singleton ',').intercalate (labels.entries.map term) :=
    rfl
  cases hentries : labels.entries with
  | nil =>
    rw [hentries] at hdisplay
    rw [hdisplay]
    rfl
  | cons entry rest =>
    have hcut : Text.cutAll ',' (display labels) = labels.entries.map term := by
      rw [hdisplay]
      refine Text.cutAll_intercalate (by simp [hentries]) fun part hpart => ?_
      obtain ⟨⟨name, value⟩, hmem, rfl⟩ := List.mem_map.mp hpart
      exact (h name value hmem).no_comma
    rw [← hentries, terms, hcut, List.map_map]
    -- No term is changed by trimming, and none is empty.
    have htrim : labels.entries.map (Text.trim ∘ term) = labels.entries.map term :=
      List.map_congr_left fun entry hmem => (h entry.1 entry.2 hmem).trim_term
    rw [htrim, List.filter_eq_self]
    intro part hpart
    obtain ⟨⟨name, value⟩, _, rfl⟩ := List.mem_map.mp hpart
    simp [term]

/-- Terms are read one by one. -/
theorem mapM_parseTerm {entries : List (String × String)}
    (h : ∀ name value, (name, value) ∈ entries → PlainTerm name value) :
    (entries.map term).mapM parseTerm = .ok entries := by
  induction entries with
  | nil => rfl
  | cons entry rest ih =>
    have hentry := (h entry.1 entry.2 List.mem_cons_self).parseTerm_term
    have hrest := ih fun name value hmem => h name value (List.mem_cons_of_mem _ hmem)
    rw [List.map_cons, List.mapM_cons, term, hentry, hrest]
    rfl

/-- **Round trip.** Labels that a selector can express are read back from it. -/
theorem parse_display {labels : Table String String} (h : Plain labels) :
    parse (display labels) = .ok labels := by
  rw [parse, terms_display h, mapM_parseTerm h, Except.map, Table.ofList_entries]

end Selector

end Reconciliation
