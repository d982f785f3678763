import Reconciliation.Proofs.Selector
import Reconciliation.Proofs.Selector.Meaning

namespace Reconciliation.Selector

/-!
# Which labels a selector can express

* `plainTerm_of_parseTerm` — a term without commas, and without blanks at its ends, is read as a name and
  a value that a term can hold;
* `plain_of_parse` — labels that are read from a selector can be expressed;
* `parse_display_iff_plain` — labels are read back from their selector just if they can be expressed.
-/

/-- What is read from a term that is as terms are when they are read: between commas, and trimmed. -/
theorem plainTerm_of_parseTerm {term name value : String}
    (h : parseTerm term = .ok (name, value)) (whole : ',' ∉ term.toList)
    (start : term.toList.head?.all fun c => !Text.isBlank c)
    (finish : term.toList.getLast?.all fun c => !Text.isBlank c) : PlainTerm name value := by
  obtain ⟨hcut, hnamed⟩ := parseTerm_eq_ok_iff.mp h
  obtain ⟨hterm, hname⟩ := Text.toList_of_cutFirst? hcut
  rw [hterm, List.mem_append, List.mem_cons, not_or, not_or] at whole
  obtain ⟨hbefore, -, hafter⟩ := whole
  refine ⟨hnamed, ⟨hname, hbefore⟩, ?_, hafter, ?_⟩
  · -- The name is not empty, so that the term begins with it.
    cases hchars : name.toList with
    | nil => exact absurd (String.toList_eq_nil_iff.mp hchars) hnamed
    | cons c rest =>
      rw [hterm, hchars] at start
      exact start
  · -- If the value is not empty, the term ends in it.
    rw [hterm, List.getLast?_append] at finish
    cases hchars : value.toList with
    | nil => rfl
    | cons c rest =>
      rw [hchars, List.getLast?_cons_cons, Option.or_of_isSome (by simp)] at finish
      exact finish

/-- Terms are what stands between commas, trimmed. -/
theorem exists_piece_of_mem_terms {selector term : String} (h : term ∈ terms selector) :
    ∃ piece ∈ selector.toList.splitOn ',', term = Text.trim (String.ofList piece) := by
  have hmem := (List.mem_filter.mp h).1
  rw [Text.cutAll, Text.cutAllChars_eq_splitOn, List.map_map] at hmem
  obtain ⟨piece, hpiece, rfl⟩ := List.mem_map.mp hmem
  exact ⟨piece, hpiece, rfl⟩

/-- Labels that are read from a selector can be expressed. -/
theorem plain_of_parse {selector : String} {labels : Table String String}
    (h : parse selector = .ok labels) : Plain labels := by
  obtain ⟨read, hread, rfl⟩ := map_eq_ok.mp h
  intro name value hmem
  obtain ⟨term, hterm, hparse⟩ := exists_of_mem_mapM hread (Entries.mem_ofList hmem)
  obtain ⟨piece, hpiece, rfl⟩ := exists_piece_of_mem_terms hterm
  refine plainTerm_of_parseTerm hparse (fun hcomma => ?_) (Text.head?_trim _) (Text.getLast?_trim _)
  have hcomma := Text.mem_of_mem_trim hcomma
  rw [String.toList_ofList] at hcomma
  exact Text.not_mem_of_mem_splitOn hpiece hcomma

/-- **Which labels are read back.**  Labels are read back from their selector if and only if no name is
    empty, holds an equals sign or a comma, or begins with a blank, and no value holds a comma or ends in
    a blank.  All labels that any selector is read as are like that, so that reading it, writing what was
    read and reading again comes to the same as reading it once. -/
theorem parse_display_iff_plain :
    (∀ labels, parse (display labels) = .ok labels ↔ Plain labels) ∧
    ∀ selector labels, parse selector = .ok labels →
      Plain labels ∧ parse (display labels) = parse selector := by
  refine ⟨fun labels => ⟨plain_of_parse, parse_display⟩, fun selector labels h => ?_⟩
  have hplain := plain_of_parse h
  exact ⟨hplain, (parse_display hplain).trans h.symm⟩

/-! ### Blanks -/

/-- Blanks beside the equals sign belong to the name and to the value, and are read back; blanks at the
    ends of a term do not. -/
theorem inner_blanks_read_back :
    parse " b = x ,,a=" = .ok (.ofList [("b ", " x"), ("a", "")]) ∧
    Plain (.ofList [("b ", " x"), ("a", "")]) ∧
    parse (display (.ofList [("b ", " x"), ("a", "")])) = parse " b = x ,,a=" ∧
    parse (display (.ofList [(" b", "x ")])) ≠ .ok (.ofList [(" b", "x ")]) := by
  have accepted : parse " b = x ,,a=" = .ok (.ofList [("b ", " x"), ("a", "")]) := rfl
  obtain ⟨hplain, hagain⟩ := parse_display_iff_plain.2 _ _ accepted
  refine ⟨accepted, hplain, hagain, fun h => ?_⟩
  have hstart := (parse_display_iff_plain.1 _ |>.mp h " b" "x " (by decide)).start
  revert hstart
  decide

end Reconciliation.Selector
