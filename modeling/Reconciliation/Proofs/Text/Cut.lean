import Reconciliation.Text.Blank

namespace Reconciliation.Text

/-!
# What cuts give

* `after?_append` — a start is taken off;
* `cutFirst?_of_toList`, `toList_of_cutFirst?` — the first cut, by the characters before it;
* `cutFirst?_of_not_mem` — no cut;
* `cutLast?_of_toList` — the last cut, by the characters behind it;
* `cutAllChars_eq_splitOn`, `cutAll_intercalate` — cutting at every separator undoes joining;
* `not_mem_of_mem_splitOn` — no part holds the separator;
* `trim_eq_self`, `head?_trim`, `getLast?_trim` — texts without blanks at their ends;
* `exists_append_dropEnd` — what is taken off the end of a text.
-/

/-! ### Starts -/

/-- What follows a start is found behind it. -/
theorem after?_append (start rest : String) : after? start (start ++ rest) = some rest := by
  have hstarts : start.toList.isPrefixOf (start ++ rest).toList = true := by
    rw [String.toList_append, List.isPrefixOf_iff_prefix]
    exact List.prefix_append _ _
  rw [after?, if_pos hstarts, String.toList_append, ← String.length_toList, List.drop_left,
    String.ofList_toList]

/-! ### The first separator -/

theorem cutFirstChars?_append {separator : Char} {before : List Char} (h : separator ∉ before)
    (after : List Char) :
    cutFirstChars? separator (before ++ separator :: after) = some (before, after) := by
  induction before with
  | nil => rw [List.nil_append, cutFirstChars?, if_pos rfl]
  | cons c rest ih =>
    rw [List.mem_cons, not_or] at h
    rw [List.cons_append, cutFirstChars?, if_neg (Ne.symm h.1), ih h.2]
    rfl

/-- A text is cut at a separator that the characters before it do not hold. -/
theorem cutFirst?_of_toList {separator : Char} {text before after : String}
    (htext : text.toList = before.toList ++ separator :: after.toList)
    (h : separator ∉ before.toList) : cutFirst? separator text = some (before, after) := by
  rw [cutFirst?, htext, cutFirstChars?_append h, Option.map_some]
  dsimp only
  rw [String.ofList_toList, String.ofList_toList]

/-- A text without the separator is not cut. -/
theorem cutFirst?_of_not_mem {separator : Char} {text : String} (h : separator ∉ text.toList) :
    cutFirst? separator text = none := by
  rw [cutFirst?, cutFirstChars?_eq_none_iff.mpr h, Option.map_none]

/-- A text is cut around a separator, and the part before it holds none. -/
theorem toList_of_cutFirst? {separator : Char} {text before after : String}
    (h : cutFirst? separator text = some (before, after)) :
    text.toList = before.toList ++ separator :: after.toList ∧ separator ∉ before.toList := by
  rw [cutFirst?, Option.map_eq_some_iff] at h
  obtain ⟨⟨start, rest⟩, hcut, hparts⟩ := h
  obtain ⟨rfl, rfl⟩ := Prod.mk.inj hparts
  simpa using cutFirstChars?_eq_some hcut

/-! ### The last separator -/

/-- A text is cut at a separator that the characters behind it do not hold. -/
theorem cutLast?_of_toList {separator : Char} {text before after : String}
    (htext : text.toList = before.toList ++ separator :: after.toList)
    (h : separator ∉ after.toList) : cutLast? separator text = some (before, after) := by
  have hreverse : text.toList.reverse =
      after.toList.reverse ++ separator :: before.toList.reverse := by
    simp [htext]
  have hbehind : separator ∉ after.toList.reverse := by simpa using h
  rw [cutLast?, hreverse, cutFirstChars?_append hbehind, Option.map_some]
  simp

/-! ### Every separator -/

theorem cutAllChars_eq_splitOn (separator : Char) (cs : List Char) :
    cutAllChars separator cs = cs.splitOn separator := by
  induction cs with
  | nil => rfl
  | cons c rest ih =>
    rw [cutAllChars, List.splitOn_cons_eq_if_modifyHead, ih]
    by_cases hc : c = separator
    · rw [if_pos hc, if_pos (by simp [hc])]
    · rw [if_neg hc, if_neg (by simp [hc])]
      cases hparts : rest.splitOn separator with
      | nil => exact absurd hparts (List.splitOn_ne_nil _ _)
      | cons part parts => rfl

/-- Cutting at every separator undoes joining, if no part holds a separator. -/
theorem cutAll_intercalate {separator : Char} {parts : List String} (hne : parts ≠ [])
    (h : ∀ part ∈ parts, separator ∉ part.toList) :
    cutAll separator ((String.singleton separator).intercalate parts) = parts := by
  rw [cutAll, cutAllChars_eq_splitOn, String.toList_intercalate, String.toList_singleton,
    List.splitOn_intercalate separator ?_ (by simpa using hne), List.map_map]
  · simp [Function.comp_def]
  · simpa using h

/-- No part between separators holds one. -/
theorem not_mem_of_mem_splitOn {separator : Char} {cs part : List Char}
    (h : part ∈ cs.splitOn separator) : separator ∉ part := by
  induction cs generalizing part with
  | nil =>
    obtain rfl := List.mem_singleton.mp h
    exact List.not_mem_nil
  | cons c rest ih =>
    rw [List.splitOn_cons_eq_if_modifyHead] at h
    split at h
    · rcases List.mem_cons.mp h with rfl | hrest
      · exact List.not_mem_nil
      · exact ih hrest
    · rename_i hc
      -- The first part goes on with one more character, which is no separator.
      cases hparts : rest.splitOn separator with
      | nil => exact absurd hparts (List.splitOn_ne_nil _ _)
      | cons first others =>
        rw [hparts, List.modifyHead_cons] at h
        rcases List.mem_cons.mp h with rfl | hother
        · have hfirst : separator ∉ first := ih (by rw [hparts]; exact List.mem_cons_self)
          simp only [List.mem_cons, not_or]
          exact ⟨fun heq => hc (by simp [heq]), hfirst⟩
        · exact ih (by rw [hparts]; exact List.mem_cons_of_mem _ hother)

/-- What neither the separator nor a part holds is not in what they are joined to. -/
theorem not_mem_intercalate {c : Char} {separator : String} {parts : List String}
    (hseparator : c ∉ separator.toList) (hparts : ∀ part ∈ parts, c ∉ part.toList) :
    c ∉ (separator.intercalate parts).toList := by
  induction parts with
  | nil => simp
  | cons part rest ih =>
    have hpart := hparts part List.mem_cons_self
    have hrest := ih fun other hother => hparts other (List.mem_cons_of_mem _ hother)
    by_cases hne : rest = []
    · rw [hne, String.intercalate_singleton]
      exact hpart
    · rw [String.intercalate_cons_of_ne_nil hne, String.toList_append, String.toList_append]
      simp only [List.mem_append, not_or]
      exact ⟨⟨hpart, hseparator⟩, hrest⟩

/-! ### Blanks -/

/-- A text with no blank at either end stays as it is. -/
theorem trim_eq_self {text : String} (hstart : text.toList.head?.all fun c => !isBlank c)
    (hend : text.toList.getLast?.all fun c => !isBlank c) : trim text = text := by
  have hdrop : ∀ cs : List Char, (cs.head?.all fun c => !isBlank c) = true →
      cs.dropWhile isBlank = cs := by
    intro cs hcs
    cases cs with
    | nil => rfl
    | cons c rest => exact List.dropWhile_cons_of_neg (by simpa using hcs)
  rw [trim, trimChars, hdrop _ hstart, dropEndWhile,
    hdrop _ (by rw [List.head?_reverse]; exact hend), List.reverse_reverse, String.ofList_toList]

/-- What is left of a list does not begin with an element that is dropped there. -/
theorem head?_dropWhile {α : Type} (p : α → Bool) (xs : List α) :
    (xs.dropWhile p).head?.all fun x => !p x := by
  have hkept := List.head?_dropWhile_not p xs
  cases hhead : (xs.dropWhile p).head? with
  | none => rfl
  | some x =>
    rw [hhead] at hkept
    simpa using hkept

theorem getLast?_dropEndWhile {α : Type} (p : α → Bool) (xs : List α) :
    (dropEndWhile p xs).getLast?.all fun x => !p x := by
  rw [dropEndWhile, List.getLast?_reverse]
  exact head?_dropWhile p xs.reverse

/-- What is left of a list begins like it. -/
theorem dropEndWhile_initial {α : Type} (p : α → Bool) (xs : List α) : dropEndWhile p xs <+: xs := by
  have hsuffix : xs.reverse.dropWhile p <:+ xs.reverse := List.dropWhile_suffix p
  simpa [dropEndWhile] using List.reverse_prefix.mpr hsuffix

/-- A text is what is left of it without a character at its end, and that character as often as it stood
    there. -/
theorem exists_append_dropEnd (c : Char) (text : String) :
    ∃ n, text = dropEnd c text ++ String.ofList (List.replicate n c) := by
  let ending := text.toList.reverse.takeWhile (· == c)
  have hending : ending.reverse = List.replicate ending.length c := by
    rw [List.eq_replicate_iff]
    refine ⟨List.length_reverse, fun d hd => ?_⟩
    simpa using List.all_eq_true.mp List.all_takeWhile d (List.mem_reverse.mp hd)
  have htext : text.toList = dropEndWhile (· == c) text.toList ++ ending.reverse := by
    rw [dropEndWhile, ← List.reverse_append, List.takeWhile_append_dropWhile, List.reverse_reverse]
  refine ⟨ending.length, String.toList_inj.mp ?_⟩
  rw [String.toList_append, dropEnd, String.toList_ofList, String.toList_ofList, ← hending]
  exact htext

/-- A trimmed text does not begin with a blank. -/
theorem head?_trim (text : String) : (trim text).toList.head?.all fun c => !isBlank c := by
  rw [trim, String.toList_ofList, trimChars]
  obtain ⟨ending, hending⟩ := dropEndWhile_initial isBlank (text.toList.dropWhile isBlank)
  have hstart := head?_dropWhile isBlank text.toList
  cases hleft : dropEndWhile isBlank (text.toList.dropWhile isBlank) with
  | nil => rfl
  | cons c rest =>
    rw [hleft] at hending
    rw [← hending] at hstart
    exact hstart

/-- A trimmed text does not end in a blank. -/
theorem getLast?_trim (text : String) : (trim text).toList.getLast?.all fun c => !isBlank c := by
  rw [trim, String.toList_ofList]
  exact getLast?_dropEndWhile isBlank _

/-- Trimming adds no character. -/
theorem mem_of_mem_trim {c : Char} {text : String} (h : c ∈ (trim text).toList) :
    c ∈ text.toList := by
  rw [trim, String.toList_ofList] at h
  exact (List.dropWhile_suffix isBlank).mem ((dropEndWhile_initial isBlank _).mem h)

end Reconciliation.Text
