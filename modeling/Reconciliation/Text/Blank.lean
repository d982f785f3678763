namespace Reconciliation.Text

/-!
# Blanks and cuts

Blank characters, and the ways a text is cut at a separator:

* `isBlank` — the characters with the Unicode property `White_Space`;
* `trim` — a text without the blanks at its two ends;
* `cutFirst?`, `cutLast?` — the parts before and after the first and the last separator;
* `cutAll` — all parts between separators, at least one;
* `dropEnd` — a text without the given character at its end, however often it stands there.

All work on lists of characters; the versions on `String` carry the same name there.
-/

/-- Whether the character has the property `White_Space`. -/
def isBlank (c : Char) : Bool :=
  [0x20, 0x85, 0xa0, 0x1680, 0x2028, 0x2029, 0x202f, 0x205f, 0x3000].contains c.toNat ||
    (0x9 ≤ c.toNat && c.toNat ≤ 0xd) || (0x2000 ≤ c.toNat && c.toNat ≤ 0x200a)

/-- The list without the elements at its end that satisfy `p`. -/
def dropEndWhile {α : Type} (p : α → Bool) (xs : List α) : List α :=
  (xs.reverse.dropWhile p).reverse

/-- The characters without the blanks at both ends. -/
def trimChars (cs : List Char) : List Char :=
  dropEndWhile isBlank (cs.dropWhile isBlank)

/-- The text without the blanks at both ends. -/
def trim (text : String) : String :=
  String.ofList (trimChars text.toList)

/-- The text without any `c` at its end. -/
def dropEnd (c : Char) (text : String) : String :=
  String.ofList (dropEndWhile (· == c) text.toList)

/-- The elements before and after the first `separator`, if there is one. -/
def cutFirstChars? (separator : Char) : List Char → Option (List Char × List Char)
  | [] => none
  | c :: rest =>
    if c = separator then some ([], rest)
    else (cutFirstChars? separator rest).map fun (before, after) => (c :: before, after)

/-- The texts before and after the first `separator`, if there is one. -/
def cutFirst? (separator : Char) (text : String) : Option (String × String) :=
  (cutFirstChars? separator text.toList).map fun (before, after) =>
    (String.ofList before, String.ofList after)

/-- The texts before and after the last `separator`, if there is one. -/
def cutLast? (separator : Char) (text : String) : Option (String × String) :=
  (cutFirstChars? separator text.toList.reverse).map fun (after, before) =>
    (String.ofList before.reverse, String.ofList after.reverse)

/-- The stretches between the separators, one more than there are separators. -/
def cutAllChars (separator : Char) : List Char → List (List Char)
  | [] => [[]]
  | c :: rest =>
    if c = separator then [] :: cutAllChars separator rest
    else
      match cutAllChars separator rest with
      | [] => [[c]]
      | part :: parts => (c :: part) :: parts

/-- The texts between the separators, one more than there are separators. -/
def cutAll (separator : Char) (text : String) : List String :=
  (cutAllChars separator text.toList).map String.ofList

/-- The part after `start`, if the text begins with it. -/
def after? (start text : String) : Option String :=
  if start.toList.isPrefixOf text.toList then
    some (String.ofList (text.toList.drop start.length))
  else none

/-! ### What a cut keeps -/

/-- Joining the two parts again gives the list that was cut, and the first part holds no
    separator. -/
theorem cutFirstChars?_eq_some {separator : Char} {cs before after : List Char}
    (h : cutFirstChars? separator cs = some (before, after)) :
    cs = before ++ separator :: after ∧ separator ∉ before := by
  induction cs generalizing before with
  | nil => simp [cutFirstChars?] at h
  | cons c rest ih =>
    rw [cutFirstChars?] at h
    split at h
    · rename_i hc
      simp only [Option.some.injEq, Prod.mk.injEq] at h
      obtain ⟨rfl, rfl⟩ := h
      simp [hc]
    · rename_i hc
      obtain ⟨⟨front, back⟩, hcut, heq⟩ := Option.map_eq_some_iff.mp h
      simp only [Prod.mk.injEq] at heq
      obtain ⟨rfl, rfl⟩ := heq
      obtain ⟨hrest, hfree⟩ := ih hcut
      exact ⟨by rw [hrest, List.cons_append], by simp [hfree, Ne.symm hc]⟩

/-- Nothing is cut exactly when there is no separator. -/
theorem cutFirstChars?_eq_none_iff {separator : Char} {cs : List Char} :
    cutFirstChars? separator cs = none ↔ separator ∉ cs := by
  induction cs with
  | nil => simp [cutFirstChars?]
  | cons c rest ih =>
    rw [cutFirstChars?]
    by_cases hc : c = separator
    · simp [hc]
    · simp [hc, ih, Ne.symm hc]

end Reconciliation.Text
