import Reconciliation.Key
import Reconciliation.Proofs.Fallible
import Reconciliation.Proofs.Text.Cut

namespace Reconciliation

/-!
# Which texts name keys

* `nameChars_of_validateName`, `not_mem_of_validateName` — what an accepted name is made of;
* `Key.Accepted` — a key whose parts are accepted names;
* `Key.parse_eq_ok_iff` — a text names a key exactly if it is that key as text, and the key is accepted.

No name holds a slash, so that the first slash of a text is where the namespace ends.
-/

/-- An accepted name is not empty, and made of lowercase letters, digits, dashes and dots. -/
theorem nameChars_of_validateName {name : String} (h : validateName name = .ok ()) :
    name ≠ "" ∧ ∀ c ∈ name.toList, isNameChar c = true := by
  unfold validateName at h
  split at h
  · cases h
  · rename_i hsize
    split at h
    · cases h
    · rename_i hchars
      simp only [Bool.or_eq_true, not_or, Bool.not_eq_true, String.isEmpty_eq_false_iff] at hsize
      simp only [Bool.not_eq_true, Bool.not_eq_false', List.all_eq_true] at hchars
      exact ⟨hsize.1, hchars⟩

/-- A character that no name holds is not in an accepted name. -/
theorem not_mem_of_validateName {name : String} {c : Char} (h : validateName name = .ok ())
    (hc : isNameChar c = false) : c ∉ name.toList := by
  intro hmem
  rw [(nameChars_of_validateName h).2 c hmem] at hc
  cases hc

namespace Key

/-- A key whose name, and whose namespace if it has one, are accepted. -/
structure Accepted (key : Key) : Prop where
  name : validateName key.name.text = .ok ()
  scope : ∀ space, key.scope = some space → validateName space.text = .ok ()

theorem accepted_iff_of_some {key : Key} {space : Namespace} (h : key.scope = some space) :
    key.Accepted ↔ validateName space.text = .ok () ∧ validateName key.name.text = .ok () := by
  constructor
  · intro haccepted
    exact ⟨haccepted.scope space h, haccepted.name⟩
  · rintro ⟨hscope, hname⟩
    refine ⟨hname, fun other hother => ?_⟩
    obtain rfl : space = other := Option.some.inj (h.symm.trans hother)
    exact hscope

theorem accepted_iff_of_none {key : Key} (h : key.scope = none) :
    key.Accepted ↔ validateName key.name.text = .ok () := by
  refine ⟨fun haccepted => haccepted.name, fun hname => ⟨hname, fun space hspace => ?_⟩⟩
  rw [h] at hspace
  cases hspace

/-- A key in a namespace has a slash in its text. -/
theorem slash_mem_display {key : Key} {space : Namespace} (h : key.scope = some space) :
    '/' ∈ key.display.toList := by
  simp [display, h]

/-- The text of a key of the whole cluster is its name. -/
theorem display_of_cluster {key : Key} (h : key.scope = none) : key.display = key.name.text := by
  rw [display, h]

/-- The text of a key is cut behind its namespace, if that holds no slash itself. -/
theorem cutFirst?_display {scope name : String} (h : '/' ∉ scope.toList) :
    Text.cutFirst? '/' (scope ++ "/" ++ name) = some (scope, name) :=
  Text.cutFirst?_of_toList (by simp) h

/-- A text names a key exactly if it is that key as text, and the key is accepted. -/
theorem parse_eq_ok_iff {text : String} {key : Key} :
    parse text = .ok key ↔ key.display = text ∧ key.Accepted := by
  constructor
  · intro h
    unfold parse at h
    split at h
    · rename_i scope name hcut
      obtain ⟨_, hscope, h⟩ := bind_eq_ok.mp h
      obtain ⟨_, hname, h⟩ := bind_eq_ok.mp h
      cases h
      refine ⟨String.toList_inj.mp ?_, (accepted_iff_of_some rfl).mpr ⟨hscope, hname⟩⟩
      rw [(Text.toList_of_cutFirst? hcut).1]
      simp [display, namespaced]
    · obtain ⟨_, hname, h⟩ := bind_eq_ok.mp h
      cases h
      exact ⟨rfl, (accepted_iff_of_none rfl).mpr hname⟩
  · rintro ⟨rfl, haccepted⟩
    obtain ⟨scope, name⟩ := key
    cases scope with
    | none =>
      have hslash : '/' ∉ name.text.toList := not_mem_of_validateName haccepted.name (by decide)
      have hcut := Text.cutFirst?_of_not_mem hslash
      rw [parse, display, hcut]
      exact bind_eq_ok.mpr ⟨(), haccepted.name, rfl⟩
    | some space =>
      have hscope := haccepted.scope space rfl
      rw [parse, display, cutFirst?_display (not_mem_of_validateName hscope (by decide))]
      exact bind_eq_ok.mpr ⟨(), hscope, bind_eq_ok.mpr ⟨(), haccepted.name, rfl⟩⟩

/-- A text with a slash names the key of what stands before and behind it. -/
theorem parse_qualified {scope name : String} {key : Key} (plain : '/' ∉ scope.toList) :
    parse (scope ++ "/" ++ name) = .ok key ↔
      (validateName scope = .ok () ∧ validateName name = .ok ()) ∧ key = namespaced scope name := by
  rw [parse, cutFirst?_display plain]
  constructor
  · intro h
    obtain ⟨_, hscope, h⟩ := bind_eq_ok.mp h
    obtain ⟨_, hname, h⟩ := bind_eq_ok.mp h
    cases h
    exact ⟨⟨hscope, hname⟩, rfl⟩
  · rintro ⟨⟨hscope, hname⟩, rfl⟩
    exact bind_eq_ok.mpr ⟨(), hscope, bind_eq_ok.mpr ⟨(), hname, rfl⟩⟩

end Key

end Reconciliation
