import Reconciliation.CommandLine.Session
import Reconciliation.Proofs.Discovery
import Reconciliation.Proofs.Key
import Reconciliation.Proofs.Memory.Run

namespace Reconciliation.CommandLine

/-!
# How types and objects are named

A type is named by `Kind.group/version`, and an object in a namespace by `namespace/name`, or by its bare
name beside the namespace:

* `wordFor`, `resolveType_wordFor` — the word for a declared type, and the type that it means;
* `resolveKey_eq_ok_iff` — which key a text means for a type;
* `resolveKey_bare`, `resolveKey_qualified` — what each of the two ways to name an object means;
* `resolveKey_agree_iff` — when both ways mean the same;
* `accepted_of_resolveKey` — which keys that were returned are accepted;
* `resolveKey_display`, `resolveKey_name` — when the two ways to name a key mean the key;
* `two_ways_to_name` — when both ways agree, and what they return.

The namespace in a text is checked, and the namespace beside a bare name is not.
-/

/-! ### Words for types -/

/-- The word for a declared type, `Kind.group/version`, or `Kind/version` in the core group. -/
def wordFor (gvk : GroupVersionKind) : String :=
  gvk.kind ++ (if gvk.group = "" then "" else "." ++ gvk.group) ++ "/" ++ gvk.version

/-- A declared type whose parts do not look like the ends of words. -/
structure Wordable (gvk : GroupVersionKind) : Prop where
  kind : gvk.kind ≠ ""
  kindSlash : '/' ∉ gvk.kind.toList
  kindDot : '.' ∉ gvk.kind.toList
  groupSlash : '/' ∉ gvk.group.toList

/-- The types that are built in have words. -/
theorem wordable_of_mem_builtin {type : ResourceType} (h : type ∈ TypeTable.builtin.types) :
    Wordable type.gvk := by
  have hall : ∀ type ∈ TypeTable.builtin.types, type.kind ≠ "" ∧ '/' ∉ type.kind.toList ∧
      '.' ∉ type.kind.toList ∧ '/' ∉ type.group.toList := by
    decide
  obtain ⟨hkind, hslash, hdot, hgroup⟩ := hall type h
  exact ⟨hkind, hslash, hdot, hgroup⟩

/-- The word for a declared type means the type that is registered for it. -/
theorem resolveType_wordFor {gvk : GroupVersionKind} (h : Wordable gvk) (types : TypeTable) :
    resolveType types (wordFor gvk) = (types.resolveGvk gvk).mapError (·.message) := by
  have hcut : ∀ coordinates : String, '/' ∉ coordinates.toList →
      Text.cutFirst? '/' (coordinates ++ "/" ++ gvk.version) = some (coordinates, gvk.version) :=
    fun coordinates hslash => Text.cutFirst?_of_toList (by simp) hslash
  have hkind : gvk.kind.isEmpty = false := by simpa using h.kind
  unfold resolveType wordFor
  by_cases hgroup : gvk.group = ""
  · rw [if_pos hgroup, String.append_empty, hcut _ h.kindSlash]
    dsimp only [Option.getD]
    rw [Text.cutFirst?_of_not_mem h.kindDot]
    dsimp only [Option.getD]
    rw [hkind, TypeTable.resolveGvk, hgroup]
    rfl
  · have hslash : '/' ∉ (gvk.kind ++ ("." ++ gvk.group)).toList := by
      simp [h.kindSlash, h.groupSlash]
    have hdot : Text.cutFirst? '.' (gvk.kind ++ ("." ++ gvk.group)) = some (gvk.kind, gvk.group) :=
      Text.cutFirst?_of_toList (by simp) h.kindDot
    rw [if_neg hgroup, hcut _ hslash]
    dsimp only [Option.getD]
    rw [hdot]
    dsimp only [Option.getD]
    rw [hkind, TypeTable.resolveGvk]
    rfl

/-! ### Names of objects -/

section Resolved

variable {type : ResourceType} {text scope name : String} {key : Key}

/-- A text means the key that it names, if that key has a namespace exactly when objects of the type have
    one.  A bare name of a namespaced type means the key in the namespace beside it. -/
theorem resolveKey_eq_ok_iff : resolveKey type text scope = .ok key ↔
    (Key.parse text = .ok key ∧ key.scope.isSome = type.namespaced) ∨
      (type.namespaced = true ∧ validateName text = .ok () ∧ key = .namespaced scope text) := by
  constructor
  · intro h
    obtain ⟨parsed, hparse, h⟩ := bind_eq_ok.mp h
    rw [mapError_eq_ok] at hparse
    split at h
    · rename_i hnamespaced hscope
      cases h
      obtain ⟨rfl, haccepted⟩ := Key.parse_eq_ok_iff.mp hparse
      rw [Key.display_of_cluster hscope]
      exact Or.inr ⟨hnamespaced, haccepted.name, rfl⟩
    · cases h
    · rename_i hnamespaced hscope
      cases h
      exact Or.inl ⟨hparse, by rw [hnamespaced, hscope, Option.isSome_some]⟩
    · rename_i hnamespaced hscope
      cases h
      exact Or.inl ⟨hparse, by rw [hnamespaced, hscope, Option.isSome_none]⟩
  · rintro (⟨hparse, hscoped⟩ | ⟨hnamespaced, hname, rfl⟩)
    · refine bind_eq_ok.mpr ⟨key, mapError_eq_ok.mpr hparse, ?_⟩
      cases hscope : key.scope with
      | none =>
        rw [← hscoped, hscope]
        rfl
      | some space =>
        rw [← hscoped, hscope]
        rfl
    · have hparse : Key.parse text = .ok (.cluster text) :=
        Key.parse_eq_ok_iff.mpr ⟨rfl, (Key.accepted_iff_of_none rfl).mpr hname⟩
      refine bind_eq_ok.mpr ⟨_, mapError_eq_ok.mpr hparse, ?_⟩
      rw [hnamespaced]
      rfl

/-- A bare name beside a namespace means the key of both, if the name is accepted. -/
theorem resolveKey_bare (namespaced : type.namespaced = true) (bare : '/' ∉ name.toList) :
    resolveKey type name scope = .ok key ↔
      validateName name = .ok () ∧ key = .namespaced scope name := by
  rw [resolveKey_eq_ok_iff, Key.parse_eq_ok_iff, namespaced]
  constructor
  · rintro (⟨⟨rfl, _⟩, hscoped⟩ | ⟨_, hname, hkey⟩)
    · obtain ⟨space, hspace⟩ := Option.isSome_iff_exists.mp hscoped
      exact absurd (Key.slash_mem_display hspace) bare
    · exact ⟨hname, hkey⟩
  · exact fun ⟨hname, hkey⟩ => Or.inr ⟨rfl, hname, hkey⟩

/-- A name behind a namespace means the key of both, if both are accepted, whatever stands beside. -/
theorem resolveKey_qualified (namespaced : type.namespaced = true) (plain : '/' ∉ scope.toList)
    (other : String) : resolveKey type (scope ++ "/" ++ name) other = .ok key ↔
      (validateName scope = .ok () ∧ validateName name = .ok ()) ∧ key = .namespaced scope name := by
  rw [resolveKey_eq_ok_iff, Key.parse_qualified plain, namespaced]
  constructor
  · rintro (⟨hparts, _⟩ | ⟨_, hname, _⟩)
    · exact hparts
    · exact absurd (by simp) (not_mem_of_validateName (c := '/') hname (by decide))
  · rintro ⟨haccepted, rfl⟩
    exact Or.inl ⟨⟨haccepted, rfl⟩, rfl⟩

/-- Both ways fail or both mean the same key exactly if the namespace is accepted whenever the name is. -/
theorem resolveKey_agree_iff (namespaced : type.namespaced = true) (plain : '/' ∉ scope.toList)
    (bare : '/' ∉ name.toList) (other : String) :
    (resolveKey type name scope).toOption = (resolveKey type (scope ++ "/" ++ name) other).toOption ↔
      (validateName name = .ok () → validateName scope = .ok ()) := by
  rw [toOption_eq_iff]
  simp only [resolveKey_bare namespaced bare, resolveKey_qualified namespaced plain]
  constructor
  · intro h hname
    exact ((h (.namespaced scope name)).mp ⟨hname, rfl⟩).1.1
  · intro h key
    constructor
    · rintro ⟨hname, hkey⟩
      exact ⟨⟨h hname, hname⟩, hkey⟩
    · rintro ⟨⟨_, hname⟩, hkey⟩
      exact ⟨hname, hkey⟩

/-- The name of a key that was returned is accepted.  So is its namespace, unless it stood beside the name
    and is no accepted one. -/
theorem accepted_of_resolveKey (h : resolveKey type text scope = .ok key) :
    validateName key.name.text = .ok () ∧
      (key.Accepted ↔ '/' ∈ text.toList ∨ type.namespaced = false ∨ validateName scope = .ok ()) := by
  rcases resolveKey_eq_ok_iff.mp h with ⟨hparse, hscoped⟩ | ⟨hnamespaced, hname, rfl⟩
  · obtain ⟨rfl, haccepted⟩ := Key.parse_eq_ok_iff.mp hparse
    refine ⟨haccepted.name, fun _ => ?_, fun _ => haccepted⟩
    cases hscope : key.scope with
    | none => exact Or.inr (Or.inl (by rw [← hscoped, hscope, Option.isSome_none]))
    | some space => exact Or.inl (Key.slash_mem_display hscope)
  · have hbare : '/' ∉ text.toList := not_mem_of_validateName hname (by decide)
    refine ⟨hname, ?_⟩
    rw [Key.accepted_iff_of_some rfl, hnamespaced]
    constructor
    · exact fun haccepted => Or.inr (Or.inr haccepted.1)
    · rintro (hslash | hcluster | haccepted)
      · exact absurd hslash hbare
      · cases hcluster
      · exact ⟨haccepted, hname⟩

/-- The text of a key means the key exactly if it is accepted, and has a namespace as objects of the type
    have. -/
theorem resolveKey_display (beside : String) : resolveKey type key.display beside = .ok key ↔
    key.Accepted ∧ key.scope.isSome = type.namespaced := by
  rw [resolveKey_eq_ok_iff, Key.parse_eq_ok_iff]
  constructor
  · rintro (⟨⟨_, haccepted⟩, hscoped⟩ | ⟨_, hname, hkey⟩)
    · exact ⟨haccepted, hscoped⟩
    · -- The key has a namespace, so that its text is no name.
      have hslash := Key.slash_mem_display (congrArg Key.scope hkey)
      exact absurd hslash (not_mem_of_validateName hname (by decide))
  · exact fun ⟨haccepted, hscoped⟩ => Or.inl ⟨⟨rfl, haccepted⟩, hscoped⟩

/-- The name of a key in a namespace, beside a namespace, means the key exactly if that is the namespace
    and the name is accepted, and objects of the type have namespaces. -/
theorem resolveKey_name {space : Namespace} (h : key.scope = some space) (beside : String) :
    resolveKey type key.name.text beside = .ok key ↔
      type.namespaced = true ∧ validateName key.name.text = .ok () ∧ beside = space.text := by
  rw [resolveKey_eq_ok_iff, Key.parse_eq_ok_iff]
  constructor
  · rintro (⟨⟨hdisplay, _⟩, _⟩ | ⟨hnamespaced, hname, hkey⟩)
    · -- The text of the key is longer than its name.
      have hlength := congrArg String.length hdisplay
      rw [Key.display, h] at hlength
      simp only [String.length_append] at hlength
      have hone : "/".length = 1 := rfl
      omega
    · have hscope := congrArg Key.scope hkey
      rw [h] at hscope
      exact ⟨hnamespaced, hname, (congrArg Namespace.text (Option.some.inj hscope)).symm⟩
  · rintro ⟨hnamespaced, hname, rfl⟩
    refine Or.inr ⟨hnamespaced, hname, ?_⟩
    obtain ⟨scope, name⟩ := key
    obtain rfl : scope = some space := h
    rfl

end Resolved

/-- **Two ways to name an object.**  For a namespaced type, and a namespace and a name without slashes:
    the name beside the namespace and the name behind it, whatever stands beside, both fail or both mean
    the same key exactly if the namespace is accepted whenever the name is.  Whatever is asked for, the
    name of a key that is returned is accepted; and so is its namespace, exactly if the text held a
    slash, or objects of the type have no namespace, or the one beside the text is accepted. -/
theorem two_ways_to_name (type : ResourceType) (text scope : String) :
    (type.namespaced = true → '/' ∉ scope.toList → '/' ∉ text.toList → ∀ other,
      ((resolveKey type text scope).toOption =
          (resolveKey type (scope ++ "/" ++ text) other).toOption ↔
        (validateName text = .ok () → validateName scope = .ok ()))) ∧
    ∀ key, resolveKey type text scope = .ok key →
      validateName key.name.text = .ok () ∧
        ((∀ space, key.scope = some space → validateName space.text = .ok ()) ↔
          '/' ∈ text.toList ∨ type.namespaced = false ∨ validateName scope = .ok ()) := by
  refine ⟨fun namespaced plain bare other => resolveKey_agree_iff namespaced plain bare other,
    fun key h => ?_⟩
  obtain ⟨hname, haccepted⟩ := accepted_of_resolveKey h
  refine ⟨hname, ?_⟩
  rw [← haccepted]
  exact ⟨fun hscope => ⟨hname, hscope⟩, fun h => h.scope⟩

namespace Beside

open Specimen

/-- Both ways to name `ns/a` agree, and both ways to name `NS/a` do not. -/
theorem agree_of_lowercase :
    (resolveKey secrets "a" "ns").toOption = (resolveKey secrets ("ns" ++ "/" ++ "a") "default").toOption ∧
    (resolveKey secrets "a" "NS").toOption ≠
      (resolveKey secrets ("NS" ++ "/" ++ "a") "default").toOption := by
  have hlower := (two_ways_to_name secrets "a" "ns").1 rfl (by decide) (by decide) "default"
  have hupper := (two_ways_to_name secrets "a" "NS").1 rfl (by decide) (by decide) "default"
  exact ⟨hlower.mpr fun _ => rfl, fun h => by cases hupper.mp h rfl⟩

/-- **A namespace that is not checked.**  The namespace `NS` is no accepted one, and the qualified name is
    refused for it.  The bare name beside it is not, nor are those beside the word for all namespaces and
    beside the empty text. -/
theorem unchecked_namespace :
    validateName "NS" ≠ .ok () ∧
    resolveKey secrets "NS/a" "default" = .error "invalid name: 'NS' must match [a-z0-9.-]" ∧
    resolveKey secrets "a" "NS" = .ok (.namespaced "NS" "a") ∧
    resolveKey secrets "a" Wire.allNamespaces = .ok (.namespaced Wire.allNamespaces "a") ∧
    resolveKey secrets "a" "" = .ok (.namespaced "" "a") :=
  ⟨fun h => (by cases h), rfl, rfl, rfl, rfl⟩

end Beside

end Reconciliation.CommandLine
