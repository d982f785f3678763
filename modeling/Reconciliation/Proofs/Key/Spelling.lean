import Mathlib.Data.Set.Function
import Reconciliation.Proofs.Key
import Reconciliation.Store.Memory

namespace Reconciliation.Key

/-!
# Keys and their texts

* `Spelling` — the texts that are written as keys are: one accepted name, or two with a slash between them;
* `exists_parse_iff` — these are the texts that are read as keys;
* `display_injective` — accepted keys have different texts;
* `display_bijective` — accepted keys and spellings are the same thing, seen from either side.

Only the check of the parts keeps out what is no key: a text is cut at its first slash, and it is the
name behind it that may hold no other one.
-/

/-- The texts that are written as keys are. -/
def Spelling (text : String) : Prop :=
  validateName text = .ok () ∨
    ∃ scope name, validateName scope = .ok () ∧ validateName name = .ok () ∧
      text = scope ++ "/" ++ name

theorem Accepted.spelling {key : Key} (h : key.Accepted) : Spelling key.display := by
  cases hscope : key.scope with
  | none =>
    rw [display_of_cluster hscope]
    exact .inl h.name
  | some space =>
    refine .inr ⟨space.text, key.name.text, h.scope space hscope, h.name, ?_⟩
    rw [display, hscope]

/-- Every spelling is the text of a key. -/
theorem Spelling.exists_key {text : String} (h : Spelling text) :
    ∃ key : Key, key.Accepted ∧ key.display = text := by
  rcases h with hname | ⟨scope, name, hscope, hname, rfl⟩
  · exact ⟨cluster text, (accepted_iff_of_none rfl).mpr hname, rfl⟩
  · exact ⟨namespaced scope name, (accepted_iff_of_some rfl).mpr ⟨hscope, hname⟩, rfl⟩

theorem exists_parse_iff {text : String} : (∃ key, parse text = .ok key) ↔ Spelling text := by
  constructor
  · rintro ⟨key, hparse⟩
    obtain ⟨rfl, haccepted⟩ := parse_eq_ok_iff.mp hparse
    exact haccepted.spelling
  · intro h
    obtain ⟨key, haccepted, hdisplay⟩ := h.exists_key
    exact ⟨key, parse_eq_ok_iff.mpr ⟨hdisplay, haccepted⟩⟩

/-- Of two accepted keys with one text each is what the text is read as. -/
theorem display_injective {key other : Key} (hkey : key.Accepted) (hother : other.Accepted) :
    key.display = other.display ↔ key = other := by
  refine ⟨fun hsame => ?_, congrArg display⟩
  have hread : parse other.display = .ok key := parse_eq_ok_iff.mpr ⟨hsame, hkey⟩
  have hagain : parse other.display = .ok other := parse_eq_ok_iff.mpr ⟨rfl, hother⟩
  exact Except.ok.inj (hread.symm.trans hagain)

/-! ### Texts of keys within others -/

variable {key other : Key}

theorem message_absent_iff {kind : String} :
    (StoreError.absent kind key).message = (StoreError.absent kind other).message ↔
      key.display = other.display := by
  show kind ++ " '" ++ key.display ++ "' not found" = kind ++ " '" ++ other.display ++ "' not found" ↔ _
  rw [String.append_left_inj, String.append_right_inj]

theorem seed_iff {group kind : String} {version : Nat} :
    Memory.seed ⟨group, kind, key⟩ version = Memory.seed ⟨group, kind, other⟩ version ↔
      key.display = other.display := by
  show group ++ "/" ++ kind ++ "/" ++ key.display ++ "/" ++ toString version =
    group ++ "/" ++ kind ++ "/" ++ other.display ++ "/" ++ toString version ↔ _
  rw [String.append_left_inj, String.append_left_inj, String.append_right_inj]

/-- **Keys as texts.**  A text is read as a key exactly if it is an accepted name, or two of them with a slash
    between them.  The key that is read has that text, and every accepted key is read back from its text, so
    that accepted keys and their texts correspond one to one.  Hence different accepted keys stay different
    wherever their texts stand between the same others, as in the wording of an error or in the seed of an
    identity. -/
theorem display_bijective :
    (∀ text, (∃ key, parse text = .ok key) ↔ Spelling text) ∧
    (∀ text key, parse text = .ok key → key.display = text) ∧
    (∀ key, key.Accepted → parse key.display = .ok key) ∧
    Set.BijOn display {key | key.Accepted} {text | Spelling text} ∧
    ∀ key other : Key, key.Accepted → other.Accepted →
      (key.display = other.display ↔ key = other) ∧
      (∀ kind, (StoreError.absent kind key).message = (StoreError.absent kind other).message ↔
        key = other) ∧
      ∀ group kind version,
        Memory.seed ⟨group, kind, key⟩ version = Memory.seed ⟨group, kind, other⟩ version ↔
          key = other := by
  refine ⟨fun _ => exists_parse_iff, fun _ _ h => (parse_eq_ok_iff.mp h).1,
    fun _ h => parse_eq_ok_iff.mpr ⟨rfl, h⟩, ⟨fun _ h => h.spelling, ?_, fun _ h => h.exists_key⟩, ?_⟩
  · intro key hkey other hother hsame
    exact (display_injective hkey hother).mp hsame
  · intro key other hkey hother
    have hdisplay := display_injective hkey hother
    exact ⟨hdisplay, fun _ => message_absent_iff.trans hdisplay, fun _ _ _ => seed_iff.trans hdisplay⟩

/-- A name in a namespace and a name of the whole cluster are told apart, and a second slash is refused. -/
theorem qualified_and_bare_apart :
    parse "ns/a" = .ok (namespaced "ns" "a") ∧ parse "ns.a" = .ok (cluster "ns.a") ∧
    ¬ Spelling "ns/a/b" ∧
    (StoreError.absent "Secret" (namespaced "ns" "a")).message ≠
      (StoreError.absent "Secret" (cluster "ns.a")).message := by
  obtain ⟨hspelling, _, hback, _, happart⟩ := display_bijective
  have hqualified : (namespaced "ns" "a").Accepted :=
    (accepted_iff_of_some rfl).mpr ⟨by decide, by decide⟩
  have hbare : (cluster "ns.a").Accepted := (accepted_iff_of_none rfl).mpr (by decide)
  refine ⟨hback _ hqualified, hback _ hbare, fun h => ?_, fun hsame => ?_⟩
  · obtain ⟨key, hkey⟩ := (hspelling "ns/a/b").mpr h
    have hrefused : (parse "ns/a/b").toOption = none := by decide
    rw [hkey] at hrefused
    cases hrefused
  · exact absurd (((happart _ _ hqualified hbare).2.1 "Secret").mp hsame) (by decide)

end Reconciliation.Key
