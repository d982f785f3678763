import Mathlib.Data.List.Chain
import Reconciliation.Proofs.Key

namespace Reconciliation

/-!
# Names and subdomains

* `Dns.Label`, `Dns.Subdomain` — the subdomains of DNS-1123: labels that are joined by dots;
* `Dns.Plain` — a text of their characters that begins and ends as they do;
* `Dns.Parted` — a text whose dots stand between letters and digits;
* `validateName_eq_ok_iff` — which texts are accepted as names;
* `Dns.proper_intercalate_iff` — what is joined by dots is plain and parted exactly if every part is a label;
* `Dns.subdomain_iff_accepted` — the subdomains are the accepted texts that are parted.

A name is checked character by character, and as to its ends only where it begins and where it ends.  The
ends of the labels within it are what `Parted` asks for beyond that.
-/

namespace Dns

/-- A lowercase letter or a digit. -/
def Alphanumeric (c : Char) : Prop := ('a' ≤ c ∧ c ≤ 'z') ∨ ('0' ≤ c ∧ c ≤ '9')

instance : DecidablePred Alphanumeric := fun _ => inferInstanceAs (Decidable (_ ∨ _))

/-- The first character is a letter or a digit. -/
def Begins (cs : List Char) : Prop := ∃ c, cs.head? = some c ∧ Alphanumeric c

/-- The last character is a letter or a digit. -/
def Ends (cs : List Char) : Prop := ∃ c, cs.getLast? = some c ∧ Alphanumeric c

/-- A label: lowercase letters, digits and dashes, with a letter or a digit at both ends. -/
structure Label (cs : List Char) : Prop where
  chars : ∀ c ∈ cs, Alphanumeric c ∨ c = '-'
  first : Begins cs
  last : Ends cs

/-- A subdomain: one label or more, joined by dots, and at most 253 bytes. -/
structure Subdomain (name : String) : Prop where
  size : 1 ≤ name.utf8ByteSize ∧ name.utf8ByteSize ≤ 253
  labels : ∃ labels : List String, labels ≠ [] ∧ (∀ label ∈ labels, Label label.toList) ∧
    name = ".".intercalate labels

/-- A text of letters, digits, dashes and dots, with a letter or a digit at both ends. -/
structure Plain (cs : List Char) : Prop where
  chars : ∀ c ∈ cs, Alphanumeric c ∨ c = '-' ∨ c = '.'
  first : Begins cs
  last : Ends cs

/-- What stands beside a dot, before it or behind it, is a letter or a digit. -/
def Parted (cs : List Char) : Prop :=
  cs.IsChain fun c next => (c = '.' → Alphanumeric next) ∧ (next = '.' → Alphanumeric c)

/-! ### Texts without dots -/

theorem not_alphanumeric_dot : ¬ Alphanumeric '.' := by decide

theorem Label.dot_not_mem {cs : List Char} (h : Label cs) : '.' ∉ cs := by
  intro hdot
  rcases h.chars '.' hdot with halphanumeric | hdash
  · exact not_alphanumeric_dot halphanumeric
  · exact absurd hdash (by decide)

theorem parted_of_not_mem {cs : List Char} (h : '.' ∉ cs) : Parted cs := by
  refine List.isChain_iff_forall_rel_of_append_cons_cons.mpr fun c next before after hcs => ?_
  rw [hcs] at h
  refine ⟨?_, ?_⟩
  · rintro rfl
    simp at h
  · rintro rfl
    simp at h

/-- Without dots, plain texts are labels. -/
theorem proper_iff_label {cs : List Char} (h : '.' ∉ cs) : Plain cs ∧ Parted cs ↔ Label cs := by
  constructor
  · rintro ⟨hplain, _⟩
    refine ⟨fun c hc => ?_, hplain.first, hplain.last⟩
    rcases hplain.chars c hc with halphanumeric | hdash | rfl
    · exact .inl halphanumeric
    · exact .inr hdash
    · exact absurd hc h
  · intro hlabel
    exact ⟨⟨fun c hc => (hlabel.chars c hc).imp_right .inl, hlabel.first, hlabel.last⟩,
      parted_of_not_mem h⟩

/-! ### Around a dot -/

section

variable {before after : List Char}

theorem begins_append_dot : Begins (before ++ '.' :: after) ↔ Begins before := by
  cases before with
  | nil => simp [Begins, not_alphanumeric_dot]
  | cons c cs => simp [Begins]

theorem ends_append_dot : Ends (before ++ '.' :: after) ↔ Ends after := by
  cases after with
  | nil => simp [Ends, not_alphanumeric_dot]
  | cons c cs => simp [Ends]

theorem ends_iff_of_begins (h : Begins before) :
    Ends before ↔ ∀ c, before.getLast? = some c → Alphanumeric c := by
  obtain ⟨first, hfirst, _⟩ := h
  have hne : before ≠ [] := by
    rintro rfl
    cases hfirst
  simp [Ends, List.getLast?_eq_some_getLast hne]

theorem begins_iff_of_ends (h : Ends after) :
    Begins after ↔ ∀ c, after.head? = some c → Alphanumeric c := by
  obtain ⟨last, hlast, _⟩ := h
  have hne : after ≠ [] := by
    rintro rfl
    cases hlast
  simp [Begins, List.head?_eq_some_head hne]

/-- A text is parted around a dot if both sides are, and a letter or a digit stands at either side. -/
theorem parted_append_dot :
    Parted (before ++ '.' :: after) ↔ Parted before ∧ Parted after ∧
      (∀ c, before.getLast? = some c → Alphanumeric c) ∧
        ∀ c, after.head? = some c → Alphanumeric c := by
  have hbeside : ∀ c, ((c = '.' → Alphanumeric '.') ∧ Alphanumeric c) ↔ Alphanumeric c := by
    intro c
    refine ⟨And.right, fun h => ⟨?_, h⟩⟩
    rintro rfl
    exact h
  have hbehind : ∀ c, (Alphanumeric c ∧ (c = '.' → Alphanumeric '.')) ↔ Alphanumeric c := by
    intro c
    rw [and_comm, hbeside]
  unfold Parted
  rw [List.isChain_append, List.isChain_cons]
  simp only [List.head?_cons, Option.mem_def, Option.some.injEq, forall_eq', forall_const, hbeside,
    hbehind]
  constructor
  · rintro ⟨hbefore, ⟨hhead, hafter⟩, hlast⟩
    exact ⟨hbefore, hafter, hlast, hhead⟩
  · rintro ⟨hbefore, hafter, hlast, hhead⟩
    exact ⟨hbefore, ⟨hhead, hafter⟩, hlast⟩

/-- A text is plain and parted around a dot if a label stands before it, and behind it a plain and parted
    text again. -/
theorem proper_append_dot (hdot : '.' ∉ before) :
    Plain (before ++ '.' :: after) ∧ Parted (before ++ '.' :: after) ↔
      Label before ∧ Plain after ∧ Parted after := by
  rw [← proper_iff_label hdot, parted_append_dot]
  constructor
  · rintro ⟨hplain, hbefore, hafter, hlast, hfirst⟩
    have hbegins := begins_append_dot.mp hplain.first
    have hends := ends_append_dot.mp hplain.last
    exact ⟨⟨⟨fun c hc => hplain.chars c (List.mem_append_left _ hc), hbegins,
        (ends_iff_of_begins hbegins).mpr hlast⟩, hbefore⟩,
      ⟨fun c hc => hplain.chars c (List.mem_append_right _ (List.mem_cons_of_mem _ hc)),
        (begins_iff_of_ends hends).mpr hfirst, hends⟩, hafter⟩
  · rintro ⟨⟨hplain, hbefore⟩, hrest, hafter⟩
    refine ⟨⟨fun c hc => ?_, begins_append_dot.mpr hplain.first, ends_append_dot.mpr hrest.last⟩,
      hbefore, hafter, (ends_iff_of_begins hplain.first).mp hplain.last,
      (begins_iff_of_ends hrest.last).mp hrest.first⟩
    rcases List.mem_append.mp hc with hleft | hright
    · exact hplain.chars c hleft
    · rcases List.mem_cons.mp hright with rfl | hright
      · exact .inr (.inr rfl)
      · exact hrest.chars c hright

end

/-- Parts without dots, joined by dots, are plain and parted exactly if all of them are labels. -/
theorem proper_intercalate_iff {parts : List (List Char)} (hne : parts ≠ [])
    (hdots : ∀ part ∈ parts, '.' ∉ part) :
    Plain (['.'].intercalate parts) ∧ Parted (['.'].intercalate parts) ↔
      ∀ part ∈ parts, Label part := by
  induction parts with
  | nil => exact absurd rfl hne
  | cons part rest ih =>
    obtain ⟨hdot, hrest⟩ := List.forall_mem_cons.mp hdots
    cases rest with
    | nil => rw [List.intercalate_singleton, List.forall_mem_singleton, proper_iff_label hdot]
    | cons next others =>
      have hjoin : ['.'].intercalate (part :: next :: others) =
          part ++ '.' :: ['.'].intercalate (next :: others) := by
        rw [List.intercalate_cons_cons, List.append_assoc]
        rfl
      rw [hjoin, proper_append_dot hdot, ih (List.cons_ne_nil _ _) hrest, ← List.forall_mem_cons]

end Dns

/-! ### Accepted texts -/

theorem isNameEnd_iff {c : Char} : isNameEnd c = true ↔ Dns.Alphanumeric c := by
  have hlower : c.isLower = (decide (97 ≤ c.val) && decide (c.val ≤ 122)) := rfl
  have hdigit : c.isDigit = (decide (48 ≤ c.val) && decide (c.val ≤ 57)) := rfl
  simp [isNameEnd, hlower, hdigit, Dns.Alphanumeric, Char.le_def]

theorem isNameChar_iff {c : Char} :
    isNameChar c = true ↔ Dns.Alphanumeric c ∨ c = '-' ∨ c = '.' := by
  simp [isNameChar, isNameEnd_iff, or_assoc]

/-- Accepted are the plain texts of 1 to 253 bytes. -/
theorem validateName_eq_ok_iff {name : String} :
    validateName name = .ok () ↔
      (1 ≤ name.utf8ByteSize ∧ name.utf8ByteSize ≤ 253) ∧ Dns.Plain name.toList := by
  have hsize : (name.isEmpty || decide (253 < name.utf8ByteSize)) = false ↔
      1 ≤ name.utf8ByteSize ∧ name.utf8ByteSize ≤ 253 := by
    simp [← String.utf8ByteSize_eq_zero_iff, Nat.one_le_iff_ne_zero]
  have hchars : (!name.toList.all isNameChar) = false ↔
      ∀ c ∈ name.toList, Dns.Alphanumeric c ∨ c = '-' ∨ c = '.' := by
    simp [isNameChar_iff]
  have hends : (name.toList.head?.any isNameEnd && name.toList.getLast?.any isNameEnd) = true ↔
      Dns.Begins name.toList ∧ Dns.Ends name.toList := by
    simp [Option.any_eq_true, isNameEnd_iff, Dns.Begins, Dns.Ends]
  have hplain : Dns.Plain name.toList ↔
      (∀ c ∈ name.toList, Dns.Alphanumeric c ∨ c = '-' ∨ c = '.') ∧
        Dns.Begins name.toList ∧ Dns.Ends name.toList :=
    ⟨fun h => ⟨h.chars, h.first, h.last⟩, fun h => ⟨h.1, h.2.1, h.2.2⟩⟩
  rw [hplain, ← hsize, ← hchars, ← hends]
  unfold validateName
  -- The three rules are gone through in turn, and one that is broken is an error.
  cases name.isEmpty || decide (253 < name.utf8ByteSize) with
  | true => simp
  | false =>
    cases !name.toList.all isNameChar with
    | true => simp
    | false => cases name.toList.head?.any isNameEnd && name.toList.getLast?.any isNameEnd <;> simp

namespace Dns

/-- Subdomains are the texts of 1 to 253 bytes that are plain and parted. -/
theorem subdomain_iff_proper {name : String} :
    Subdomain name ↔ (1 ≤ name.utf8ByteSize ∧ name.utf8ByteSize ≤ 253) ∧
      Plain name.toList ∧ Parted name.toList := by
  constructor
  · rintro ⟨hsize, labels, hne, hlabels, hname⟩
    have hjoined : name.toList = ['.'].intercalate (labels.map String.toList) := by
      rw [hname, String.toList_intercalate]
      rfl
    have hdots : ∀ part ∈ labels.map String.toList, '.' ∉ part := by
      simpa using fun label hlabel => (hlabels label hlabel).dot_not_mem
    rw [hjoined, proper_intercalate_iff (by simpa using hne) hdots]
    exact ⟨hsize, by simpa using hlabels⟩
  · rintro ⟨hsize, hproper⟩
    -- The labels are what stands between the dots.
    have hjoined : ['.'].intercalate (name.toList.splitOn '.') = name.toList :=
      List.intercalate_splitOn '.'
    rw [← hjoined, proper_intercalate_iff (List.splitOn_ne_nil '.' _)
      fun _ => Text.not_mem_of_mem_splitOn] at hproper
    refine ⟨hsize, (name.toList.splitOn '.').map String.ofList, ?_, ?_, ?_⟩
    · simp [List.splitOn_ne_nil]
    · simpa using hproper
    · apply String.toList_inj.mp
      rw [String.toList_intercalate, List.map_map]
      simp [Function.comp_def]

/-- **Names and subdomains.**  Accepted as names are the plain texts of 1 to 253 bytes.  All subdomains are
    accepted, and an accepted text is a subdomain exactly if no dot in it has another dot or a dash at its
    side. -/
theorem subdomain_iff_accepted (name : String) :
    (validateName name = .ok () ↔
      (1 ≤ name.utf8ByteSize ∧ name.utf8ByteSize ≤ 253) ∧ Plain name.toList) ∧
    (Subdomain name ↔ validateName name = .ok () ∧ Parted name.toList) := by
  refine ⟨validateName_eq_ok_iff, ?_⟩
  rw [subdomain_iff_proper, validateName_eq_ok_iff]
  exact and_assoc.symm

/-- **Not every accepted text is a subdomain.**  Within a name a label may be empty, or begin with a dash. -/
theorem accepted_beside_subdomains :
    (validateName "a..b" = .ok () ∧ ¬ Subdomain "a..b") ∧
      validateName "a.-b" = .ok () ∧ ¬ Subdomain "a.-b" := by
  have hempty : ¬ Parted "a..b".toList := by
    unfold Parted
    decide
  have hdash : ¬ Parted "a.-b".toList := by
    unfold Parted
    decide
  exact ⟨⟨by decide, fun h => hempty (subdomain_iff_proper.mp h).2.2⟩, by decide,
    fun h => hdash (subdomain_iff_proper.mp h).2.2⟩

end Dns

end Reconciliation
