import Mathlib.Data.List.Nodup
import Reconciliation.Proofs.Memory.Tokens
import Reconciliation.Proofs.Text.Cut

namespace Reconciliation.Memory

/-!
# Incarnations

From its creation until its deletion an object keeps one identity, and no other object ever gets it:

* `Orderly` — a run in which seeded objects bring no identity and replace nothing, and in which all
  identities are digests of one kind;
* `Birth`, `births` — the writes with which the incarnations of a run begin;
* `nodup_seeds` — no two incarnations begin with the same seed;
* `Throughout` — a slot is occupied all along a run, so that it holds one incarnation;
* `origin` — whatever is held after a run is what its slot has held all along, or began in the run;
* `identity_of_incarnation` — two objects of a run have the same identity exactly if they are of one
  incarnation.

The parts of a seed are joined with slashes, which groups, kinds and keys may contain, too.  What keeps
seeds apart is the number behind the last slash alone.
-/

/-! ### Seeds -/

/-- A seed is cut at its last slash into the written slot and the number. -/
theorem cutLast?_seed (slot : Slot) (number : Nat) :
    Text.cutLast? '/' (seed slot number) =
      some (slot.group ++ "/" ++ slot.kind ++ "/" ++ slot.key.display, toString number) := by
  have hslash : "/".toList = ['/'] := rfl
  apply Text.cutLast?_of_toList
  · simp only [seed, String.toList_append, hslash, List.append_assoc, List.singleton_append]
  · intro hmem
    have hdigit : '/' ∈ Nat.toDigits 10 number := by
      simpa [Nat.toString_eq_ofList_toDigits] using hmem
    have hfalse : '/'.isDigit = true :=
      Nat.isDigit_of_mem_toDigits (by omega) (by omega) hdigit
    cases hfalse

/-- Different writes have different seeds, whatever the slots are. -/
theorem number_of_seed {slot other : Slot} {number later : Nat}
    (h : seed slot number = seed other later) : number = later := by
  have hcut := cutLast?_seed slot number
  rw [h, cutLast?_seed other later] at hcut
  have htext : toString later = toString number := congrArg Prod.snd (Option.some.inj hcut)
  have htoken : token later = token number := congrArg ResourceVersion.mk htext
  exact (token_injective htoken).symm

/-! ### Incarnations begin -/

/-- An event of a run in which seeded objects bring no identity and replace nothing. -/
def Event.Orderly (fingerprint : String → String) (m : Memory) : Event → Prop
  | .call stamp _ => stamp.fingerprint = fingerprint
  | .insert stamp object =>
    stamp.fingerprint = fingerprint ∧ object.metadata.uid = none ∧
      ∀ gvk, object.gvk = .ok gvk → m.objects.find? (slotOf gvk object) = none
  | .failNext _ _ | .restrict _ => True

/-- Whether every event of a run is orderly where it happens. -/
def Orderly (fingerprint : String → String) (m : Memory) : List Event → Prop
  | [] => True
  | event :: rest => event.Orderly fingerprint m ∧ Orderly fingerprint (step event m).2 rest

/-- The write with which an incarnation begins. -/
structure Birth where
  slot : Slot
  number : Nat
deriving DecidableEq, Repr, Inhabited

/-- What the identity of the incarnation is made from. -/
def Birth.seed (birth : Birth) : String := Memory.seed birth.slot birth.number

/-- The slot in which an event begins an incarnation, by its answer. -/
def begun? : Event × Store.Answer → Option Slot
  | (.call _ (.create object), .ok _) | (.insert _ object, .ok _) =>
    object.gvk.toOption.map (slotOf · object)
  | _ => none

/-- The writes with which the incarnations of a run begin, in order. -/
def births (m : Memory) : List Event → List Birth
  | [] => []
  | event :: rest =>
    ((begun? (event, (step event m).1)).map fun slot => ⟨slot, m.version + 1⟩).toList ++
      births (step event m).2 rest

theorem births_append (m : Memory) (first second : List Event) :
    births m (first ++ second) = births m first ++ births (m.after first) second := by
  induction first generalizing m with
  | nil => rfl
  | cons event rest ih =>
    have hrest := ih (step event m).2
    rw [List.cons_append, births, births, hrest, List.append_assoc]
    rfl

theorem orderly_append {fingerprint : String → String} {m : Memory} {first second : List Event} :
    Orderly fingerprint m (first ++ second) ↔
      Orderly fingerprint m first ∧ Orderly fingerprint (m.after first) second := by
  induction first generalizing m with
  | nil => exact ⟨fun h => ⟨trivial, h⟩, fun h => h.2⟩
  | cons event rest ih => exact (and_congr_right fun _ => ih).trans and_assoc.symm

/-- Where an incarnation begins there is a write. -/
theorem Change.version_of_begun {m m' : Memory} {event : Event} {answer : Store.Answer} {slot : Slot}
    (c : Change m event answer m') (h : begun? (event, answer) = some slot) :
    m'.version = m.version + 1 := by
  cases c with
  | keep idle _ _ =>
    unfold begun? at h
    split at h
    case h_3 => cases h
    -- A create or an insert that is idle has failed, and begins nothing.
    all_goals
      rename_i hanswered
      cases hanswered
      obtain ⟨_, hfailed⟩ := idle rfl
      cases hfailed
  | write _ _ _ version => exact version
  | remove _ _ _ _ => cases h

theorem version_le_after (m : Memory) (events : List Event) :
    m.version ≤ (m.after events).version := by
  induction events generalizing m with
  | nil => exact Nat.le_refl _
  | cons event rest ih => exact Nat.le_trans (step_change event m).version_le (ih (step event m).2)

/-- The incarnations of a run begin with its own writes. -/
theorem births_within (m : Memory) (events : List Event) :
    ∀ birth ∈ births m events,
      m.version < birth.number ∧ birth.number ≤ (m.after events).version := by
  induction events generalizing m with
  | nil =>
    intro birth hbirth
    cases hbirth
  | cons event rest ih =>
    intro birth hbirth
    have c := step_change event m
    have hmono : (step event m).2.version ≤ (m.after (event :: rest)).version :=
      version_le_after (step event m).2 rest
    rcases List.mem_append.mp hbirth with hfirst | hrest
    · obtain ⟨slot, hslot, rfl⟩ := Option.map_eq_some_iff.mp (Option.mem_toList.mp hfirst)
      have hversion := c.version_of_begun hslot
      have hbounds : m.version < m.version + 1 ∧ m.version + 1 ≤ (m.after (event :: rest)).version := by
        omega
      exact hbounds
    · have hwithin := ih (step event m).2 birth hrest
      have hstep := c.version_le
      exact ⟨by omega, hwithin.2⟩

/-- Every incarnation begins with a later write than those before it. -/
theorem births_ascending (m : Memory) (events : List Event) :
    (births m events).Pairwise fun earlier later => earlier.number < later.number := by
  induction events generalizing m with
  | nil => exact List.Pairwise.nil
  | cons event rest ih =>
    have c := step_change event m
    rw [births]
    apply List.pairwise_append.mpr
    refine ⟨?_, ih (step event m).2, ?_⟩
    · cases begun? (event, (step event m).1) with
      | none => exact List.Pairwise.nil
      | some slot => exact List.pairwise_singleton _ _
    · intro earlier hearlier later hlater
      obtain ⟨slot, hslot, rfl⟩ := Option.map_eq_some_iff.mp (Option.mem_toList.mp hearlier)
      have hversion := c.version_of_begun hslot
      have hwithin := births_within (step event m).2 rest later hlater
      have hnumber : m.version + 1 < later.number := by omega
      exact hnumber

/-- **Seeds.**  No two incarnations of a run begin with the same seed. -/
theorem nodup_seeds (m : Memory) (events : List Event) :
    ((births m events).map Birth.seed).Nodup := by
  apply List.Pairwise.map Birth.seed _ (births_ascending m events)
  intro earlier later hlt hseed
  have hnumber : earlier.number = later.number := number_of_seed hseed
  omega

/-! ### Where a held object comes from -/

/-- A slot is occupied at every moment of a run. -/
def Throughout (m : Memory) (events : List Event) (slot : Slot) : Prop :=
  ∀ passed, passed <+: events → ∃ object, (m.after passed).objects.find? slot = some object

theorem throughout_cons {m : Memory} {event : Event} {rest : List Event} {slot : Slot} :
    Throughout m (event :: rest) slot ↔
      (∃ object, m.objects.find? slot = some object) ∧ Throughout (step event m).2 rest slot := by
  constructor
  · intro h
    exact ⟨h [] List.nil_prefix, fun passed hpassed => h (event :: passed) (by simpa using hpassed)⟩
  · rintro ⟨hnow, hrest⟩ passed hpassed
    rcases List.prefix_cons_iff.mp hpassed with rfl | ⟨later, rfl, hlater⟩
    · exact hnow
    · exact hrest later hlater

/-- The identity and the time of creation are the same. -/
def SameIdentity (object other : Object) : Prop :=
  object.metadata.uid = other.metadata.uid ∧ object.metadata.created = other.metadata.created

/-- An update keeps identity and time of creation, whatever it is given. -/
theorem sameIdentity_stamped_inPlaceOf {version : Nat} {slot : Slot} {current : Object}
    (kept : Kept version slot current) (stamp : Stamp) (other : Slot) (number : Nat)
    (object : Object) :
    SameIdentity (stamped stamp other number (inPlaceOf current object)) current := by
  obtain ⟨uid, huid⟩ := Option.isSome_iff_exists.mp kept.identified
  obtain ⟨created, hcreated⟩ := Option.isSome_iff_exists.mp kept.dated
  constructor
  · simp [stamped, inPlaceOf, huid]
  · simp [stamped, inPlaceOf, hcreated]

/-- **Step.**  What an orderly event leaves in a slot has the identity of what it found there, or begins
    an incarnation in a free slot, with the digest of its seed. -/
theorem Change.origin {fingerprint : String → String} {m m' : Memory} {event : Event}
    {answer : Store.Answer} (c : Change m event answer m') (h : WellKept m)
    (orderly : event.Orderly fingerprint m) {slot : Slot} {object : Object}
    (held : m'.objects.find? slot = some object) :
    (∃ before, m.objects.find? slot = some before ∧ SameIdentity object before) ∨
    (m.objects.find? slot = none ∧ begun? (event, answer) = some slot ∧
      object.metadata.uid = some ⟨fingerprint (seed slot (m.version + 1))⟩) := by
  cases c with
  | keep _ objects _ =>
    rw [objects] at held
    exact .inl ⟨object, held, rfl, rfl⟩
  | remove _ _ objects _ =>
    rw [objects] at held
    obtain ⟨_, before, hbefore, rfl⟩ := find?_remove held
    exact .inl ⟨before, hbefore, rfl, rfl⟩
  | @write event stamp base gvk m' puts typed objects _ =>
    rw [objects, Table.find?_insert] at held
    split at held
    · rename_i hslot
      obtain rfl := Option.some.inj held
      subst hslot
      cases puts with
      | insert _ _ =>
        obtain ⟨rfl, hunidentified, hfree⟩ := orderly
        refine .inr ⟨hfree gvk typed, ?_, ?_⟩
        · simp [begun?, typed, Except.toOption]
        · simp [stamped, hunidentified]
      | create _ object hfree =>
        obtain rfl := orderly
        have hgvk : object.gvk = .ok gvk := typed
        refine .inr ⟨hfree, ?_, rfl⟩
        simp only [begun?, hgvk, Except.toOption, Option.map_some]
        rfl
      | update _ object current token held _ _ =>
        exact .inl ⟨current, held, sameIdentity_stamped_inPlaceOf (h.kept held) _ _ _ object⟩
    · exact .inl ⟨object, held, rfl, rfl⟩

/-- **Run.**  What is held after an orderly run has the identity of what its slot has held all along, or
    began in the run, before which the slot was free. -/
theorem origin {fingerprint : String → String} {m : Memory} (h : WellKept m) {events : List Event}
    (orderly : Orderly fingerprint m events) {slot : Slot} {object : Object}
    (held : (m.after events).objects.find? slot = some object) :
    (Throughout m events slot ∧
      ∃ before, m.objects.find? slot = some before ∧ SameIdentity object before) ∨
    (¬ Throughout m events slot ∧ ∃ birth ∈ births m events, birth.slot = slot ∧
      object.metadata.uid = some ⟨fingerprint birth.seed⟩) := by
  induction events generalizing m with
  | nil =>
    have hthroughout : Throughout m [] slot := by
      intro passed hpassed
      obtain rfl := List.prefix_nil.mp hpassed
      exact ⟨object, held⟩
    exact .inl ⟨hthroughout, object, held, rfl, rfl⟩
  | cons event rest ih =>
    have c := step_change event m
    rcases ih (c.wellKept h) orderly.2 held with
      ⟨hrest, next, hnext, hsame⟩ | ⟨hrest, birth, hbirth, hslot, huid⟩
    · rcases c.origin h orderly.1 hnext with
        ⟨before, hbefore, hstep⟩ | ⟨hfree, hbegun, huid⟩
      · refine .inl ⟨throughout_cons.mpr ⟨⟨before, hbefore⟩, hrest⟩, before, hbefore, ?_⟩
        exact ⟨hsame.1.trans hstep.1, hsame.2.trans hstep.2⟩
      · refine .inr ⟨fun hall => ?_, ⟨slot, m.version + 1⟩, ?_, rfl, hsame.1.trans huid⟩
        · obtain ⟨⟨before, hbefore⟩, _⟩ := throughout_cons.mp hall
          rw [hfree] at hbefore
          cases hbefore
        · rw [births, hbegun]
          exact List.mem_append_left _ (List.mem_singleton.mpr rfl)
    · refine .inr ⟨fun hall => hrest (throughout_cons.mp hall).2, birth, ?_, hslot, huid⟩
      exact List.mem_append_right _ hbirth

/-- What is held after an orderly run from the empty store began in the run. -/
theorem origin_of_empty {fingerprint : String → String} {events : List Event}
    (orderly : Orderly fingerprint empty events) {slot : Slot} {object : Object}
    (held : (empty.after events).objects.find? slot = some object) :
    ∃ birth ∈ births empty events, birth.slot = slot ∧
      object.metadata.uid = some ⟨fingerprint birth.seed⟩ := by
  rcases origin wellKept_empty orderly held with ⟨_, before, hbefore, _⟩ | ⟨_, hbirth⟩
  · cases hbefore
  · exact hbirth

/-- **Identity.**  Consider a run from the empty store in which no seeded object brings an identity or
    replaces another one, and in which different seeds of its incarnations have different digests.  No
    two of its incarnations begin with the same seed.  Whatever a slot holds at some moment and a slot
    holds at a later one have the same identity exactly if it is the same slot and has been occupied all
    the time in between, and then they have the same time of creation, too. -/
theorem identity_of_incarnation {fingerprint : String → String} {first between : List Event}
    (orderly : Orderly fingerprint empty (first ++ between))
    (separated : ∀ birth ∈ births empty (first ++ between),
      ∀ other ∈ births empty (first ++ between),
        fingerprint birth.seed = fingerprint other.seed → birth.seed = other.seed) :
    ((births empty (first ++ between)).map Birth.seed).Nodup ∧
    ∀ {slot other : Slot} {object later : Object},
      (empty.after first).objects.find? slot = some object →
      (empty.after (first ++ between)).objects.find? other = some later →
      object.metadata.uid.isSome ∧ object.metadata.created.isSome ∧
      (later.metadata.uid = object.metadata.uid ↔
        other = slot ∧ Throughout (empty.after first) between slot) ∧
      (other = slot → Throughout (empty.after first) between slot →
        later.metadata.created = object.metadata.created) := by
  refine ⟨nodup_seeds _ _, ?_⟩
  intro slot other object later held found
  have hkept := (wellKept_empty.after first).kept held
  rw [births_append] at separated
  obtain ⟨horderly, hbetween⟩ := orderly_append.mp orderly
  -- Two incarnations of the run with the same identity began with the same write.
  have hsame : ∀ birth ∈ births empty first ++ births (empty.after first) between,
      ∀ twin ∈ births empty first ++ births (empty.after first) between,
        fingerprint birth.seed = fingerprint twin.seed → birth = twin := by
    intro birth hbirth twin htwin hdigest
    have hseed : birth.seed = twin.seed := separated birth hbirth twin htwin hdigest
    rw [← births_append] at hbirth htwin
    exact List.inj_on_of_nodup_map (nodup_seeds empty (first ++ between)) hbirth htwin hseed
  obtain ⟨birth, hbirth, rfl, huid⟩ := origin_of_empty horderly held
  rw [after_append] at found
  refine ⟨hkept.identified, hkept.dated, ?_⟩
  rcases origin (wellKept_empty.after first) hbetween found with
    ⟨hall, before, hbefore, hidentity⟩ | ⟨hgap, twin, htwin, rfl, htwinUid⟩
  · -- The later object continues what its slot held at the first moment.
    refine ⟨⟨fun heq => ?_, ?_⟩, ?_⟩
    · obtain ⟨twin, htwin, rfl, htwinUid⟩ := origin_of_empty horderly hbefore
      rw [hidentity.1, htwinUid, huid] at heq
      have hdigest : fingerprint twin.seed = fingerprint birth.seed :=
        congrArg Uid.text (Option.some.inj heq)
      obtain rfl := hsame twin (List.mem_append_left _ htwin) birth
        (List.mem_append_left _ hbirth) hdigest
      exact ⟨rfl, hall⟩
    · rintro ⟨rfl, _⟩
      rw [held] at hbefore
      obtain rfl := Option.some.inj hbefore
      exact hidentity.1
    · rintro rfl _
      rw [held] at hbefore
      obtain rfl := Option.some.inj hbefore
      exact hidentity.2
  · -- The later object began after the first moment.
    refine ⟨⟨fun heq => ?_, ?_⟩, ?_⟩
    · rw [htwinUid, huid] at heq
      have hdigest : fingerprint twin.seed = fingerprint birth.seed :=
        congrArg Uid.text (Option.some.inj heq)
      obtain rfl := hsame twin (List.mem_append_right _ htwin) birth
        (List.mem_append_left _ hbirth) hdigest
      have hearly := births_within empty first twin hbirth
      have hlate := births_within (empty.after first) between twin htwin
      omega
    · rintro ⟨heq, hall⟩
      rw [heq] at hgap
      exact absurd hall hgap
    · intro heq hall
      rw [heq] at hgap
      exact absurd hall hgap

/-! ### A slot that is filled twice -/

namespace Refilling

open Specimen

/-- Where the identities and the first times of the run come from. -/
def morning : Stamp := .standard "2026-01-01T06:00:00Z"

/-- Where the identities and the later times come from. -/
def evening : Stamp := .standard "2026-01-01T18:00:00Z"

/-- The slot of an object in a namespace. -/
def slot : Slot := slotAt secrets (key "a")

/-- A slot without a namespace whose parts, joined, read the same. -/
def lookalike : Slot := ⟨"", "Secret/ns", .cluster "a"⟩

/-- The object in the second slot. -/
def twin : Object := .ofKey ⟨"", "v1", "Secret/ns"⟩ lookalike.key

/-- The first object as a client sends it that wants another identity and time of creation for it. -/
def forged : Object :=
  { sample with
    metadata := { sample.metadata with
      version := some (token 1), uid := some ⟨"forged"⟩, created := some "1970-01-01T00:00:00Z" } }

/-- Both slots are filled. -/
def first : List Event := [.call morning (.create sample), .insert morning twin]

/-- The first object is updated. -/
def change : List Event := [.call evening (.update forged)]

/-- The first object is deleted. -/
def deletion : List Event :=
  [.call evening (.delete secrets slot.key ⟨none, some .orphan⟩)]

/-- All that happens after both slots are filled: an update, a deletion and another creation. -/
def course : List Event := change ++ deletion ++ [.call evening (.create forged)]

theorem orderly : Orderly Blake3.fingerprint empty (first ++ course) := by
  have htwin : twin.gvk = .ok ⟨"", "v1", "Secret/ns"⟩ := rfl
  refine ⟨rfl, ⟨rfl, rfl, ?_⟩, rfl, rfl, rfl, trivial⟩
  intro gvk hgvk
  obtain rfl := Except.ok.inj (htwin.symm.trans hgvk)
  rfl

theorem separated : ∀ birth ∈ births empty (first ++ course),
    ∀ other ∈ births empty (first ++ course),
      Blake3.fingerprint birth.seed = Blake3.fingerprint other.seed → birth.seed = other.seed := by
  have hbirths : births empty (first ++ course) = [⟨slot, 1⟩, ⟨lookalike, 2⟩, ⟨slot, 4⟩] := rfl
  rw [hbirths]
  decide +kernel

theorem throughout_change : Throughout (empty.after first) change slot := by
  apply throughout_cons.mpr
  refine ⟨Option.isSome_iff_exists.mp rfl, fun passed hpassed => ?_⟩
  obtain rfl := List.prefix_nil.mp hpassed
  exact Option.isSome_iff_exists.mp rfl

theorem not_throughout_course : ¬ Throughout (empty.after first) course slot := by
  intro hall
  obtain ⟨object, hobject⟩ := hall (change ++ deletion) (List.prefix_append _ _)
  have hnone : ((empty.after first).after (change ++ deletion)).objects.find? slot = none := rfl
  rw [hnone] at hobject
  cases hobject

/-- The update that brings another identity leaves the object its own, and the object that is created
    in the slot later has another one, as has the one in the slot that reads the same. -/
theorem identities_of_slot : ∃ made changed remade other,
    (empty.after first).objects.find? slot = some made ∧
    (empty.after (first ++ change)).objects.find? slot = some changed ∧
    (empty.after (first ++ course)).objects.find? slot = some remade ∧
    (empty.after (first ++ course)).objects.find? lookalike = some other ∧
    changed.metadata.uid = made.metadata.uid ∧ changed.metadata.created = made.metadata.created ∧
    remade.metadata.uid ≠ made.metadata.uid ∧ other.metadata.uid ≠ made.metadata.uid := by
  have hmade : ((empty.after first).objects.find? slot).isSome := rfl
  have hchanged : ((empty.after (first ++ change)).objects.find? slot).isSome := rfl
  have hremade : ((empty.after (first ++ course)).objects.find? slot).isSome := rfl
  have hother : ((empty.after (first ++ course)).objects.find? lookalike).isSome := rfl
  obtain ⟨made, hmade⟩ := Option.isSome_iff_exists.mp hmade
  obtain ⟨changed, hchanged⟩ := Option.isSome_iff_exists.mp hchanged
  obtain ⟨remade, hremade⟩ := Option.isSome_iff_exists.mp hremade
  obtain ⟨other, hother⟩ := Option.isSome_iff_exists.mp hother
  have hsplit : first ++ course =
      (first ++ change) ++ (deletion ++ [.call evening (.create forged)]) := rfl
  have hshort : Orderly Blake3.fingerprint empty (first ++ change) :=
    (orderly_append.mp (hsplit ▸ orderly)).1
  obtain ⟨_, hstays⟩ := identity_of_incarnation hshort fun birth hbirth twin htwin => by
    apply separated
    · rw [hsplit, births_append]
      exact List.mem_append_left _ hbirth
    · rw [hsplit, births_append]
      exact List.mem_append_left _ htwin
  obtain ⟨_, hdiffers⟩ := identity_of_incarnation orderly separated
  obtain ⟨_, _, hsame, hcreated⟩ := hstays hmade hchanged
  obtain ⟨_, _, hagain, _⟩ := hdiffers hmade hremade
  obtain ⟨_, _, hbeside, _⟩ := hdiffers hmade hother
  refine ⟨made, changed, remade, other, hmade, hchanged, hremade, hother,
    hsame.mpr ⟨rfl, throughout_change⟩, hcreated rfl throughout_change, fun h => ?_, fun h => ?_⟩
  · exact not_throughout_course (hagain.mp h).2
  · exact absurd (hbeside.mp h).1 (by decide)

end Refilling

end Reconciliation.Memory
