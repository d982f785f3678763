import Reconciliation.Proofs.Memory.Tokens

namespace Reconciliation.Memory

/-!
# What a token says about the content

* `orphanedIn` — the identities that the deletions of a run take out of owner references;
* `Dead.after` — a dead token stays dead along a run;
* `WellKept.content` — two objects of a run that carry the same token are in the same slot, and are
  equal but for the references that were orphaned in between;
* `content_of_token` — when exactly they are equal, and what an update with the token replaces.

A deletion that orphans dependents rewrites them in their slots and leaves them their tokens.  This is
the only way in which the object of a token changes.
-/

/-- The identities that the events of a run take out of owner references. -/
def orphanedIn (m : Memory) : List Event → List Uid
  | [] => []
  | event :: rest => m.orphaned event (step event m).1 ++ orphanedIn (step event m).2 rest

/-- A dead token stays dead along a run. -/
theorem Dead.after {m : Memory} {version : ResourceVersion} (h : Dead m version)
    (events : List Event) : Dead (m.after events) version := by
  induction events generalizing m with
  | nil => exact h
  | cons event rest ih => exact ih ((step_change event m).dead h)

/-- **Run.** An object that carries the token of an earlier one is in the same slot, and is that
    object without the references that were orphaned since. -/
theorem WellKept.content {m : Memory} (h : WellKept m) (events : List Event) {slot other : Slot}
    {object later : Object} (held : m.objects.find? slot = some object)
    (found : (m.after events).objects.find? other = some later)
    (same : later.metadata.version = object.metadata.version) :
    other = slot ∧ later = object.withoutOwners (m.orphanedIn events) := by
  induction events generalizing m object with
  | nil =>
    obtain rfl := h.distinct found held same
    rw [after_nil, held] at found
    obtain rfl := Option.some.inj found
    exact ⟨rfl, by simp [orphanedIn]⟩
  | cons event rest ih =>
    have c := step_change event m
    obtain ⟨number, _, hle, hnumber⟩ := (h.kept held).numbered
    by_cases hkept : ∃ next, (step event m).2.objects.find? slot = some next ∧
        next.metadata.version = some (token number)
    · obtain ⟨next, hnext, hversion⟩ := hkept
      -- The slot still carries the token, so the event took away references at most.
      obtain ⟨before, hbefore, _, hstep⟩ := c.carried hnext hle hversion
      rw [held] at hbefore
      obtain rfl := Option.some.inj hbefore
      obtain ⟨hslot, hlater⟩ := ih (c.wellKept h) hnext found (same.trans (hnumber.trans hversion.symm))
      refine ⟨hslot, ?_⟩
      rw [hlater, hstep, orphanedIn, Object.withoutOwners_append]
    · -- Otherwise the token is dead from here on, and nothing can carry it later.
      have hdead := c.dead_of_gone h held hnumber fun {next} hnext hversion =>
        hkept ⟨next, hnext, hversion⟩
      exact absurd (same.trans hnumber) ((hdead.after rest).absent found)

/-- An update that succeeds replaces, in the slot of its object, one that carries its token. -/
theorem update_replaces {m : Memory} {stamp : Stamp} {object : Object} {answer : Option Payload}
    (h : (step (.call stamp (.update object)) m).1 = .ok answer) :
    ∃ gvk current, object.gvk = .ok gvk ∧ m.objects.find? (slotOf gvk object) = some current ∧
      object.metadata.version = current.metadata.version := by
  have c := step_change (.call stamp (.update object)) m
  rw [h] at c
  generalize (step (.call stamp (.update object)) m).2 = m' at c
  cases c with
  | keep idle _ _ =>
    obtain ⟨error, herror⟩ := idle rfl
    cases herror
  | write puts typed _ _ =>
    cases puts with
    | update _ _ current spent held own same => exact ⟨_, current, typed, held, own.trans same.symm⟩

/-- **What a token says.**  Let a slot hold an object at some moment of a run from the empty store.
    Whenever it holds one with the same token later, this is the object without the references to
    the owners whose deletion orphaned it in between, so that it is the same object exactly if it
    refers to none of them; and an update with the token that succeeds later replaces just that. -/
theorem content_of_token (first between : List Event) {slot : Slot} {object : Object}
    (held : (empty.after first).objects.find? slot = some object) :
    (∀ later, (empty.after (first ++ between)).objects.find? slot = some later →
      later.metadata.version = object.metadata.version →
        later = object.withoutOwners ((empty.after first).orphanedIn between) ∧
        (later = object ↔
          ∀ uid ∈ (empty.after first).orphanedIn between, object.refersTo uid = false)) ∧
    (∀ stamp change answer, change.metadata.version = object.metadata.version →
      (step (.call stamp (.update change)) (empty.after (first ++ between))).1 = .ok answer →
        ∃ gvk replaced, change.gvk = .ok gvk ∧ slotOf gvk change = slot ∧
          (empty.after (first ++ between)).objects.find? slot = some replaced ∧
          replaced = object.withoutOwners ((empty.after first).orphanedIn between) ∧
          (replaced = object ↔
            ∀ uid ∈ (empty.after first).orphanedIn between, object.refersTo uid = false)) := by
  have hfirst : WellKept (empty.after first) := wellKept_empty.after first
  constructor
  · intro later hlater hsame
    rw [after_append] at hlater
    obtain ⟨_, heq⟩ := hfirst.content between held hlater hsame
    exact ⟨heq, by rw [heq, Object.withoutOwners_eq_self_iff]⟩
  · intro stamp change answer hversion hanswer
    obtain ⟨gvk, replaced, hgvk, hreplaced, hown⟩ := update_replaces hanswer
    have hfound := hreplaced
    rw [after_append] at hfound
    obtain ⟨hslot, heq⟩ := hfirst.content between held hfound (hown.symm.trans hversion)
    rw [hslot] at hreplaced
    exact ⟨gvk, replaced, hgvk, hslot, hreplaced, heq, by rw [heq, Object.withoutOwners_eq_self_iff]⟩

/-! ### A dependent that outlives its owner -/

namespace Orphaning

open Specimen

/-- An object with an identity of its own. -/
def owner : Object :=
  { sample with metadata := { sample.metadata with uid := some ⟨"owner-1"⟩ } }

/-- An object that refers to the owner. -/
def dependent : Object :=
  (secret (key "b")).withOwner ⟨"v1", "Secret", ⟨"a"⟩, ⟨"owner-1"⟩, some true, some true⟩

/-- The slot of the dependent. -/
def slot : Slot := slotAt secrets (key "b")

/-- Both objects are seeded. -/
def seeding : List Event := [.insert .verbatim owner, .insert .verbatim dependent]

/-- The owner is deleted, and its dependents are kept. -/
def deletion : List Event :=
  [.call .verbatim (.delete secrets (key "a") ⟨none, some .orphan⟩)]

/-- The dependent as a client reads it before the deletion. -/
def read : Object := stamped .verbatim slot 2 dependent

set_option maxRecDepth 4000 in
/-- The dependent loses its reference to the owner and keeps its token, so that the client's update
    is accepted and brings the reference back. -/
theorem token_of_two_contents :
    (empty.after seeding).objects.find? slot = some read ∧
    (empty.after (seeding ++ deletion)).objects.find? slot =
      some (read.withoutOwners [⟨"owner-1"⟩]) ∧
    (read.withoutOwners [⟨"owner-1"⟩]).metadata.version = read.metadata.version ∧
    read.withoutOwners [⟨"owner-1"⟩] ≠ read ∧
    (step (.call .verbatim (.update read)) (empty.after (seeding ++ deletion))).1 =
      .ok (some (.object (stamped .verbatim slot 3 read))) ∧
    (stamped .verbatim slot 3 read).refersTo ⟨"owner-1"⟩ = true :=
  ⟨by decide, by decide, rfl, by decide, rfl, by decide⟩

set_option maxRecDepth 4000 in
/-- What the token of the dependent says in this run. -/
theorem content_of_dependent :
    (empty.after seeding).objects.find? slot = some read ∧
    (∃ later, (empty.after (seeding ++ deletion)).objects.find? slot = some later ∧
      later = read.withoutOwners ((empty.after seeding).orphanedIn deletion) ∧ later ≠ read ∧
      ¬ ∀ uid ∈ (empty.after seeding).orphanedIn deletion, read.refersTo uid = false) ∧
    ∃ gvk replaced, read.gvk = .ok gvk ∧ slotOf gvk read = slot ∧
      (empty.after (seeding ++ deletion)).objects.find? slot = some replaced ∧
      replaced = read.withoutOwners ((empty.after seeding).orphanedIn deletion) := by
  have held : (empty.after seeding).objects.find? slot = some read := by decide
  have found : (empty.after (seeding ++ deletion)).objects.find? slot =
      some (read.withoutOwners [⟨"owner-1"⟩]) := by decide
  have hne : read.withoutOwners [⟨"owner-1"⟩] ≠ read := by decide
  have hupdate : (step (.call .verbatim (.update read)) (empty.after (seeding ++ deletion))).1 =
      .ok (some (.object (stamped .verbatim slot 3 read))) := rfl
  obtain ⟨hcontent, hreplaces⟩ := content_of_token seeding deletion held
  obtain ⟨heq, hiff⟩ := hcontent _ found rfl
  obtain ⟨gvk, replaced, hgvk, hslot, hheld, hreplaced, _⟩ := hreplaces .verbatim read _ rfl hupdate
  exact ⟨held, ⟨_, found, heq, hne, fun hfree => hne (hiff.mpr hfree)⟩,
    gvk, replaced, hgvk, hslot, hheld, hreplaced⟩

end Orphaning

end Reconciliation.Memory
