import Reconciliation.Proofs.Memory.Serving
import Reconciliation.Proofs.Wire.Dispatch
import Reconciliation.Wire.Client

namespace Reconciliation.Wire

/-!
# Refusals that arrive

* `refusal?`, `Agree` — what callers can tell failures apart by, and answers that are the same to them;
* `Same` — a call that answers and leaves what another one does;
* `Faithful` — failures whose status leads back to a failure of the same kind;
* `same_answer` — what is answered by status and body is heard as it was meant;
* `get_faithful` and so on — the store in memory has no other failures, as long as no faults wait.
-/

/-! ### Failures on the way -/

/-- What callers can tell failures apart by. -/
inductive Refusal where
  | absent | present | stale | malformed
deriving DecidableEq, Repr

/-- The kind of a failure, if it is a refusal of the store. -/
def refusal? : StoreError → Option Refusal
  | .notFound _ _ => some .absent
  | .alreadyExists _ _ => some .present
  | .conflict _ _ => some .stale
  | .invalid _ | .schema _ => some .malformed
  | .unauthorized _ | .http _ | .internal _ | .io _ | .serialization _ => none

/-- Answers that bring the same, or are refusals of the same kind. -/
inductive Agree {α : Type} : Except StoreError α → Except StoreError α → Prop where
  | value (value : α) : Agree (.ok value) (.ok value)
  | refusal {direct remote : StoreError} {refusal : Refusal} (hdirect : refusal? direct = some refusal)
      (hremote : refusal? remote = some refusal) : Agree (.error direct) (.error remote)

/-- Whether the status of a failure leads back to a failure of the same kind. -/
def Faithful (op : Operation) : StoreError → Prop
  | .notFound _ _ | .invalid _ | .schema _ => True
  | .alreadyExists _ _ => op = .create
  | .conflict _ _ => op ≠ .create
  | .unauthorized _ | .http _ | .internal _ | .io _ | .serialization _ => False

theorem Faithful.refusal {op : Operation} {failure : StoreError} (h : Faithful op failure)
    (kind key detail : String) : ∃ refusal, refusal? failure = some refusal ∧
      refusal? (failureOf op (statusOf failure) kind key detail) = some refusal := by
  cases failure with
  | notFound | invalid | schema => exact ⟨_, rfl, rfl⟩
  | alreadyExists =>
    obtain rfl : op = .create := h
    exact ⟨_, rfl, rfl⟩
  | conflict =>
    have hne : op ≠ .create := h
    refine ⟨_, rfl, ?_⟩
    simp [failureOf, statusOf, hne, refusal?]
  | unauthorized | http | internal | io | serialization => cases h

theorem Agree.map {α β : Type} {direct remote : Except StoreError α} (h : Agree direct remote)
    (f : α → β) : Agree (direct.map f) (remote.map f) := by
  cases h with
  | value value => exact .value (f value)
  | refusal hdirect hremote => exact .refusal hdirect hremote

/-- A call over HTTP does the same as the call of the store in memory. -/
structure Same {α : Type} (direct remote : Except StoreError α × Memory) : Prop where
  answer : Agree direct.1 remote.1
  objects : remote.2.objects = direct.2.objects
  version : remote.2.version = direct.2.version

theorem Same.map {α β : Type} {direct remote : Except StoreError α × Memory}
    (h : Same direct remote) (f : α → β) :
    Same (mapAnswer (Except.map f) direct) (mapAnswer (Except.map f) remote) :=
  ⟨h.answer.map f, h.objects, h.version⟩

/-- What a call brings is read back, and its failures are told apart as before. -/
theorem same_answer {α : Type} {op : Operation} {success : α → Response}
    {read : List UInt8 → Except StoreError α} {direct : Except StoreError α × Memory}
    (hsuccess : ∀ value, direct.1 = .ok value →
      (success value).status < 400 ∧ read (success value).body = .ok value)
    (hfaithful : ∀ failure, direct.1 = .error failure → Faithful op failure) (kind key : String) :
    Same direct (mapAnswer (fun response => contentOf op kind key response >>= read)
      (answer success direct)) := by
  obtain ⟨result, state⟩ := direct
  cases result with
  | ok value =>
    obtain ⟨hstatus, hread⟩ := hsuccess value rfl
    refine ⟨?_, rfl, rfl⟩
    have hcontent : contentOf op kind key (success value) = .ok (success value).body := by
      rw [contentOf, if_neg (by omega)]
    show Agree (.ok value) (contentOf op kind key (success value) >>= read)
    rw [hcontent]
    show Agree (.ok value) (read (success value).body)
    rw [hread]
    exact .value value
  | error failure =>
    have h := hfaithful failure rfl
    refine ⟨?_, rfl, rfl⟩
    show Agree (.error failure) (contentOf op kind key (.failure failure) >>= read)
    rw [contentOf, if_pos (show 400 ≤ (Response.failure failure).status from statusOf_ge failure)]
    obtain ⟨refusal, hdirect, hremote⟩ := h.refusal kind key
      (Text.trim (Text.decodeLossy (Response.failure failure).body))
    exact .refusal hdirect hremote

/-! ### Failures of the store in memory -/

section Memory

variable {m : Memory}

theorem get_faithful (quiet : m.faults = []) {type : ResourceType} {key : Key}
    {failure : StoreError} (h : (Memory.get type key m).1 = .error failure) :
    Faithful .get failure := by
  rw [Memory.get, Memory.call_of_quiet quiet, Memory.counted] at h
  dsimp only at h
  split at h
  · split at h
    · cases h
    · cases h
      trivial
  · cases h
    trivial

theorem list_faithful (quiet : m.faults = []) {type : ResourceType} {filter : Filter}
    {failure : StoreError} (h : (Memory.list type filter m).1 = .error failure) :
    Faithful .list failure := by
  rw [Memory.list, Memory.call_of_quiet quiet, Memory.counted] at h
  dsimp only at h
  split at h
  · cases h
  · cases h
    trivial

theorem create_faithful (quiet : m.faults = []) {stamp : Stamp} {object : Object}
    {failure : StoreError} (h : (Memory.create stamp object m).1 = .error failure) :
    Faithful .create failure := by
  rw [Memory.create, Memory.call_of_quiet quiet, Memory.counted] at h
  dsimp only at h
  split at h
  · cases h
    trivial
  · cases h
    trivial
  · split at h
    · cases h
      trivial
    · split at h
      · cases h
        rfl
      · cases h

theorem update_faithful (quiet : m.faults = []) {stamp : Stamp} {object : Object}
    {failure : StoreError} (h : (Memory.update stamp object m).1 = .error failure) :
    Faithful .update failure := by
  rw [Memory.update, Memory.call_of_quiet quiet, Memory.counted] at h
  dsimp only at h
  split at h
  · cases h
    trivial
  · split at h
    · cases h
      trivial
    · cases h
      trivial
    · split at h
      · cases h
      · cases h
        exact fun hop => by cases hop

theorem delete_faithful (quiet : m.faults = []) {type : ResourceType} {key : Key}
    {options : DeleteOptions} {failure : StoreError}
    (h : (Memory.delete type key options m).1 = .error failure) : Faithful .delete failure := by
  rw [Memory.delete, Memory.call_of_quiet quiet, Memory.counted] at h
  dsimp only at h
  split at h
  · cases h
    trivial
  · split at h
    · split at h
      · cases h
      · cases h
        exact fun hop => by cases hop
    · cases h

end Memory

end Reconciliation.Wire
