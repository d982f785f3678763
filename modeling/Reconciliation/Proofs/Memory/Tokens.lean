import Reconciliation.Proofs.Memory.Filing

namespace Reconciliation.Memory

/-!
# Tokens along a run

Optimistic concurrency over whole runs of the store in memory:

* `grants` — the tokens that the writes of a run hand out, in order;
* `spends` — whether a call succeeded on the strength of a token: an update whose object carries it,
  or a delete that it guards;
* `Dead` — a token that was handed out and that no object carries any more;
* `optimistic_concurrency` — tokens strictly increase, no token is handed out twice, and each is
  spent at most once.

The argument about spending is that a call which spends a token leaves it dead, that a dead token
stays dead whatever happens, and that a dead token cannot be spent.
-/

/-! ### What a run hands out and spends -/

/-- Whether an event is a write that succeeded. -/
def isWrite : Event × Store.Answer → Bool
  | (.call _ (.create _), .ok _) | (.call _ (.update _), .ok _) | (.insert _ _, .ok _) => true
  | _ => false

/-- The token that a write handed out. -/
def granted? : Event × Store.Answer → Option ResourceVersion
  | (.call _ (.create _), .ok (some (.object stored)))
  | (.call _ (.update _), .ok (some (.object stored)))
  | (.insert _ _, .ok (some (.object stored))) => stored.metadata.version
  | _ => none

/-- The tokens that a run hands out, in order. -/
def grants (run : List (Event × Store.Answer)) : List ResourceVersion :=
  run.filterMap granted?

/-- Whether a call succeeded on the strength of a token. -/
def spends (token : ResourceVersion) : Event × Store.Answer → Bool
  | (.call _ (.update object), .ok _) => object.metadata.version = some token
  | (.call _ (.delete _ _ options), .ok _) => options.precondition = some token
  | _ => false

/-- A failure writes nothing, hands out nothing and spends nothing; nor does an event that is not one
    that changes objects. -/
theorem idle_silent {event : Event} {answer : Store.Answer}
    (idle : event.changes = true → ∃ error, answer = .error error) :
    isWrite (event, answer) = false ∧ granted? (event, answer) = none ∧
      ∀ token, spends token (event, answer) = false := by
  cases hchanges : event.changes with
  | true =>
    obtain ⟨error, rfl⟩ := idle hchanges
    refine ⟨?_, ?_, fun token => ?_⟩
    · unfold isWrite
      split <;> simp_all
    · unfold granted?
      split <;> simp_all
    · unfold spends
      split <;> simp_all
  | false =>
    cases event with
    | call stamp call =>
      cases call with
      | get | list => exact ⟨rfl, rfl, fun _ => rfl⟩
      | create | update | delete => cases hchanges
    | insert stamp object => cases hchanges
    | failNext op error => exact ⟨rfl, rfl, fun _ => rfl⟩
    | restrict types => exact ⟨rfl, rfl, fun _ => rfl⟩

/-! ### Tokens are handed out in order -/

/-- **Step.** A write takes the next number and hands it out as a token; no other event does
    either. -/
theorem Change.grants {m m' : Memory} {event : Event} {answer : Store.Answer}
    (c : Change m event answer m') :
    (isWrite (event, answer) = true ∧ granted? (event, answer) = some (token (m.version + 1)) ∧
      m'.version = m.version + 1) ∨
    (isWrite (event, answer) = false ∧ granted? (event, answer) = none ∧
      m'.version = m.version) := by
  cases c with
  | keep idle _ version =>
    obtain ⟨hwrite, hgranted, _⟩ := idle_silent idle
    exact Or.inr ⟨hwrite, hgranted, version⟩
  | write puts _ _ version => exact Or.inl (by cases puts <;> exact ⟨rfl, rfl, version⟩)
  | remove _ _ _ version => exact Or.inr ⟨rfl, rfl, version⟩

/-- **Run.** The tokens of a run are the numbers that follow the writes before it, one for each
    write. -/
theorem grants_transcript (m : Memory) (events : List Event) :
    grants (m.transcript events) =
      (List.range' (m.version + 1) ((m.transcript events).countP isWrite)).map token := by
  -- The state is general: the rest of the run begins with the number that the first event leaves.
  induction events generalizing m with
  | nil => rfl
  | cons event rest ih =>
    have hrest := ih (step event m).2
    unfold grants at hrest
    rw [transcript, grants]
    rcases (step_change event m).grants with ⟨hwrite, hgranted, hversion⟩ |
      ⟨hwrite, hgranted, hversion⟩
    · rw [List.filterMap_cons_some hgranted, List.countP_cons_of_pos hwrite, hrest, hversion,
        List.range'_succ, List.map_cons]
    · rw [List.filterMap_cons_none hgranted, List.countP_cons_of_neg (by simp [hwrite]), hrest,
        hversion]

/-! ### A token is spent once -/

/-- The token was handed out, and no object carries it. -/
structure Dead (m : Memory) (version : ResourceVersion) : Prop where
  used : ∃ number, number ≤ m.version ∧ version = token number
  absent : ∀ {slot : Slot} {object : Object}, m.objects.find? slot = some object →
    object.metadata.version ≠ some version

/-- The number of writes does not decrease. -/
theorem Change.version_le {m m' : Memory} {event : Event} {answer : Store.Answer}
    (c : Change m event answer m') : m.version ≤ m'.version := by
  cases c with
  | keep _ _ version => omega
  | write _ _ _ version => omega
  | remove _ _ _ version => omega

/-- An object that carries a used token after an event carried it before, in the same slot. -/
theorem Change.carried {m m' : Memory} {event : Event} {answer : Store.Answer}
    (c : Change m event answer m') {slot : Slot} {object : Object} {number : Nat}
    (h : m'.objects.find? slot = some object) (hle : number ≤ m.version)
    (hversion : object.metadata.version = some (token number)) :
    ∃ before, m.objects.find? slot = some before ∧
      before.metadata.version = some (token number) ∧
      object = before.withoutOwners (m.orphaned event answer) := by
  rcases c.held h with hnew | ⟨before, hbefore, rfl⟩
  · rw [hversion] at hnew
    have := token_injective (Option.some.inj hnew)
    omega
  · exact ⟨before, hbefore, hversion, rfl⟩

/-- A dead token stays dead. -/
theorem Change.dead {m m' : Memory} {event : Event} {answer : Store.Answer}
    (c : Change m event answer m') {version : ResourceVersion} (h : Dead m version) :
    Dead m' version := by
  obtain ⟨number, hle, rfl⟩ := h.used
  refine ⟨⟨number, Nat.le_trans hle c.version_le, rfl⟩, fun {slot object} hfind hversion => ?_⟩
  obtain ⟨before, hbefore, hsame, _⟩ := c.carried hfind hle hversion
  exact h.absent hbefore hsame

/-- A dead token is not spent. -/
theorem Change.not_spends {m m' : Memory} {event : Event} {answer : Store.Answer}
    (c : Change m event answer m') {version : ResourceVersion} (h : Dead m version) :
    spends version (event, answer) = false := by
  cases c with
  | keep idle _ _ => exact (idle_silent idle).2.2 version
  | write puts _ _ _ =>
    cases puts with
    | insert | create => rfl
    | update stamp object current held token hown hsame =>
      have hne := h.absent token
      simp only [spends, hown, decide_eq_false_iff_not, Option.some.injEq]
      rintro rfl
      exact hne hsame
  | @remove stamp type key options current m' held guarded _ _ =>
    simp only [spends, decide_eq_false_iff_not]
    intro hguard
    exact h.absent held (guarded version hguard)

/-- A token that its object no longer carries after an event is dead. -/
theorem Change.dead_of_gone {m m' : Memory} {event : Event} {answer : Store.Answer}
    (c : Change m event answer m') (hm : WellKept m) {slot : Slot} {current : Object}
    {version : ResourceVersion} (held : m.objects.find? slot = some current)
    (hversion : current.metadata.version = some version)
    (gone : ∀ {object : Object}, m'.objects.find? slot = some object →
      object.metadata.version ≠ some version) : Dead m' version := by
  obtain ⟨number, _, hle, hnumber⟩ := (hm.kept held).numbered
  obtain rfl : version = token number := Option.some.inj (hversion.symm.trans hnumber)
  refine ⟨⟨number, Nat.le_trans hle c.version_le, rfl⟩, fun {other object} hfind hsame => ?_⟩
  obtain ⟨before, hbefore, hbeforeVersion, _⟩ := c.carried hfind hle hsame
  -- Only one slot held the token.
  obtain rfl := hm.distinct held hbefore (hversion.trans hbeforeVersion.symm)
  exact gone hfind hsame

/-- A token that is spent is dead from then on. -/
theorem Change.dead_of_spends {m m' : Memory} {event : Event} {answer : Store.Answer}
    (c : Change m event answer m') (hm : WellKept m) {version : ResourceVersion}
    (h : spends version (event, answer) = true) : Dead m' version := by
  cases c with
  | keep idle _ _ =>
    rw [(idle_silent idle).2.2 version] at h
    cases h
  | @write event stamp base gvk m' puts typed objects number =>
    have c := Change.write puts typed objects number
    cases puts with
    | insert | create => cases h
    | update stamp object current spent held hown hsame =>
      simp only [spends, hown, decide_eq_true_eq, Option.some.injEq] at h
      subst h
      refine c.dead_of_gone hm held hsame fun {object} hfind hversion => ?_
      -- The slot holds what was written, with the next token.
      rw [objects, Table.find?_insert, if_pos rfl] at hfind
      obtain rfl := Option.some.inj hfind
      exact hm.fresh held (hsame.trans hversion.symm)
  | @remove stamp type key options current m' held guarded objects number =>
    simp only [spends, decide_eq_true_eq] at h
    have c : Change m (.call stamp (.delete type key options)) (.ok none) m' :=
      .remove held guarded objects number
    refine c.dead_of_gone hm held (guarded version h) fun {object} hfind _ => ?_
    -- The slot is empty now.
    rw [objects] at hfind
    exact (find?_remove hfind).1 rfl

/-- A dead token is not spent in a run. -/
theorem Dead.countP_spends {m : Memory} {version : ResourceVersion} (h : Dead m version)
    (events : List Event) : (m.transcript events).countP (spends version) = 0 := by
  induction events generalizing m with
  | nil => rfl
  | cons event rest ih =>
    have c := step_change event m
    rw [transcript, List.countP_cons_of_neg (by simp [c.not_spends h])]
    exact ih (c.dead h)

/-- A token is spent at most once in a run. -/
theorem WellKept.countP_spends_le_one {m : Memory} (h : WellKept m) (version : ResourceVersion)
    (events : List Event) : (m.transcript events).countP (spends version) ≤ 1 := by
  induction events generalizing m with
  | nil => simp [transcript]
  | cons event rest ih =>
    have c := step_change event m
    rw [transcript]
    by_cases hspends : spends version (event, (step event m).1) = true
    · -- The first call that spends the token is the last one, too.
      have hrest := (c.dead_of_spends h hspends).countP_spends rest
      rw [List.countP_cons_of_pos hspends]
      omega
    · rw [List.countP_cons_of_neg hspends]
      exact ih (c.wellKept h)

/-- **Optimistic concurrency.**  In every run from the empty store, however the calls of its clients
    are interleaved, each successful create, update and insert hands out one token; the tokens are
    the texts of strictly increasing numbers, so that none comes again; and at most one call
    succeeds among all updates whose object carries a token and all deletes guarded by it. -/
theorem optimistic_concurrency (events : List Event) :
    (∃ numbers : List Nat, grants (empty.transcript events) = numbers.map token ∧
      numbers.Pairwise (· < ·)) ∧
    (grants (empty.transcript events)).Nodup ∧
    (grants (empty.transcript events)).length = (empty.transcript events).countP isWrite ∧
    ∀ version, (empty.transcript events).countP (spends version) ≤ 1 := by
  have hgrants := grants_transcript empty events
  have hincreasing : (List.range' (empty.version + 1)
      ((empty.transcript events).countP isWrite)).Pairwise (· < ·) := List.pairwise_lt_range'
  refine ⟨⟨_, hgrants, hincreasing⟩, ?_, ?_, fun version =>
    wellKept_empty.countP_spends_le_one version events⟩
  · rw [hgrants]
    refine List.pairwise_map.mpr (hincreasing.imp fun hlt heq => ?_)
    exact absurd (token_injective heq) (Nat.ne_of_lt hlt)
  · rw [hgrants, List.length_map, List.length_range']

end Reconciliation.Memory
