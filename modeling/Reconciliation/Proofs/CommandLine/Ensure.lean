import Reconciliation.Proofs.CommandLine.Naming
import Reconciliation.Proofs.Engine.Step
import Reconciliation.Proofs.Store.Durable

namespace Reconciliation.CommandLine

/-!
# What was made sure of, and how it is named

* `session_of_openSession`, `faultFree_of_openSession` — what all sessions have in common, and a session
  with a store in memory;
* `readObject_eq_ok` — what is known about an object that was read from a file;
* `stored_of_ensured` — after a run that is done, the store has the object;
* `shown`, `run_get_of_found` — what a get shows of an object that the store has;
* `found_iff_of_ensured` — with which words a get finds the object.

The key of the object comes from its file, and the key that a get reads comes from its words.  A file may
give an object a namespace whose type has none; no words do.
-/

variable {τ : Type}

/-! ### Sessions -/

/-- All sessions know the types that are built in, and nobody cancels them. -/
theorem session_of_openSession {around : Surroundings τ} {settings : Settings}
    {reconciler : Reconciler (Memory × τ)} (opened : openSession around settings = .ok reconciler) :
    reconciler.types = .builtin ∧ ∀ state, reconciler.cancelled state = false := by
  obtain ⟨config, _, opened⟩ := bind_eq_ok.mp opened
  obtain ⟨store, _, opened⟩ := bind_eq_ok.mp opened
  cases opened
  exact ⟨rfl, fun _ => rfl⟩

/-- A session with a store in memory for which no fault waits loses nothing. -/
theorem faultFree_of_openSession {around : Surroundings τ} {settings : Settings}
    {reconciler : Reconciler (Memory × τ)} (opened : openSession around settings = .ok reconciler)
    (inMemory : reconciler.config.store.backend? = .ok .memory) {state : Memory × τ}
    (quiet : state.1.faults = []) : reconciler.store.FaultFree state := by
  obtain ⟨config, _, opened⟩ := bind_eq_ok.mp opened
  obtain ⟨store, hstore, opened⟩ := bind_eq_ok.mp opened
  cases opened
  obtain ⟨backend, hbackend, hstore⟩ := bind_eq_ok.mp (mapError_eq_ok.mp hstore)
  obtain rfl : backend = .memory := Except.ok.inj (hbackend.symm.trans inMemory)
  cases hstore
  have hdurable : (Store.within (Memory.store around.stamp) Prod.fst
      fun memory (state : Memory × τ) => (memory, state.2)).Durable fun state => state.1.faults = [] :=
    (Memory.durable around.stamp).within fun _ _ => rfl
  exact ⟨_, hdurable, quiet⟩

/-! ### The object in a file -/

/-- An object that was read declares the type that was found for it, which is registered; and it has a
    namespace if objects of the type have one. -/
theorem readObject_eq_ok {types : TypeTable} {path : String} {file : FileContent}
    {type : ResourceType} {object : Object} (h : readObject types path file = .ok (type, object)) :
    object.gvk = .ok type.gvk ∧ type ∈ types.types ∧ types.resolveGvk type.gvk = .ok type ∧
      (type.namespaced = true → object.key.scope.isSome = true) := by
  obtain ⟨content, _, h⟩ := bind_eq_ok.mp h
  obtain ⟨read, _, h⟩ := bind_eq_ok.mp h
  obtain ⟨gvk, hgvk, h⟩ := bind_eq_ok.mp h
  obtain ⟨found, hfound, h⟩ := bind_eq_ok.mp h
  have hgvk := mapError_eq_ok.mp hgvk
  have hfound := mapError_eq_ok.mp hfound
  obtain ⟨hmem, hgroup, hkind, hversion⟩ := TypeTable.resolve_eq_ok hfound
  have hne : gvk.version ≠ "" :=
    version_ne_empty_of_parseApiVersion (GroupVersionKind.ofApiVersion_eq_ok hgvk).1
  have hsame : found.gvk = gvk := by rw [ResourceType.gvk, hgroup, hkind, hversion hne]
  dsimp only at h
  split at h
  · cases h
  · rename_i hscope
    cases h
    rw [hsame]
    refine ⟨hgvk, hmem, hfound, fun hnamespaced => ?_⟩
    rw [hnamespaced, Bool.true_and] at hscope
    exact Option.isSome_iff_ne_none.mpr fun hnone => hscope (Option.isNone_iff_eq_none.mpr hnone)

/-! ### The run that makes sure -/

/-- Only the directive to stop because all is done is reported as such. -/
theorem eq_done_of_finish {directive : Directive} {json : Bool}
    (h : (Report.ofDirective directive).finish json =
      (Report.ofDirective (.stop .done)).finish json) : directive = .stop .done := by
  cases directive with
  | stop reason =>
    have houtput := congrArg Ending.output h
    cases reason with
    | done => rfl
    | notFound => exact absurd houtput (by cases json <;> decide)
    | cancelled => exact absurd houtput (by cases json <;> decide)
  | retryNow | retryAfter | error =>
    have hcode := congrArg Ending.code h
    cases json <;> cases hcode

section Runs

variable {σ : Type} {context : Context σ} (free : ∀ state, context.cancelled state = false)
  {sound : σ → Prop} (durable : context.store.Durable sound)
  {type : ResourceType} {object : Object} (typed : object.gvk = .ok type.gvk)
include free durable typed

/-- Making sure of an object fails, or leaves the store with the object. -/
theorem stored_of_run (prior : Outcome) {state : σ} (h : sound state) :
    let result := (Action.ensureExists type object).run context prior state
    sound result.2 ∧ ((∃ cause, result.1 = .error cause) ∨
      ∃ stored, result.1 = .proceed (some (.object stored)) ∧
        (context.store.get type object.key result.2).1 = .ok stored) := by
  have hread : sound (context.store.get type object.key state).2 := durable.sound_get _ _ h
  rw [Action.run_ensureExists free]
  rcases hget : context.store.get type object.key state with ⟨failure | found, next⟩
  · rw [hget] at hread
    have hmade := durable.sound_create object hread
    dsimp only
    split
    · rcases hcreate : context.store.create object next with ⟨failure | stored, after⟩
      · rw [hcreate] at hmade
        exact ⟨hmade, Or.inl ⟨_, rfl⟩⟩
      · have hstored : (context.store.create object next).1 = .ok stored := by rw [hcreate]
        have hfinds := durable.get_created hread typed hstored
        rw [hcreate] at hmade hfinds
        exact ⟨hmade, Or.inr ⟨stored, rfl, hfinds⟩⟩
    · exact ⟨hread, Or.inl ⟨_, rfl⟩⟩
  · have hfound : (context.store.get type object.key state).1 = .ok found := by rw [hget]
    have hagain := durable.get_again h hfound
    rw [hget] at hread hagain
    exact ⟨hread, Or.inr ⟨found, rfl, hagain⟩⟩

/-- The chain of the command ends the run as done only if it does not ask to come back, and the store has
    the object then. -/
theorem stored_of_chain {requeueAfter : Option Nat} {chain : Chain σ}
    (made : ensureChain type object requeueAfter = .ok chain) (target : Key) {state : σ}
    (h : sound state) :
    let result := chain.run context state
    sound result.2 ∧ (Directive.ofOutcome target result.1 = .stop .done →
      ∃ stored, (context.store.get type object.key result.2).1 = .ok stored) := by
  have hrun := stored_of_run free durable typed (.proceed none) h
  rcases hresult : (Action.ensureExists type object).run context (.proceed none) state with ⟨outcome, next⟩
  rw [hresult] at hrun
  obtain ⟨hsound, hrun⟩ := hrun
  cases requeueAfter with
  | none =>
    cases made
    rw [Chain.run_singleton, hresult]
    refine ⟨hsound, fun hdone => ?_⟩
    rcases hrun with ⟨cause, rfl⟩ | ⟨stored, rfl, hfinds⟩
    · cases hdone
    · exact ⟨stored, hfinds⟩
  | some seconds =>
    obtain ⟨action, haction, made⟩ := bind_eq_ok.mp made
    obtain ⟨delay, _, rfl⟩ := map_eq_ok.mp (mapError_eq_ok.mp haction)
    cases made
    rcases hrun with ⟨cause, rfl⟩ | ⟨stored, rfl, _⟩
    · rw [Chain.run, Chain.runSteps, hresult]
      exact ⟨hsound, fun hdone => by cases hdone⟩
    · -- What follows asks to come back, and that is not done.
      have hlast : Chain.runSteps context [.requeue (some delay)] (.proceed (some (.object stored)))
          next = (.requeueAfter delay, next) := by
        rw [Chain.runSteps, Action.run, free]
        rfl
      have hall : Chain.run context ⟨[.ensureExists type object, .requeue (some delay)]⟩ state =
          (.requeueAfter delay, next) := by
        rw [Chain.run, Chain.runSteps, hresult]
        exact hlast
      rw [hall]
      exact ⟨hsound, fun hdone => by cases hdone⟩

end Runs

/-- What was prepared has been performed if the command has ended. -/
theorem eq_ok_of_prepared {α σ : Type} {input : Except String α} {perform : α → Performance σ}
    {state : σ} {ending : Ending} (h : (prepared input perform state).1 = .ok ending) :
    ∃ value, input = .ok value ∧ prepared input perform state = perform value state := by
  cases input with
  | error message => cases h
  | ok value => exact ⟨value, rfl, rfl⟩

section Commands

variable {σ : Type} {files : String → FileContent} {reconciler : Reconciler σ} {json : Bool}
  {path : String} {requeueAfter : Option Nat} {state : σ}

/-- An `ensure` that ends has read an object and made a chain, and has run the chain. -/
theorem ran_of_ensured {ending : Ending}
    (ended : (Command.run files reconciler json (.ensure path requeueAfter) state).1 = .ok ending) :
    ∃ type object chain, readObject reconciler.types path (files path) = .ok (type, object) ∧
      ensureChain type object requeueAfter = .ok chain ∧
      Command.run files reconciler json (.ensure path requeueAfter) state =
        runChain reconciler.runRetrying json object.key chain state := by
  obtain ⟨⟨target, chain⟩, hinput, hrun⟩ := eq_ok_of_prepared ended
  obtain ⟨⟨type, object⟩, hread, hinput⟩ := bind_eq_ok.mp hinput
  obtain ⟨made, hchain, hinput⟩ := bind_eq_ok.mp hinput
  cases hinput
  exact ⟨type, object, chain, hread, hchain, hrun⟩

/-- An `ensure` that is done has read the object from its file, and leaves the store with it. -/
theorem stored_of_ensured (free : ∀ state, reconciler.cancelled state = false)
    (faultFree : reconciler.store.FaultFree state)
    (done : (Command.run files reconciler json (.ensure path requeueAfter) state).1 =
      .ok ((Report.ofDirective (.stop .done)).finish json)) :
    ∃ type object stored, readObject reconciler.types path (files path) = .ok (type, object) ∧
      (reconciler.store.get type object.key
        (Command.run files reconciler json (.ensure path requeueAfter) state).2).1 = .ok stored := by
  obtain ⟨sound, durable, hsound⟩ := faultFree
  obtain ⟨type, object, chain, hread, hchain, hrun⟩ := ran_of_ensured done
  have typed := (readObject_eq_ok hread).1
  have hattempt {state : σ} (h : sound state) :
      sound (chain.run (reconciler.context object.key) state).2 ∧
        (Directive.ofOutcome object.key (chain.run (reconciler.context object.key) state).1 =
            .stop .done →
          ∃ stored, (reconciler.store.get type object.key
            (chain.run (reconciler.context object.key) state).2).1 = .ok stored) :=
    stored_of_chain free durable typed hchain object.key h
  -- What the last attempt has left is what the command leaves.
  obtain ⟨last, hlast, hagain⟩ : ∃ last, sound last ∧
      chain.runAgain (reconciler.context object.key) (reconciler.config.retry.attempts.toNat - 1)
        state = chain.run (reconciler.context object.key) last :=
    Chain.exists_last_attempt (fun _ h => (hattempt h).1) _ hsound
  have hretry : reconciler.runRetrying object.key chain state =
      mapAnswer (.ofOutcome object.key) (chain.run (reconciler.context object.key) last) := by
    rw [Reconciler.runRetrying, Chain.runRetrying_eq, hagain]
  rw [hrun, runChain, hretry] at done ⊢
  obtain ⟨stored, hstored⟩ := (hattempt hlast).2 (eq_done_of_finish (Except.ok.inj done))
  exact ⟨type, object, stored, hread, hstored⟩

/-! ### The get -/

/-- What a get shows of an object that it has found. -/
def shown (json : Bool) (stored : Object) : Ending :=
  if json then (Report.mk (.stop .done) (some stored) none).finish json
  else ⟨0, (Json.object stored.toFields).pretty ++ "\n", ""⟩

/-- A get whose words mean a key shows the object that the store has for the key. -/
theorem run_get_of_found (free : ∀ state, reconciler.cancelled state = false)
    {word text beside : String} {type : ResourceType} {key : Key} {stored : Object}
    (resolved : resolveObject reconciler.types word text beside = .ok (type, key))
    (found : (reconciler.store.get type key state).1 = .ok stored) :
    (Command.run files reconciler json (.get word text beside) state).1 = .ok (shown json stored) := by
  have hrun : Command.run files reconciler json (.get word text beside) state =
      runGet reconciler json type key state := by
    rw [Command.run, resolved]
    rfl
  have hget : (Chain.mk [.get type key]).run (reconciler.context key) state =
      (.done (some (.object stored)), (reconciler.store.get type key state).2) := by
    rw [Chain.run_singleton, Action.run_get (free state)]
    show mapAnswer _ (mapAnswer _ (reconciler.store.get type key state)) = _
    simp only [mapAnswer, found]
    rfl
  rw [hrun, runGet, runReading, hget]
  cases json <;> rfl

/-- The word for a registered type and a text mean what the text means for the type. -/
theorem resolveObject_wordFor {types : TypeTable} {type : ResourceType} (wordable : Wordable type.gvk)
    (registered : types.resolveGvk type.gvk = .ok type) {text beside : String} {key : Key} :
    resolveObject types (wordFor type.gvk) text beside = .ok (type, key) ↔
      resolveKey type text beside = .ok key := by
  rw [resolveObject, resolveType_wordFor wordable, registered]
  constructor
  · intro h
    obtain ⟨found, hfound, h⟩ := bind_eq_ok.mp h
    obtain ⟨_, hkey, h⟩ := bind_eq_ok.mp h
    cases hfound
    cases h
    exact hkey
  · intro h
    exact bind_eq_ok.mpr ⟨type, rfl, bind_eq_ok.mpr ⟨key, h, rfl⟩⟩

/-- Words that mean a key, and with which a get shows what is stored for it. -/
def Finds (files : String → FileContent) (reconciler : Reconciler σ) (state : σ) (type : ResourceType)
    (key : Key) (stored : Object) (text beside : String) : Prop :=
  resolveObject reconciler.types (wordFor type.gvk) text beside = .ok (type, key) ∧
    ∀ json, (Command.run files reconciler json (.get (wordFor type.gvk) text beside) state).1 =
      .ok (shown json stored)

end Commands

/-- **What was made sure of, and how it is found.**  In every session that loses nothing between two calls,
    as one with a store in memory does while no fault waits: when an `ensure` is done, its file held an
    object of a registered type, and the store has an object for its key.  With the word for its type, a
    get finds that object by its bare name beside its namespace exactly if objects of the type have
    namespaces and the name is accepted; by its name behind its namespace exactly if besides the namespace
    is accepted; and, if the type has no namespaces, by its bare name exactly if the file gave it none and
    the name is accepted. -/
theorem found_iff_of_ensured {around : Surroundings τ} {settings : Settings}
    {reconciler : Reconciler (Memory × τ)} (opened : openSession around settings = .ok reconciler)
    {state : Memory × τ}
    (faultFree : (reconciler.config.store.backend? = .ok .memory ∧ state.1.faults = []) ∨
      reconciler.store.FaultFree state)
    {json : Bool} {path : String} {requeueAfter : Option Nat}
    (done : (Command.run around.files reconciler json (.ensure path requeueAfter) state).1 =
      .ok ((Report.ofDirective (.stop .done)).finish json)) :
    let after := (Command.run around.files reconciler json (.ensure path requeueAfter) state).2
    ∃ type object stored, readObject reconciler.types path (around.files path) = .ok (type, object) ∧
      object.gvk = .ok type.gvk ∧
      (reconciler.store.get type object.key after).1 = .ok stored ∧
      (∀ space, object.key.scope = some space →
        (Finds around.files reconciler after type object.key stored object.key.name.text space.text ↔
          type.namespaced = true ∧ validateName object.key.name.text = .ok ()) ∧
        ∀ beside, Finds around.files reconciler after type object.key stored
            (space.text ++ "/" ++ object.key.name.text) beside ↔
          type.namespaced = true ∧ validateName object.key.name.text = .ok () ∧
            validateName space.text = .ok ()) ∧
      (type.namespaced = false → ∀ beside,
        Finds around.files reconciler after type object.key stored object.key.name.text beside ↔
          object.key.scope = none ∧ validateName object.key.name.text = .ok ()) := by
  intro after
  obtain ⟨htypes, hfree⟩ := session_of_openSession opened
  have hfault : reconciler.store.FaultFree state :=
    faultFree.elim (fun h => faultFree_of_openSession opened h.1 h.2) id
  obtain ⟨type, object, stored, hread, hstored⟩ := stored_of_ensured hfree hfault done
  obtain ⟨htyped, hmem, hregistered, hscoped⟩ := readObject_eq_ok hread
  rw [htypes] at hmem
  have hfinds {text beside : String} :
      Finds around.files reconciler after type object.key stored text beside ↔
        resolveKey type text beside = .ok object.key := by
    rw [← resolveObject_wordFor (wordable_of_mem_builtin hmem) hregistered]
    exact ⟨fun h => h.1, fun h => ⟨h, fun _ => run_get_of_found hfree h hstored⟩⟩
  refine ⟨type, object, stored, hread, htyped, hstored, fun space hspace => ⟨?_, fun beside => ?_⟩,
    fun hcluster beside => ?_⟩
  · rw [hfinds, resolveKey_name hspace]
    simp
  · have hdisplay : space.text ++ "/" ++ object.key.name.text = object.key.display := by
      rw [Key.display, hspace]
    rw [hfinds, hdisplay, resolveKey_display, Key.accepted_iff_of_some hspace, hspace]
    constructor
    · rintro ⟨⟨haccepted, hname⟩, hscoped⟩
      exact ⟨hscoped.symm, hname, haccepted⟩
    · rintro ⟨hnamespaced, hname, haccepted⟩
      exact ⟨⟨haccepted, hname⟩, hnamespaced.symm⟩
  · rw [hfinds]
    cases hspace : object.key.scope with
    | none =>
      rw [← Key.display_of_cluster hspace, resolveKey_display, Key.accepted_iff_of_none hspace, hspace,
        hcluster, Key.display_of_cluster hspace]
      simp
    | some space =>
      rw [resolveKey_name hspace, hcluster]
      simp

namespace Misfiled

open Specimen

/-- A file with an object called `a` in the namespace `ns`. -/
def fileWith (kind : String) : FileContent :=
  .ok ("\x7b\"apiVersion\":\"v1\",\"kind\":\"" ++ kind ++
    "\",\"metadata\":\x7b\"name\":\"a\",\"namespace\":\"ns\"\x7d\x7d")

/-- A directory with such an object of a type with namespaces and of one without, and with the
    configuration of a store in memory. -/
def around : Surroundings Unit where
  files path :=
    if path = "store.json" then .ok "\x7b\"backend\":\"memory\"\x7d"
    else if path = "secret.json" then fileWith "Secret"
    else fileWith "Namespace"
  home := none
  stamp := .verbatim
  carrier := .unreachable "io: no connection"

/-- The store in memory is asked for. -/
def settings : Settings := ⟨none, some "store.json", none, false⟩

/-- The session that is opened. -/
def session : Reconciler (Memory × Unit) where
  store := (Memory.store around.stamp).within Prod.fst fun memory state => (memory, state.2)
  types := .builtin
  config := .ofStore .memory
  cancelled _ := false

theorem opened : openSession around settings = .ok session := by
  have hconfig : loadConfig around settings = .ok session.config := by with_unfolding_all rfl
  rw [openSession, hconfig]
  rfl

/-- Making sure of the object in a file, in a store without objects. -/
def ensured (path : String) : Except String Ending × (Memory × Unit) :=
  Command.run around.files session false (.ensure path none) (.empty, ())

/-- The end of a command that is done. -/
def done : Ending := (Report.ofDirective (.stop .done)).finish false

/-- The type without. -/
def cluster : ResourceType := ⟨"", "v1", "Namespace", "namespaces", false⟩

/-- The object that is read from a file. -/
def object (kind : String) : Object := .ofKey ⟨"", "v1", kind⟩ (key "a")

theorem read_secret : readObject session.types "secret.json" (around.files "secret.json") =
    .ok (secrets, object "Secret") := by
  with_unfolding_all rfl

theorem read_cluster : readObject session.types "namespace.json" (around.files "namespace.json") =
    .ok (cluster, object "Namespace") := by
  with_unfolding_all rfl

/-- What is done for an object that was read. -/
theorem ensured_of_read {path : String} {type : ResourceType} {object : Object}
    (h : readObject session.types path (around.files path) = .ok (type, object)) :
    ensured path = runChain session.runRetrying false object.key ⟨[.ensureExists type object]⟩
      (.empty, ()) := by
  rw [ensured, Command.run, h]
  rfl

/-- An object of the type with namespaces is found in both ways. -/
theorem secret_found :
    (ensured "secret.json").1 = .ok done ∧
    ∃ stored, Finds around.files session (ensured "secret.json").2 secrets (key "a") stored
        "a" "ns" ∧
      Finds around.files session (ensured "secret.json").2 secrets (key "a") stored
        "ns/a" "default" := by
  have hdone : (ensured "secret.json").1 = .ok done := by
    rw [ensured_of_read read_secret]
    rfl
  obtain ⟨type, read, stored, hfile, _, _, hwords, _⟩ :=
    found_iff_of_ensured opened (Or.inl ⟨rfl, rfl⟩) hdone
  cases hfile.symm.trans read_secret
  obtain ⟨hbeside, hqualified⟩ := hwords ⟨"ns"⟩ rfl
  exact ⟨hdone, stored, hbeside.mpr ⟨rfl, rfl⟩, (hqualified "default").mpr ⟨rfl, rfl, rfl⟩⟩

/-- **Made sure of, and not found.**  The file gives a namespace to an object whose type has none.  The
    `ensure` is done, and the store has the object in that namespace.  One way to name it means another
    key, under which there is nothing; and the other is refused. -/
theorem cluster_not_found :
    (ensured "namespace.json").1 = .ok done ∧
    readObject session.types "namespace.json" (around.files "namespace.json") =
      .ok (cluster, object "Namespace") ∧
    (session.store.get cluster (key "a") (ensured "namespace.json").2).1.isOk = true ∧
    resolveObject session.types "Namespace/v1" "a" "ns" = .ok (cluster, .cluster "a") ∧
    (Command.run around.files session false (.get "Namespace/v1" "a" "ns")
        (ensured "namespace.json").2).1 =
      .ok ⟨0, "stop (not found)\n", "Namespace 'a' not found\n"⟩ ∧
    resolveObject session.types "Namespace/v1" "ns/a" "default" =
      .error "Namespace is cluster-scoped; drop the namespace from 'ns/a'" := by
  rw [ensured_of_read read_cluster]
  exact ⟨rfl, read_cluster, rfl, rfl, rfl, rfl⟩

end Misfiled

end Reconciliation.CommandLine
