import Reconciliation.Hash.Blake3
import Reconciliation.Store.Cascade

namespace Reconciliation

/-!
# The store in memory

A store with optimistic concurrency, kept as a value:

* `Stamp` — where a write takes its time and its identities from;
* `Memory` — the objects by slot, the number of writes, the calls made, and the faults to come;
* `Memory.insert`, `Memory.failNext`, `Memory.restrict` — how a state is prepared;
* `Memory.get`, `Memory.list`, `Memory.create`, `Memory.update`, `Memory.delete` — the calls;
* `Memory.store` — the calls as a `Store`.

Every write takes the next number as version token of the written object, over all objects together.
Updates and guarded deletes are refused with a conflict when the caller's token is not the stored
one.  Each call is counted, and fails without further effect if a fault waits for it.
-/

/-- Where a write takes its time and its identities from. -/
structure Stamp where
  now : String
  fingerprint : String → String

/-- The stamp whose identities are digests of what is written. -/
def Stamp.standard (now : String) : Stamp := ⟨now, Blake3.fingerprint⟩

/-- How often each operation was called. -/
structure CallCounts where
  get : Nat
  list : Nat
  create : Nat
  update : Nat
  delete : Nat
deriving DecidableEq, Repr, Inhabited

namespace CallCounts

/-- No call. -/
def zero : CallCounts := ⟨0, 0, 0, 0, 0⟩

/-- The calls of one operation. -/
def of (counts : CallCounts) : Operation → Nat
  | .get => counts.get
  | .list => counts.list
  | .create => counts.create
  | .update => counts.update
  | .delete => counts.delete

/-- One more call of an operation. -/
def bump (counts : CallCounts) : Operation → CallCounts
  | .get => { counts with get := counts.get + 1 }
  | .list => { counts with list := counts.list + 1 }
  | .create => { counts with create := counts.create + 1 }
  | .update => { counts with update := counts.update + 1 }
  | .delete => { counts with delete := counts.delete + 1 }

/-- The calls of all operations. -/
def total (counts : CallCounts) : Nat :=
  counts.get + counts.list + counts.create + counts.update + counts.delete

@[simp] theorem of_bump (counts : CallCounts) (op other : Operation) :
    (counts.bump op).of other = if other = op then counts.of other + 1 else counts.of other := by
  cases op <;> cases other <;> rfl

end CallCounts

/-- A state of the store in memory. -/
structure Memory where
  objects : Table Slot Object
  /-- The number of writes so far, which is the token of the latest one. -/
  version : Nat
  calls : CallCounts
  /-- The faults to come, each for the next call of its operation. -/
  faults : List (Operation × StoreError)
  /-- The groups and kinds that are installed; `none` if all are. -/
  known : Option (List (String × String))
deriving DecidableEq, Inhabited

namespace Memory

/-- The store without objects. -/
def empty : Memory := ⟨.empty, 0, .zero, [], none⟩

/-- The store in which only the given types are installed. -/
def restrict (types : List ResourceType) (m : Memory) : Memory :=
  { m with known := some (types.map fun type => (type.group, type.kind)) }

/-- The store whose next call of the operation fails, after the faults that wait already. -/
def failNext (op : Operation) (error : StoreError) (m : Memory) : Memory :=
  { m with faults := m.faults ++ [(op, error)] }

/-- The first fault that waits for the operation, and the faults without it. -/
def takeFault? (op : Operation) :
    List (Operation × StoreError) → Option (StoreError × List (Operation × StoreError))
  | [] => none
  | (other, error) :: rest =>
    if other = op then some (error, rest)
    else (takeFault? op rest).map fun (found, left) => (found, (other, error) :: left)

/-- A call: it is counted, and either takes the fault that waits for it or acts. -/
def call {α : Type} (op : Operation) (act : Memory → Except StoreError α × Memory) (m : Memory) :
    Except StoreError α × Memory :=
  let counted := { m with calls := m.calls.bump op }
  match takeFault? op counted.faults with
  | some (error, rest) => (.error error, { counted with faults := rest })
  | none => act counted

/-- Whether the type is installed. -/
def knows (m : Memory) (group kind : String) : Bool :=
  m.known.all fun types => types.contains (group, kind)

/-- The text that identifies a write: its slot and its number. -/
def seed (slot : Slot) (version : Nat) : String :=
  slot.group ++ "/" ++ slot.kind ++ "/" ++ slot.key.display ++ "/" ++ toString version

/-- The object as it is written with the given number.  An identity and a time of creation are made
    only if it has none. -/
def stamped (stamp : Stamp) (slot : Slot) (version : Nat) (object : Object) : Object :=
  { object with
    metadata := { object.metadata with
      version := some ⟨toString version⟩
      uid := object.metadata.uid <|> some ⟨stamp.fingerprint (seed slot version)⟩
      created := object.metadata.created <|> some stamp.now } }

/-- Writes an object into a slot. -/
def write (stamp : Stamp) (slot : Slot) (object : Object) (m : Memory) : Object × Memory :=
  let stored := stamped stamp slot (m.version + 1) object
  (stored, { m with version := m.version + 1, objects := m.objects.insert slot stored })

/-- The slot of an object of a declared type. -/
def slotOf (gvk : GroupVersionKind) (object : Object) : Slot := ⟨gvk.group, gvk.kind, object.key⟩

/-- The slot that a type and a key address. -/
def slotAt (type : ResourceType) (key : Key) : Slot := ⟨type.group, type.kind, key⟩

/-- Seeds an object.  It replaces what is in its slot, and is no call. -/
def insert (stamp : Stamp) (object : Object) (m : Memory) : Except StoreError Object × Memory :=
  match object.gvk with
  | .error error => (.error (.schema error), m)
  | .ok gvk =>
    let (stored, m) := m.write stamp (slotOf gvk object) object
    (.ok stored, m)

/-- Reads an object. -/
def get (type : ResourceType) (key : Key) : Memory → Except StoreError Object × Memory :=
  call .get fun m =>
    if m.knows type.group type.kind then
      match m.objects.find? (slotAt type key) with
      | some object => (.ok object, m)
      | none => (.error (.absent type.kind key), m)
    else (.error (.absent type.kind key), m)

/-- Reads the objects of a type that pass a filter, in the order of their keys. -/
def list (type : ResourceType) (filter : Filter) :
    Memory → Except StoreError (List Object) × Memory :=
  call .list fun m =>
    if m.knows type.group type.kind then
      let found := m.objects.filter fun slot object =>
        slot.group == type.group && slot.kind == type.kind && filter.admits object
      (.ok found.values, m)
    else (.error (.notFound type.kind "*"), m)

/-- What a new object is written as: the store sets its identity and its times. -/
def asNew (object : Object) : Object :=
  { object with
    metadata := { object.metadata with uid := none, created := none, deleted := none } }

/-- Adds an object whose slot is free. -/
def create (stamp : Stamp) (object : Object) : Memory → Except StoreError Object × Memory :=
  call .create fun m =>
    match object.gvk, validateName object.metadata.name.text with
    | .error error, _ | .ok _, .error error => (.error (.schema error), m)
    | .ok gvk, .ok () =>
      let slot := slotOf gvk object
      if !m.knows gvk.group gvk.kind then (.error (.absent gvk.kind object.key), m)
      else if m.objects.contains slot then
        (.error (.alreadyExists gvk.kind object.key.display), m)
      else
        let (stored, m) := m.write stamp slot (asNew object)
        (.ok stored, m)

/-- What an object is replaced by: identity and time of creation stay those of the stored one. -/
def inPlaceOf (current object : Object) : Object :=
  { object with
    metadata := { object.metadata with
      uid := current.metadata.uid, created := current.metadata.created } }

/-- Replaces the object that carries the same version token. -/
def update (stamp : Stamp) (object : Object) : Memory → Except StoreError Object × Memory :=
  call .update fun m =>
    match object.gvk with
    | .error error => (.error (.schema error), m)
    | .ok gvk =>
      let slot := slotOf gvk object
      match m.objects.find? slot, object.metadata.version with
      | none, _ => (.error (.absent gvk.kind object.key), m)
      -- Without a token nobody could say whether the write rests on what is stored.
      | some _, none =>
        (.error (.invalid ("update of " ++ gvk.kind ++ " '" ++ object.key.display ++
          "' requires metadata.resourceVersion")), m)
      | some current, some expected =>
        if current.metadata.version = some expected then
          let (stored, m) := m.write stamp slot (inPlaceOf current object)
          (.ok stored, m)
        else
          (.error (.conflict object.key.display
            ("object has been modified (have " ++ expected.text ++ ", store has " ++
              (current.metadata.version.elim "none" (·.text)) ++ ")")), m)

/-- What is left when an object has been removed and its dependents are dealt with. -/
def settle (policy : PropagationPolicy) (removed : Object) (objects : Table Slot Object) :
    Table Slot Object :=
  match removed.metadata.uid with
  | none => objects
  | some uid =>
    match policy with
    | .foreground | .background => cascade objects [uid]
    | .orphan => orphan objects uid

/-- Removes an object, if it is the guarded version, and deals with its dependents. -/
def delete (type : ResourceType) (key : Key) (options : DeleteOptions) :
    Memory → Except StoreError Unit × Memory :=
  call .delete fun m =>
    let slot := slotAt type key
    match m.objects.find? slot with
    | none => (.error (.absent type.kind key), m)
    | some current =>
      match options.precondition with
      | some expected =>
        if current.metadata.version = some expected then remove slot current m
        else
          (.error (.conflict key.display
            ("precondition failed: expected version " ++ expected.text)), m)
      | none => remove slot current m
where
  /-- Removes the object in a slot. -/
  remove (slot : Slot) (current : Object) (m : Memory) : Except StoreError Unit × Memory :=
    -- The object itself is gone before its dependents are looked for.
    let policy := options.propagation.getD .background
    (.ok (), { m with objects := settle policy current (m.objects.erase slot) })

/-- The store in memory, with all writes stamped alike. -/
def store (stamp : Stamp) : Store Memory :=
  { name := "memory"
    get := get
    list := list
    create := create stamp
    update := update stamp
    delete := delete }

end Memory

end Reconciliation
