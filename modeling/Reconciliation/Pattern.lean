import Reconciliation.Action
import Reconciliation.Object.Field

namespace Reconciliation

/-!
# Patterns

Actions for the usual steps of a reconciliation:

* `Action.ensureExists` — creates an object unless there is one;
* `Action.updateWith` — reads an object, changes it, and writes it back;
* `Action.deleteIfPresent` — deletes an object if there is one;
* `Action.requireField` — fails unless the object that was read has a value at a path.

What is written back or deleted carries the version that was read, so that a write in between shows
as a conflict.
-/

namespace Action

variable {σ : Type}

/-- Reads the object with the key of `object`, and creates `object` if there is none. -/
def ensureExists (type : ResourceType) (object : Object) : Action σ :=
  handleResult (get type object.key)
    [⟨.notFound, call "create-default" fun _ state => (.ok (some (create object)), state)⟩]

/-- Reads an object and writes back what `mutate` makes of it; `mutate` makes nothing of an object
    that need not change. -/
def updateWith (type : ResourceType) (key : Key)
    (mutate : Object → σ → Except EngineError (Option Object) × σ) : Action σ :=
  let label := "update " ++ key.display
  handleResult (get type key)
    [⟨.proceed, call label fun prior state =>
      match prior.object? with
      | none => (.error (.call label "no object read"), state)
      | some current =>
        let (next, state) := mutate current state
        (next.map fun next => next.map update, state)⟩]

/-- Deletes an object in the version that is there, and goes on if there is none. -/
def deleteIfPresent (type : ResourceType) (key : Key) (options : DeleteOptions) : Action σ :=
  handleResult (get type key)
    [⟨.proceed, call "delete-current" fun prior state =>
        (.ok (some (delete type key (prior.object?.elim options options.guardedBy))), state)⟩,
      ⟨.notFound, noop⟩]

/-- Fails unless the object that was read has a value other than `null` at the path. -/
def requireField (path : List String) : Action σ :=
  let dotted := ".".intercalate path
  let label := "require " ++ dotted
  call label fun prior state =>
    match prior.object? with
    | none => (.error (.call label "no object read"), state)
    | some object =>
      match object.field? path with
      | none | some .null => (.error (.missingField object.key.display dotted), state)
      | some _ => (.ok none, state)

end Action

end Reconciliation
