import Reconciliation.CommandLine.Invocation
import Reconciliation.CommandLine.Report
import Reconciliation.Pattern
import Reconciliation.Reconciler
import Reconciliation.Store.Memory
import Reconciliation.Wire.Client

namespace Reconciliation.CommandLine

/-!
# Running commands

* `Surroundings τ` — what a run of the program finds around it, in a world with states of type `τ`;
* `loadConfig` — the settings of the engine;
* `resolveType`, `resolveKey` — which type and which object words mean;
* `Command.run` — what each command does;
* `Invocation.run` — what the program does when it is invoked.

A command acts on the world, and on a store in memory of its own that starts empty.
-/

/-- What a run of the program finds around it. -/
structure Surroundings (τ : Type) where
  files : String → FileContent
  /-- The directory of the user. -/
  home : Option String
  stamp : Stamp
  carrier : Wire.Carrier τ

/-! ### Configuration -/

/-- The path of a file below a directory. -/
def below (directory path : String) : String :=
  if directory.isEmpty || directory.endsWith "/" then directory ++ path
  else directory ++ "/" ++ path

/-- The path of the store configuration that is used if none is given. -/
def defaultConfigPath (home : Option String) : Except StoreError String :=
  match home with
  | some home => .ok (below home ".config/rekon/store.json")
  | none => .error (.invalid "HOME not set")

variable {τ : Type}

/-- The store configuration: the file that is given for it, else what the engine configuration says,
    else the file of the user. -/
def loadStoreConfig (around : Surroundings τ) (settings : Settings) (engine : EngineConfig) :
    Except String StoreConfig :=
  -- The file of the user counts only if no other file is given.
  match settings.storeConfig, settings.config with
  | some path, _ =>
    (StoreConfig.load (around.files path)).mapError fun error =>
      "failed to read store config " ++ path ++ ": " ++ error.message
  | none, some _ => .ok engine.store
  | none, none =>
    (defaultConfigPath around.home >>= fun path => StoreConfig.load (around.files path)).mapError
      fun error => "no --store-config and no default store config: " ++ error.message

/-- The settings of the engine. -/
def loadConfig (around : Surroundings τ) (settings : Settings) : Except String EngineConfig := do
  let engine ← match settings.config with
    | some path => (EngineConfig.load path (around.files path)).mapError (·.message)
    | none => pure EngineConfig.standard
  let store ← loadStoreConfig around settings engine
  let retry ← match settings.retries with
    | some attempts => (RetryPolicy.ofAttempts attempts.toUInt32).mapError (·.message)
    | none => pure engine.retry
  return { engine with store, retry }

/-- The store that the configuration names. -/
def openStore (around : Surroundings τ) (config : StoreConfig) :
    Except StoreError (Store (Memory × τ)) := do
  match ← config.backend? with
  | .memory =>
    return (Memory.store around.stamp).within Prod.fst fun memory state => (memory, state.2)
  | .http =>
    return (Wire.client config around.carrier).within Prod.snd fun world state => (state.1, world)

/-- The reconciler that commands work with. -/
def openSession (around : Surroundings τ) (settings : Settings) :
    Except String (Reconciler (Memory × τ)) := do
  let config ← loadConfig around settings
  let store ← (openStore around config.store).mapError fun error =>
    "store error: " ++ error.message
  return { store, types := .builtin, config, cancelled := fun _ => false }

/-! ### Words for types and objects -/

/-- The type that a text such as `ConfigMap` or `Deployment.apps/v1` means. -/
def resolveType (types : TypeTable) (text : String) : Except String ResourceType :=
  let (coordinates, version) := (Text.cutFirst? '/' text).getD (text, "")
  let (kind, group) := (Text.cutFirst? '.' coordinates).getD (coordinates, "")
  if kind.isEmpty then .error ("invalid resource type '" ++ text ++ "'")
  else (types.resolve group kind version).mapError (·.message)

/-- The key that a text means for a type.  A bare name of a namespaced type is in `scope`. -/
def resolveKey (type : ResourceType) (text scope : String) : Except String Key := do
  let key ← (Key.parse text).mapError (·.message)
  match type.namespaced, key.scope with
  | true, none => return ⟨some ⟨scope⟩, key.name⟩
  | false, some _ =>
    .error (type.kind ++ " is cluster-scoped; drop the namespace from '" ++ text ++ "'")
  | true, some _ | false, none => return key

/-- The type and the key that texts mean. -/
def resolveObject (types : TypeTable) (type key scope : String) :
    Except String (ResourceType × Key) := do
  let type ← resolveType types type
  return (type, ← resolveKey type key scope)

/-! ### Commands -/

variable {σ : Type}

/-- What a command answers in a state: how it ends, or a message. -/
abbrev Performance (σ : Type) := σ → Except String Ending × σ

/-- Goes on with what was prepared. -/
def prepared {α : Type} (input : Except String α) (perform : α → Performance σ) : Performance σ :=
  match input with
  | .ok value => perform value
  | .error message => fun state => (.error message, state)

/-- Runs one action for a target, and keeps what it read. -/
def runReading (reconciler : Reconciler σ) (target : Key) (action : Action σ) (state : σ) :
    Report × σ :=
  mapAnswer
    (fun outcome => ⟨.ofOutcome target outcome, outcome.object?, outcome.items?⟩)
    ((Chain.mk [action]).run (reconciler.context target) state)

/-- Shows an object. -/
def runGet (reconciler : Reconciler σ) (json : Bool) (type : ResourceType) (key : Key) :
    Performance σ := fun state =>
  let (report, state) := runReading reconciler key (.get type key) state
  let ending := match json, report.object, report.directive with
    | false, some object, directive =>
      ⟨exitCode directive, (Json.object object.toFields).pretty ++ "\n", ""⟩
    | false, none, .stop _ =>
      { report.finish json with errors := type.kind ++ " '" ++ key.display ++ "' not found\n" }
    | _, _, _ => report.finish json
  (.ok ending, state)

/-- Shows the objects of a type that pass a filter. -/
def runList (reconciler : Reconciler σ) (json : Bool) (type : ResourceType) (filter : Filter) :
    Performance σ := fun state =>
  let target : Key := ⟨filter.scope, ⟨type.plural⟩⟩
  let (report, state) := runReading reconciler target (.list type filter) state
  let ending := match json, report.items with
    | false, some [] => ⟨exitCode report.directive, "No " ++ type.plural ++ " found.\n", ""⟩
    | false, some objects => ⟨exitCode report.directive, tableText objects, ""⟩
    | _, _ => report.finish json
  (.ok ending, state)

/-- The filter for the objects of a type in a namespace that a selector picks.  The namespace does
    not count for types of the whole cluster. -/
def listFilter (type : ResourceType) (scope selector : Option String) : Except String Filter := do
  let labels ← match selector with
    | some selector => (Selector.parse selector).mapError (·.message)
    | none => pure .empty
  return ⟨if type.namespaced then scope.map Namespace.mk else none, labels⟩

/-- The object in a file, and its type. -/
def readObject (types : TypeTable) (path : String) (file : FileContent) :
    Except String (ResourceType × Object) := do
  let content ← file.mapError fun reason => "failed to read " ++ path ++ ": " ++ reason
  let object ← (Json.ofText Object.decoder content).mapError fun problem =>
    "failed to parse " ++ path ++ ": " ++ problem.detail
  let gvk ← object.gvk.mapError (·.message)
  let type ← (types.resolveGvk gvk).mapError (·.message)
  if type.namespaced && object.metadata.scope.isNone then
    .error (type.kind ++ " '" ++ object.metadata.name.text ++ "' needs a namespace")
  return (type, object)

/-- The actions that make sure an object exists, and then ask to come back. -/
def ensureChain (type : ResourceType) (object : Object) (requeueAfter : Option Nat) :
    Except String (Chain σ) := do
  let ensure := Action.ensureExists type object
  match requeueAfter with
  | some seconds =>
    let requeue ← (Action.requeueAfter (.ofSeconds seconds)).mapError (·.message)
    return ⟨[ensure, requeue]⟩
  | none => return ⟨[ensure]⟩

/-- The options of a delete with the policy of a name. -/
def deleteOptions (propagation : Option String) : Except String DeleteOptions := do
  match propagation with
  | some name =>
    let policy ← (PropagationPolicy.parse name).mapError (·.message)
    return { DeleteOptions.plain with propagation := some policy }
  | none => return .plain

/-- A reference in words. -/
def describe (reference : Option OwnerReference) : String :=
  reference.elim "none" fun reference => reference.kind ++ " " ++ reference.name.text

/-- An object, its controller, and the owner above that was asked for. -/
def ownerText (json : Bool) (label : String) (key : Key) (object : Object)
    (owner : Option OwnerReference) : String :=
  if json then
    let fields := [("object", .string key.display),
      ("controller", .ofOption (object.controller?.map OwnerReference.toJson)),
      (label, .ofOption (owner.map OwnerReference.toJson))]
    (Json.object fields).sorted.pretty ++ "\n"
  else
    "controller: " ++ describe object.controller? ++ "\n" ++ label ++ ": " ++ describe owner ++ "\n"

/-- Shows who controls an object. -/
def runOwner (reconciler : Reconciler σ) (json root : Bool) (type : ResourceType) (key : Key) :
    Performance σ := fun state =>
  let (report, state) := runReading reconciler key (.get type key) state
  match report.object with
  | none => (.ok (report.finish json), state)
  | some object =>
    let (found, state) :=
      if root then reconciler.rootOwner object state else reconciler.findOwner object state
    let ending := match found with
      | .ok owner =>
        ⟨exitCode report.directive,
          ownerText json (if root then "root" else "owner") key object owner, ""⟩
      | .error error => (Report.ofDirective (.failed key error)).finish json
    (.ok ending, state)

/-- Runs a chain for a target, and reports the directive. -/
def runChain (run : Key → Chain σ → σ → Directive × σ) (json : Bool) (target : Key)
    (chain : Chain σ) : Performance σ := fun state =>
  mapAnswer (fun directive => .ok ((Report.ofDirective directive).finish json))
    (run target chain state)

/-- Runs a command. -/
def Command.run (files : String → FileContent) (reconciler : Reconciler σ) (json : Bool) :
    Command → Performance σ
  | get type key scope =>
    prepared (resolveObject reconciler.types type key scope) fun (type, key) =>
      runGet reconciler json type key
  | list type scope selector =>
    prepared
      (do let type ← resolveType reconciler.types type
          return (type, ← listFilter type scope selector))
      fun (type, filter) => runList reconciler json type filter
  | ensure path requeueAfter =>
    prepared
      (do let (type, object) ← readObject reconciler.types path (files path)
          return (object.key, ← ensureChain type object requeueAfter))
      fun (target, chain) => runChain reconciler.runRetrying json target chain
  | delete type key scope propagation ifPresent =>
    prepared
      (do let (type, key) ← resolveObject reconciler.types type key scope
          let options ← deleteOptions propagation
          let action := if ifPresent then Action.deleteIfPresent type key options
            else .delete type key options
          return (key, ⟨[action]⟩))
      fun (target, chain) => runChain reconciler.run json target chain
  | owner type key scope root =>
    prepared (resolveObject reconciler.types type key scope) fun (type, key) =>
      runOwner reconciler json root type key

/-! ### The program -/

/-- Carries out an invocation.  The text of completions is none of this library's, and is left
    out. -/
def Invocation.run (around : Surroundings τ) (invocation : Invocation) (world : τ) : Ending × τ :=
  match invocation with
  | completions _ => (⟨0, "", ""⟩, world)
  | command task settings =>
    let perform := prepared (openSession around settings) fun reconciler =>
      task.run around.files reconciler settings.json
    match perform (.empty, world) with
    | (.ok ending, _, world) => (ending, world)
    | (.error message, _, world) => (.failure message, world)

/-- The paths of the files that an invocation may read. -/
def Invocation.paths (home : Option String) : Invocation → List String
  | completions _ => []
  | command task settings =>
    let file := match task with
      | .ensure path _ => [path]
      | _ => []
    settings.config.toList ++ settings.storeConfig.toList ++
      (defaultConfigPath home).toOption.toList ++ file

end Reconciliation.CommandLine
