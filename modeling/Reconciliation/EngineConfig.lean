import Reconciliation.Ownership
import Reconciliation.Retry
import Reconciliation.Store.Config

namespace Reconciliation

/-!
# Engine configuration

* `EngineConfig` — the store, the retries, and the limit of walks to the topmost controller;
* `EngineConfig.load`, `EngineConfig.save` — the configuration from and to the text of a file.
-/

/-- The settings of a reconciler. -/
structure EngineConfig where
  store : StoreConfig
  retry : RetryPolicy
  maxOwnerDepth : Nat
deriving DecidableEq

namespace EngineConfig

/-- The settings for a store, all else as usual. -/
def ofStore (store : StoreConfig) : EngineConfig := ⟨store, .standard, defaultOwnerDepth⟩

/-- The settings for a store in memory. -/
def standard : EngineConfig := ofStore .memory

instance : Inhabited EngineConfig := ⟨standard⟩

/-- The settings as a value. -/
def toJson (config : EngineConfig) : Json :=
  .object [("store", config.store.toJson), ("retry_attempts", config.retry.toJson),
    ("max_owner_depth", .ofNat config.maxOwnerDepth)]

/-- How settings are read. -/
def decoder : Json.Decoder EngineConfig :=
  Json.record [
    .optional "store" StoreConfig.decoder fun value c => { c with store := value },
    .optional "retry_attempts" RetryPolicy.decoder fun value c => { c with retry := value },
    .optional "max_owner_depth" (Json.natural UInt64.size) fun value c =>
      { c with maxOwnerDepth := value }] standard

/-- The settings in the file at a path. -/
def load (path : String) (file : FileContent) : Except EngineError EngineConfig := do
  let content ← file.mapError EngineError.io
  let config ← (Json.ofText decoder content).mapError fun problem =>
    EngineError.config (path ++ ": " ++ problem.detail)
  if config.maxOwnerDepth = 0 then
    .error (.config (path ++ ": max_owner_depth must be at least 1"))
  else return config

/-- The text that the settings are saved as. -/
def save (config : EngineConfig) : String :=
  config.toJson.pretty

end EngineConfig

end Reconciliation
