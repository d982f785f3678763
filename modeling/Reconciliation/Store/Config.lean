import Reconciliation.Store.Basic

namespace Reconciliation

/-!
# Store configuration

* `StoreConfig` — which store to use, and how to reach it;
* `StoreConfig.load`, `StoreConfig.save` — the configuration from and to the text of a file;
* `StoreConfig.backend?` — the kind of store that the configuration names.

A file is given as what reading it brings: its text, or why it could not be read.
-/

/-- The text of a file, or the reason why it could not be read. -/
abbrev FileContent := Except String String

/-- Where the objects live and how to reach them.  The token is passed on as it is. -/
structure StoreConfig where
  backend : String
  url : String
  authToken : Option String
deriving DecidableEq, Repr, Inhabited

/-- The kinds of store. -/
inductive Backend where
  | http
  | memory
deriving DecidableEq, Repr

/-- The name of a kind of store. -/
def Backend.name : Backend → String
  | http => "http"
  | memory => "memory"

namespace StoreConfig

/-- A store behind an address. -/
def http (url : String) : StoreConfig := ⟨"http", Text.dropEnd '/' url, none⟩

/-- A store in memory. -/
def memory : StoreConfig := ⟨"memory", "", none⟩

/-- The configuration with a token, or without one. -/
def withToken (config : StoreConfig) (token : Option String) : StoreConfig :=
  { config with authToken := token }

/-- The configuration as a value. -/
def toJson (config : StoreConfig) : Json :=
  .object [("backend", .string config.backend), ("url", .string config.url),
    ("auth_token", .ofOption (config.authToken.map .string))]

/-- How a configuration is read. -/
def decoder : Json.Decoder StoreConfig :=
  Json.record [
    .optional "backend" Json.text fun value c => { c with backend := value },
    .optional "url" Json.text fun value c => { c with url := value },
    .optional "auth_token" (Json.nullable Json.text) fun value c => { c with authToken := value }]
    ⟨"http", "", none⟩

/-- The configuration in a file.  Slashes at the end of its address do not count. -/
def load (file : FileContent) : Except StoreError StoreConfig := do
  let content ← file.mapError StoreError.io
  let config ← (Json.ofText decoder content).mapError fun problem =>
    StoreError.invalid ("invalid store config: " ++ problem.detail)
  return { config with url := Text.dropEnd '/' config.url }

/-- The text that a configuration is saved as. -/
def save (config : StoreConfig) : String :=
  config.toJson.pretty

/-- The kind of store that the configuration names, if it has what this kind needs. -/
def backend? (config : StoreConfig) : Except StoreError Backend :=
  -- An empty address is refused here, and not when the configuration is read.
  if config.backend = "http" then
    if config.url.isEmpty then .error (.invalid "http backend requires a url") else .ok .http
  else if config.backend = "memory" then .ok .memory
  else .error (.invalid ("unknown store backend '" ++ config.backend ++ "'"))

end StoreConfig

end Reconciliation
