import Reconciliation.CommandLine.Session
import Reconciliation.Proofs.Json.Record
import Reconciliation.Proofs.Text.Cut

namespace Reconciliation

/-!
# The address of the store

Which store the settings of a run name, and under which address:

* `StoreConfig.trimmed` — a configuration without slashes at the end of its address;
* `CommandLine.storeDocument?` — the document that says which store to use;
* `CommandLine.store_of_loadConfig` — the configuration that is loaded is the one that is written there,
  and trimmed unless it stands in an engine configuration;
* `CommandLine.address_of_loadConfig` — when two runs that find the same document use the same address.
-/

/-! ### Slashes at the end -/

/-- Whether a text ends in a slash. -/
def EndsInSlash (text : String) : Prop := text.toList.getLast? = some '/'

instance (text : String) : Decidable (EndsInSlash text) := inferInstanceAs (Decidable (_ = _))

theorem not_endsInSlash_dropEnd (text : String) : ¬ EndsInSlash (Text.dropEnd '/' text) := by
  intro h
  have hlast := Text.getLast?_dropEndWhile (· == '/') text.toList
  rw [EndsInSlash, Text.dropEnd, String.toList_ofList] at h
  rw [h] at hlast
  cases hlast

/-- A text that does not end in a slash has none to lose. -/
theorem dropEnd_eq_self_iff {text : String} : Text.dropEnd '/' text = text ↔ ¬ EndsInSlash text := by
  constructor
  · intro h
    rw [← h]
    exact not_endsInSlash_dropEnd text
  · intro h
    have hkept : text.toList.reverse.dropWhile (· == '/') = text.toList.reverse := by
      cases hreverse : text.toList.reverse with
      | nil => rfl
      | cons c rest =>
        have hlast : text.toList.getLast? = some c := by
          rw [← List.head?_reverse, hreverse]
          rfl
        have hne : c ≠ '/' := by
          rintro rfl
          exact h hlast
        exact List.dropWhile_cons_of_neg (by simpa using hne)
    rw [Text.dropEnd, Text.dropEndWhile, hkept, List.reverse_reverse, String.ofList_toList]

namespace StoreConfig

/-- The configuration without slashes at the end of its address. -/
def trimmed (config : StoreConfig) : StoreConfig := { config with url := Text.dropEnd '/' config.url }

/-- The configuration that is used when one is written: in an engine configuration it is taken as it
    stands, and elsewhere it is trimmed. -/
def taken (fromEngine : Bool) (written : StoreConfig) : StoreConfig :=
  if fromEngine then written else written.trimmed

variable {written : StoreConfig}

theorem trimmed_taken (fromEngine : Bool) (written : StoreConfig) :
    (written.taken fromEngine).trimmed = written.trimmed := by
  have htwice : Text.dropEnd '/' (Text.dropEnd '/' written.url) = Text.dropEnd '/' written.url :=
    dropEnd_eq_self_iff.mpr (not_endsInSlash_dropEnd written.url)
  cases fromEngine with
  | true => rfl
  | false =>
    show { written.trimmed with url := Text.dropEnd '/' (Text.dropEnd '/' written.url) } = _
    rw [htwice]
    rfl

theorem endsInSlash_taken_iff (fromEngine : Bool) :
    EndsInSlash (written.taken fromEngine).url ↔ fromEngine = true ∧ EndsInSlash written.url := by
  cases fromEngine with
  | true => simp [taken]
  | false => simpa [taken, trimmed] using not_endsInSlash_dropEnd written.url

/-- Taken in the two ways, a configuration has the same address exactly if it is written without a
    slash at the end. -/
theorem url_taken_eq_iff (fromEngine other : Bool) :
    (written.taken other).url = (written.taken fromEngine).url ↔
      other = fromEngine ∨ ¬ EndsInSlash written.url := by
  rw [← dropEnd_eq_self_iff]
  cases fromEngine <;> cases other <;> simp [taken, trimmed, eq_comm]

theorem taken_eq_iff (fromEngine other : Bool) :
    written.taken other = written.taken fromEngine ↔
      (written.taken other).url = (written.taken fromEngine).url := by
  constructor
  · intro h
    exact congrArg url h
  · intro h
    obtain ⟨backend, url, token⟩ := written
    match fromEngine, other, h with
    | true, true, _ | false, false, _ => rfl
    | true, false, h | false, true, h => simpa [taken, trimmed] using h

end StoreConfig

/-! ### The text of a file -/

/-- The document in the text of a file. -/
def documentOf (content : String) : Json.Document := (Json.Document.ofBytes (Text.bytes content)).1

theorem decode_of_ofText {α : Type} {decode : Json.Decoder α} {content : String} {value : α}
    (h : Json.ofText decode content = .ok value) :
    decode (some Json.depthLimit) (documentOf content) = .ok value := by
  unfold Json.ofText Json.ofBytes at h
  dsimp only at h
  split at h
  · cases h
  · rename_i value' hdecode
    split at h
    · cases h
    · cases h
      exact hdecode

namespace StoreConfig

/-- Where a configuration of a store stands, it is read as if it stood alone. -/
theorem decoder_eq {room inner : Json.Room} (opens : room.enter = .ok inner)
    (document : Json.Document) : decoder room document = decoder none document := by
  refine Json.record_congr ?_ _ opens rfl document
  intro member hmem
  simp only [List.mem_cons, List.not_mem_nil, or_false] at hmem
  rcases hmem with rfl | rfl | rfl
  · exact Json.flat_text.member _ _
  · exact Json.flat_text.member _ _
  · exact Json.flat_text.nullable.member _ _

/-- A file of the store's own is trimmed when it is read. -/
theorem trimmed_of_load {file : FileContent} {config : StoreConfig} (h : load file = .ok config) :
    ∃ content written, file = .ok content ∧ decoder none (documentOf content) = .ok written ∧
      config = written.trimmed := by
  obtain ⟨content, hfile, hrest⟩ := bind_eq_ok.mp h
  obtain ⟨written, hwritten, hconfig⟩ := bind_eq_ok.mp hrest
  have hdecode := decode_of_ofText (mapError_eq_ok.mp hwritten)
  rw [decoder_eq rfl] at hdecode
  cases hconfig
  exact ⟨content, written, mapError_eq_ok.mp hfile, hdecode, rfl⟩

end StoreConfig

namespace EngineConfig

/-- The members of an engine configuration. -/
def members : List (Json.Member EngineConfig) := [
  .optional "store" StoreConfig.decoder fun value c => { c with store := value },
  .optional "retry_attempts" RetryPolicy.decoder fun value c => { c with retry := value },
  .optional "max_owner_depth" (Json.natural UInt64.size) fun value c =>
    { c with maxOwnerDepth := value }]

theorem gathers_store : Json.Gathers members "store" StoreConfig.decoder store where
  own member hmem hname room document collect hread collected := by
    simp only [members, List.mem_cons, List.not_mem_nil, or_false] at hmem
    rcases hmem with rfl | rfl | rfl
    · obtain ⟨value, hvalue, rfl⟩ := map_eq_ok.mp hread
      exact hvalue
    · exact absurd hname (by decide)
    · exact absurd hname (by decide)
  other member hmem hname room document collect hread collected := by
    simp only [members, List.mem_cons, List.not_mem_nil, or_false] at hmem
    rcases hmem with rfl | rfl | rfl
    · exact absurd rfl hname
    · obtain ⟨value, _, rfl⟩ := map_eq_ok.mp hread
      rfl
    · obtain ⟨value, _, rfl⟩ := map_eq_ok.mp hread
      rfl

/-- A file that is loaded holds the configuration, and its limit of walks is not zero. -/
theorem decoded_of_load {path : String} {file : FileContent} {config : EngineConfig}
    (h : load path file = .ok config) :
    config.maxOwnerDepth ≠ 0 ∧ ∃ content, file = .ok content ∧
      Json.record members standard (some Json.depthLimit) (documentOf content) = .ok config := by
  obtain ⟨content, hfile, hrest⟩ := bind_eq_ok.mp h
  obtain ⟨written, hwritten, hrest⟩ := bind_eq_ok.mp hrest
  split at hrest
  · cases hrest
  · rename_i hdepth
    cases hrest
    exact ⟨hdepth, content, mapError_eq_ok.mp hfile, decode_of_ofText (mapError_eq_ok.mp hwritten)⟩

/-- The store in a file of an engine configuration is taken as it is written. -/
theorem fills_of_load {path : String} {file : FileContent} {config : EngineConfig}
    (h : load path file = .ok config) :
    ∃ content, file = .ok content ∧
      Json.Fills StoreConfig.decoder none .memory config.store
        ((documentOf content).member? (members.map (·.name)) "store") := by
  obtain ⟨_, content, hfile, hdecode⟩ := decoded_of_load h
  obtain ⟨inner, hinner, hfills⟩ :=
    Json.fills_of_record gathers_store (by decide) (by decide) hdecode
  obtain rfl : some 126 = inner := Except.ok.inj hinner
  refine ⟨content, hfile, ?_⟩
  cases hmember : (documentOf content).member? (members.map (·.name)) "store" with
  | none =>
    rw [hmember] at hfills
    exact hfills
  | some document =>
    rw [hmember] at hfills
    exact (StoreConfig.decoder_eq rfl document).symm.trans hfills

end EngineConfig

namespace CommandLine

section

variable {τ : Type} {around : Surroundings τ} {settings : Settings} {config : EngineConfig}

/-- Whether the store is named by an engine configuration. -/
def Settings.fromEngine (settings : Settings) : Bool :=
  settings.storeConfig.isNone && settings.config.isSome

/-- The document that says which store to use: a file of its own, else what an engine configuration says
    about it, else the file of the user. -/
def storeDocument? (around : Surroundings τ) (settings : Settings) : Option Json.Document :=
  match settings.storeConfig, settings.config with
  | some path, _ => (around.files path).toOption.map documentOf
  | none, some path => (around.files path).toOption >>= fun content =>
    (documentOf content).member? (EngineConfig.members.map (·.name)) "store"
  | none, none => (defaultConfigPath around.home).toOption >>= fun path =>
    (around.files path).toOption.map documentOf

/-- The engine configuration that is given, or the usual one. -/
def engineOf (around : Surroundings τ) (settings : Settings) : Except String EngineConfig :=
  settings.config.elim (.ok .standard) fun path =>
    (EngineConfig.load path (around.files path)).mapError (·.message)

/-- The retries that are given, or those of the engine configuration. -/
def retryOf (settings : Settings) (engine : EngineConfig) : Except String RetryPolicy :=
  settings.retries.elim (.ok engine.retry) fun attempts =>
    (RetryPolicy.ofAttempts attempts.toUInt32).mapError (·.message)

/-- The engine configuration is loaded first, then the store, and the retries come last. -/
theorem loadConfig_eq (around : Surroundings τ) (settings : Settings) :
    loadConfig around settings = (engineOf around settings >>= fun engine =>
      loadStoreConfig around settings engine >>= fun store =>
        retryOf settings engine >>= fun retry => .ok { engine with store, retry }) := by
  unfold loadConfig engineOf retryOf
  cases settings.config <;> cases settings.retries <;> rfl

/-- **Loading.**  The store that is loaded is the one that is written in the document, or the one in memory
    if there is none.  It is trimmed, unless the document stands in an engine configuration. -/
theorem store_of_loadConfig (loaded : loadConfig around settings = .ok config) :
    ∃ written, Json.Fills StoreConfig.decoder none .memory written (storeDocument? around settings) ∧
      config.store = written.taken settings.fromEngine := by
  rw [loadConfig_eq] at loaded
  obtain ⟨engine, hengine, hrest⟩ := bind_eq_ok.mp loaded
  obtain ⟨store, hload, hrest⟩ := bind_eq_ok.mp hrest
  obtain ⟨retry, _, hconfig⟩ := bind_eq_ok.mp hrest
  cases hconfig
  unfold loadStoreConfig at hload
  unfold storeDocument? Settings.fromEngine
  cases hstore : settings.storeConfig with
  | some path =>
    simp only [hstore] at hload
    obtain ⟨content, written, hfile, hwritten, hconfig⟩ :=
      StoreConfig.trimmed_of_load (mapError_eq_ok.mp hload)
    simp only [hfile]
    exact ⟨written, hwritten, hconfig⟩
  | none =>
    cases hconfig : settings.config with
    | some path =>
      simp only [hstore, hconfig] at hload
      rw [engineOf, hconfig] at hengine
      obtain ⟨content, hfile, hfills⟩ := EngineConfig.fills_of_load (mapError_eq_ok.mp hengine)
      simp only [hfile]
      refine ⟨engine.store, hfills, ?_⟩
      exact (Except.ok.inj hload).symm
    | none =>
      simp only [hstore, hconfig] at hload
      obtain ⟨path, hpath, hload⟩ := bind_eq_ok.mp (mapError_eq_ok.mp hload)
      obtain ⟨content, written, hfile, hwritten, hconfig⟩ := StoreConfig.trimmed_of_load hload
      simp only [hpath]
      show ∃ written, Json.Fills StoreConfig.decoder none .memory written
        ((around.files path).toOption.map documentOf) ∧ _
      rw [hfile]
      exact ⟨written, hwritten, hconfig⟩

/-- **The address of the store.**  Whatever the files hold and the settings ask for, the store that is
    loaded is the one that is written, with an address that ends in a slash only if it stands like that
    in an engine configuration that no file of the store's own overrides.  Two runs that find the same
    document agree on the address up to slashes at its end; they agree on it, and on the address of every
    path below it, unless exactly one of them takes it from an engine configuration and it is written
    with a slash there. -/
theorem address_of_loadConfig (loaded : loadConfig around settings = .ok config) :
    ∃ written, Json.Fills StoreConfig.decoder none .memory written (storeDocument? around settings) ∧
      config.store = written.taken settings.fromEngine ∧
      (EndsInSlash config.store.url ↔ settings.fromEngine = true ∧ EndsInSlash written.url) ∧
      ∀ {τ' : Type} (other : Surroundings τ') (settings' : Settings) (config' : EngineConfig),
        loadConfig other settings' = .ok config' →
        storeDocument? other settings' = storeDocument? around settings →
          config'.store.trimmed = config.store.trimmed ∧
          (config'.store = config.store ↔
            settings'.fromEngine = settings.fromEngine ∨ ¬ EndsInSlash written.url) ∧
          ∀ path, config'.store.url ++ path = config.store.url ++ path ↔
            settings'.fromEngine = settings.fromEngine ∨ ¬ EndsInSlash written.url := by
  obtain ⟨written, hfills, hstore⟩ := store_of_loadConfig loaded
  refine ⟨written, hfills, hstore, ?_, ?_⟩
  · rw [hstore]
    exact StoreConfig.endsInSlash_taken_iff settings.fromEngine
  · intro τ' other settings' config' loaded' same
    obtain ⟨written', hfills', hstore'⟩ := store_of_loadConfig loaded'
    rw [same] at hfills'
    obtain rfl : written' = written := Json.Fills.unique hfills' hfills
    have hurl : (written'.taken settings'.fromEngine).url = (written'.taken settings.fromEngine).url ↔
        settings'.fromEngine = settings.fromEngine ∨ ¬ EndsInSlash written'.url :=
      StoreConfig.url_taken_eq_iff settings.fromEngine settings'.fromEngine
    rw [hstore, hstore']
    refine ⟨?_, ?_, fun path => ?_⟩
    · rw [StoreConfig.trimmed_taken, StoreConfig.trimmed_taken]
    · rw [StoreConfig.taken_eq_iff, hurl]
    · rw [String.append_left_inj, hurl]

end

namespace Misplaced

/-- An address with a slash at its end, as the text of a configuration. -/
def storeText : String := "\x7b\"url\":\"http://x/\"\x7d"

/-- A directory with the store in a file of its own, and in an engine configuration. -/
def around : Surroundings Unit where
  files path :=
    if path = "store.json" then .ok storeText
    else if path = "engine.json" then .ok ("\x7b\"store\":" ++ storeText ++ "\x7d")
    else .error "No such file or directory (os error 2)"
  home := none
  stamp := .standard "2026-01-01T00:00:00Z"
  carrier := .unreachable "io: Connection refused (os error 111)"

/-- The engine configuration is given. -/
def fromEngine : Settings := ⟨some "engine.json", none, none, false⟩

/-- The file of the store's own is given. -/
def fromStore : Settings := ⟨none, some "store.json", none, false⟩

/-- The settings for a store behind an address. -/
def reaching (url : String) : EngineConfig := .ofStore ⟨"http", url, none⟩

theorem loadConfig_fromEngine :
    loadConfig around fromEngine = .ok (reaching "http://x/") := by
  with_unfolding_all rfl

theorem loadConfig_fromStore :
    loadConfig around fromStore = .ok (reaching "http://x") := by
  with_unfolding_all rfl

theorem storeDocument?_eq : storeDocument? around fromStore = storeDocument? around fromEngine := by
  with_unfolding_all rfl

/-- One document gives two addresses, and one of them ends in a slash. -/
theorem one_document_two_addresses :
    storeDocument? around fromStore = storeDocument? around fromEngine ∧
    loadConfig around fromEngine = .ok (reaching "http://x/") ∧
    loadConfig around fromStore = .ok (reaching "http://x") ∧
    EndsInSlash (reaching "http://x/").store.url ∧
    (reaching "http://x/").store.url ++ "/resources/core/v1/Secret/ns/a" ≠
      (reaching "http://x").store.url ++ "/resources/core/v1/Secret/ns/a" :=
  ⟨storeDocument?_eq, loadConfig_fromEngine, loadConfig_fromStore, by decide, by decide⟩

/-- The two addresses are one up to the slash, and differ because the document is written with it. -/
theorem written_with_slash :
    loadConfig around fromEngine = .ok (reaching "http://x/") ∧
    ∃ written, Json.Fills StoreConfig.decoder none .memory written
        (storeDocument? around fromEngine) ∧
      EndsInSlash written.url ∧
      (reaching "http://x").store.trimmed =
        (reaching "http://x/").store.trimmed ∧
      (reaching "http://x").store ≠ (reaching "http://x/").store := by
  obtain ⟨written, hfills, _, hslash, hother⟩ := address_of_loadConfig loadConfig_fromEngine
  obtain ⟨htrimmed, hstores, _⟩ :=
    hother around fromStore (reaching "http://x") loadConfig_fromStore storeDocument?_eq
  have hends : EndsInSlash written.url := (hslash.mp (by decide)).2
  refine ⟨loadConfig_fromEngine, written, hfills, hends, htrimmed, fun hsame => ?_⟩
  rcases hstores.mp hsame with hway | hplain
  · cases hway
  · exact hplain hends

end Misplaced

end CommandLine

end Reconciliation
