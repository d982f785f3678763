import Reconciliation.Proofs.Configuration
import Reconciliation.Proofs.Json.Layout
import Reconciliation.Proofs.Object.Codec

namespace Reconciliation

/-!
# Configurations that are saved and loaded

* `StoreConfig.load_save` — a saved configuration of a store is loaded without slashes at the end of its
  address, and else as it was;
* `StoreConfig.trimmed_eq_of_load` — what is loaded from a file has none there;
* `EngineConfig.Proper` — an engine configuration with a limit that is a word and not zero;
* `EngineConfig.load_save` — a saved engine configuration that is proper is loaded as it was;
* `EngineConfig.proper_of_load` — what is loaded is proper;
* `saved_is_loaded` — configurations stay what they are when they are saved and loaded again.

The text in between is the one that is really written, and is read by the reader of all texts.
-/

/-- A whole number below the limit is read back. -/
theorem Json.natural_ofNat {limit n : Nat} (h : n < limit) (room : Json.Room) :
    Json.natural limit room (Json.Document.ofJson (.ofNat n)) = .ok n := if_pos h

/-- A whole number that is read is below the limit. -/
theorem Json.lt_of_natural {limit n : Nat} {room : Json.Room} {document : Json.Document}
    (h : Json.natural limit room document = .ok n) : n < limit := by
  unfold Json.natural at h
  split at h
  · split at h
    · rename_i hlt
      cases h
      exact hlt
    · cases h
  · cases h

/-- A whole number of 64 bits is in reach. -/
theorem Json.integral_ofNat {n : Nat} (h : n < UInt64.size) : (Json.ofNat n).Integral := by
  have hsize : n < 2 ^ 64 := h
  refine .number ⟨?_, ?_⟩
  · show -2 ^ 63 ≤ (n : Int)
    omega
  · show (n : Int) < 2 ^ 64
    omega

/-! ### The store -/

namespace StoreConfig

theorem integral_toJson (config : StoreConfig) : config.toJson.Integral := by
  refine .object fun field hfield => ?_
  simp only [List.mem_cons, List.not_mem_nil, or_false] at hfield
  rcases hfield with rfl | rfl | rfl
  · exact .string _
  · exact .string _
  · cases config.authToken with
    | none => exact .null
    | some token => exact .string token

/-- The tree of a configuration is read as the configuration. -/
theorem decoder_toJson (config : StoreConfig) {room inner : Json.Room} (opens : room.enter = .ok inner) :
    decoder room (Json.Document.ofJson config.toJson) = .ok config := by
  rw [decoder_eq opens]
  obtain ⟨backend, url, token⟩ := config
  cases token <;> rfl

/-- The written text of a configuration is read as the configuration. -/
theorem ofText_save (config : StoreConfig) : Json.ofText decoder config.save = .ok config := by
  rw [save, Json.ofText_pretty config.integral_toJson, config.decoder_toJson rfl]
  rfl

/-- **The store.**  A configuration that is saved is loaded without slashes at the end of its address. -/
theorem load_save (config : StoreConfig) : load (.ok config.save) = .ok config.trimmed := by
  show ((Json.ofText decoder config.save).mapError _ >>= _) = _
  rw [ofText_save]
  rfl

/-- There are no slashes at the end of an address that is loaded. -/
theorem trimmed_eq_of_load {file : FileContent} {config : StoreConfig} (h : load file = .ok config) :
    config.trimmed = config := by
  obtain ⟨_, written, _, _, rfl⟩ := trimmed_of_load h
  exact trimmed_taken false written

end StoreConfig

/-! ### The engine -/

/-- The tree of a policy is read as the policy. -/
theorem RetryPolicy.decoder_toJson (policy : RetryPolicy) (room : Json.Room) :
    decoder room (Json.Document.ofJson policy.toJson) = .ok policy := by
  have hattempts : policy.attempts.toNat.toUInt32 = policy.attempts := UInt32.ofNat_toNat
  rw [decoder, toJson, Json.natural_ofNat policy.attempts.toNat_lt]
  show (ofAttempts policy.attempts.toNat.toUInt32).mapError _ = _
  rw [hattempts, ofAttempts, dif_pos policy.positive]
  rfl

namespace EngineConfig

/-- The limit of walks is a word of the machine, and allows at least one step. -/
structure Proper (config : EngineConfig) : Prop where
  positive : 0 < config.maxOwnerDepth
  word : config.maxOwnerDepth < UInt64.size

theorem Proper.integral_toJson {config : EngineConfig} (h : config.Proper) : config.toJson.Integral := by
  refine .object fun field hfield => ?_
  simp only [List.mem_cons, List.not_mem_nil, or_false] at hfield
  rcases hfield with rfl | rfl | rfl
  · exact config.store.integral_toJson
  · exact Json.integral_ofNat (Nat.lt_trans config.retry.attempts.toNat_lt (by decide))
  · exact Json.integral_ofNat h.word

/-- The tree of a proper configuration is read as the configuration. -/
theorem Proper.decoder_toJson {config : EngineConfig} (h : config.Proper) {room : Json.Room}
    (fits : room.fits (1 + 1) = true) :
    decoder room (Json.Document.ofJson config.toJson) = .ok config := by
  have hdistinct : ["store", "retry_attempts", "max_owner_depth"].Nodup := by decide
  have hoptional : ∀ member ∈ members, member.required ≠ true := by
    simp [members, Json.Member.optional]
  refine Json.recordOfFields_eq_ok fits (fun inner hinner => ?_) hdistinct
    fun member hmem hrequired => absurd hrequired (hoptional member hmem)
  obtain ⟨_, hopens, _⟩ := Json.Room.fits_succ_iff.mp hinner
  have hstore := config.store.decoder_toJson hopens
  have hretry := config.retry.decoder_toJson inner
  have hdepth := Json.natural_ofNat h.word inner
  refine .cons rfl (map_eq_ok.mpr ⟨_, hstore, rfl⟩) ?_
  refine .cons rfl (map_eq_ok.mpr ⟨_, hretry, rfl⟩) ?_
  exact .cons rfl (map_eq_ok.mpr ⟨_, hdepth, rfl⟩) (.nil _)

/-- The written text of a proper configuration is read as the configuration. -/
theorem Proper.ofText_save {config : EngineConfig} (h : config.Proper) :
    Json.ofText decoder config.save = .ok config := by
  rw [save, Json.ofText_pretty h.integral_toJson, h.decoder_toJson rfl]
  rfl

/-- **The engine.**  A proper configuration that is saved is loaded as it was. -/
theorem Proper.load_save {config : EngineConfig} (h : config.Proper) (path : String) :
    load path (.ok config.save) = .ok config := by
  show ((Json.ofText decoder config.save).mapError _ >>= fun config => _) = _
  rw [h.ofText_save]
  exact if_neg (Nat.ne_of_gt h.positive)

theorem gathers_maxOwnerDepth :
    Json.Gathers members "max_owner_depth" (Json.natural UInt64.size) maxOwnerDepth where
  own member hmem hname room document collect hread collected := by
    simp only [members, List.mem_cons, List.not_mem_nil, or_false] at hmem
    rcases hmem with rfl | rfl | rfl
    · exact absurd hname (by decide)
    · exact absurd hname (by decide)
    · obtain ⟨value, hvalue, rfl⟩ := map_eq_ok.mp hread
      exact hvalue
  other member hmem hname room document collect hread collected := by
    simp only [members, List.mem_cons, List.not_mem_nil, or_false] at hmem
    rcases hmem with rfl | rfl | rfl
    · obtain ⟨value, _, rfl⟩ := map_eq_ok.mp hread
      rfl
    · obtain ⟨value, _, rfl⟩ := map_eq_ok.mp hread
      rfl
    · exact absurd rfl hname

/-- Whatever is loaded is proper. -/
theorem proper_of_load {path : String} {file : FileContent} {config : EngineConfig}
    (h : load path file = .ok config) : config.Proper := by
  obtain ⟨hdepth, content, _, hdecode⟩ := decoded_of_load h
  obtain ⟨inner, _, hfills⟩ :=
    Json.fills_of_record gathers_maxOwnerDepth (by decide) (by decide) hdecode
  refine ⟨Nat.pos_of_ne_zero hdepth, ?_⟩
  cases hmember : (documentOf content).member? (members.map (·.name)) "max_owner_depth" with
  | none =>
    rw [hmember] at hfills
    rw [show config.maxOwnerDepth = standard.maxOwnerDepth from hfills]
    decide
  | some document =>
    rw [hmember] at hfills
    exact Json.lt_of_natural hfills

end EngineConfig

/-! ### Saved and loaded again -/

/-- **Saving.**  An engine configuration that is loaded from some text is loaded again after it was saved, and
    so is every other one with a limit that is a word and at least one.  A configuration of a store that is
    loaded from some text is loaded again, too; any other one loses the slashes at the end of its address and
    nothing else. -/
theorem saved_is_loaded :
    (∀ path file config, EngineConfig.load path file = .ok config →
      ∀ path, EngineConfig.load path (.ok config.save) = .ok config) ∧
    (∀ path config, EngineConfig.load path (.ok config.save) = .ok config ↔
      1 ≤ config.maxOwnerDepth ∧ config.maxOwnerDepth < UInt64.size) ∧
    (∀ file config, StoreConfig.load file = .ok config →
      StoreConfig.load (.ok config.save) = .ok config) ∧
    ∀ config : StoreConfig,
      StoreConfig.load (.ok config.save) = .ok { config with url := Text.dropEnd '/' config.url } ∧
      (∃ n, config.url = Text.dropEnd '/' config.url ++ String.ofList (List.replicate n '/')) ∧
      ¬ EndsInSlash (Text.dropEnd '/' config.url) := by
  refine ⟨fun _ _ _ h path => (EngineConfig.proper_of_load h).load_save path, fun path config => ⟨?_, ?_⟩,
    fun _ config h => ?_, fun config => ⟨config.load_save, Text.exists_append_dropEnd '/' config.url,
      not_endsInSlash_dropEnd config.url⟩⟩
  · intro h
    obtain ⟨hpositive, hword⟩ := EngineConfig.proper_of_load h
    exact ⟨hpositive, hword⟩
  · rintro ⟨hpositive, hword⟩
    exact EngineConfig.Proper.load_save ⟨hpositive, hword⟩ path
  · rw [config.load_save, StoreConfig.trimmed_eq_of_load h]

namespace Saving

/-- A configuration with slashes at the end of its address, and with a token that has to be escaped. -/
def config : EngineConfig := ⟨⟨"http", "http://x//", some "a\"\\\n"⟩, ⟨5, by decide⟩, 7⟩

/-- The text of a file that leaves out what is usual, and has a slash at the end of the address. -/
def storeText : String := "\x7b\"url\":\"http://x/\"\x7d"

/-- The engine keeps the slashes of its store, and a file of the store's own loses them once and for all. -/
theorem kept_and_trimmed :
    EngineConfig.load "engine.json" (.ok config.save) = .ok config ∧
    EngineConfig.load "other.json" (.ok config.save) = .ok config ∧
    StoreConfig.load (.ok config.store.save) = .ok ⟨"http", "http://x", some "a\"\\\n"⟩ ∧
    StoreConfig.load (.ok storeText) = .ok ⟨"http", "http://x", none⟩ ∧
    StoreConfig.load (.ok (StoreConfig.mk "http" "http://x" none).save) = .ok ⟨"http", "http://x", none⟩ := by
  obtain ⟨hagain, hengine, hloaded, hstore⟩ := saved_is_loaded
  have hsaved : EngineConfig.load "engine.json" (.ok config.save) = .ok config :=
    (hengine "engine.json" config).mpr ⟨by decide, by decide⟩
  have htext : StoreConfig.load (.ok storeText) = .ok ⟨"http", "http://x", none⟩ := by
    with_unfolding_all rfl
  exact ⟨hsaved, hagain _ _ _ hsaved "other.json", (hstore config.store).1, htext, hloaded _ _ htext⟩

end Saving

end Reconciliation
