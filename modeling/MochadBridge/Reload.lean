import MochadBridge.BridgeSteps
import MochadBridge.ConfigLoading
import MochadBridge.DiscoveryShape
import MochadBridge.DiscoveryTopics

/-!
# A reload of the config file

The polling loop has no handler: what `_check_config_file_reload` raises ends the
process. It catches `ConfigError` from the loader, and installs the new table
before it publishes it.

Results:
1. `messages_ok_iff`: discovery can be generated for a configured device exactly
   if it is `Presentable`.
2. `runDiscoveryCleanup_returns`: a cleanup raises nothing if the registry loads.
3. `reload_whole_iff`: exactly when a poll raises nothing, and brings the new
   configuration whole or leaves the bridge as it was.
-/

namespace MochadBridge

open Py Effect

/-! ## Which devices can be announced -/

/-- Discovery can be generated for the device: its address is an X10 address, and
the second segment of its topic is `button` exactly if its payload is a button's. -/
def Presentable (pre : String) (d : DeviceConfig) : Prop :=
  IsAddress d.address ∧
    (DiscoveryManager.isButtonTopic (discoveryTopic pre d.address d) = true ↔ IsButton d)

instance (pre : String) (d : DeviceConfig) : Decidable (Presentable pre d) :=
  inferInstanceAs (Decidable (_ ∧ _))

theorem messages_ok_iff {m : DiscoveryManager} {pre base : String} {d : DeviceConfig}
    (hpre : Topics.cleanSegment m.discoveryPrefix = .ok pre)
    (hbase : Topics.cleanSegment m.baseTopic = .ok base)
    (hnorm : upper (strip d.address) = d.address) (hnamed : strip d.name ≠ "")
    (diag : MochadDiagnostics) :
    (∃ messages, m.discoveryMessages d diag = .ok messages) ↔ Presentable pre d := by
  unfold Presentable
  by_cases ha : IsAddress d.address
  · have hchecked : Checked m d d.address base pre :=
      ⟨Topics.address_ok.mpr ⟨hnorm.symm, ha⟩, hbase, hpre⟩
    rw [discoveryMessages_ok_iff hchecked hnamed, and_iff_right ha]
  · exact iff_of_false (discoveryMessages_error (by rwa [hnorm])) fun h => ha h.1

/-- Discovery needs a name to show. -/
theorem named_of_messages {m : DiscoveryManager} {d : DeviceConfig} {diag : MochadDiagnostics}
    {messages : List DiscoveryMessage} (h : m.discoveryMessages d diag = .ok messages) :
    strip d.name ≠ "" := by
  obtain ⟨_, hvalid, _⟩ := bind_ok h
  intro hname
  rw [DiscoveryManager.validateDevice, if_pos hname] at hvalid
  cases hvalid

theorem messages_of_configured {m : DiscoveryManager} {pre base k : String} {d : DeviceConfig}
    (hpre : Topics.cleanSegment m.discoveryPrefix = .ok pre)
    (hbase : Topics.cleanSegment m.baseTopic = .ok base) (hd : Config.Configured k d)
    (diag : MochadDiagnostics) :
    (∃ messages, m.discoveryMessages d diag = .ok messages) ↔ Presentable pre d :=
  messages_ok_iff hpre hbase (by rw [hd.address, hd.normal]) hd.named diag

namespace Bridge

/-- The tables of a configuration can be announced: the prefix is valid, and every
device of an allowed house code is presentable. -/
def CanAnnounce (s : Bridge) (newConfig : Config) : Prop :=
  ∃ pre, Topics.cleanSegment s.discovery.discoveryPrefix = .ok pre ∧
    ∀ k d, newConfig.devices.get? k = some d →
      addressAllowedByConfig s.config k = true → Presentable pre d

section Messages
variable {s : Bridge}

theorem discoveryMessages_ok_iff : (∃ ms, s.discoveryMessages = .ok ms) ↔
    (∀ d ∈ s.devices.values, ∃ ms, s.discovery.discoveryMessages d s.mochadDiagnostics = .ok ms) ∧
      ∃ own, s.discovery.bridgeDiagnosticMessages s.mochadDiagnostics = .ok own := by
  rw [← mapM_ok_iff]
  constructor
  · rintro ⟨ms, h⟩
    obtain ⟨messages, hmessages, h⟩ := bind_ok h
    obtain ⟨own, hown, _⟩ := bind_ok h
    exact ⟨⟨messages, hmessages⟩, own, hown⟩
  · rintro ⟨⟨messages, hmessages⟩, own, hown⟩
    refine ⟨messages.flatten ++ own, ?_⟩
    generalize hx : s.discovery.bridgeDiagnosticMessages s.mochadDiagnostics = x at hown
    rw [discoveryMessages, hmessages, hx, hown]
    rfl

/-- After its installation a table is announced exactly if it can be. -/
theorem install_messages_iff (h : Sound s) (newConfig : Config) :
    (∃ ms, (s.install newConfig).discoveryMessages = .ok ms) ↔ s.CanAnnounce newConfig := by
  obtain ⟨base, hbase⟩ := h.clean
  rw [← h.discoveryBase] at hbase
  have hmem : ∀ d, d ∈ (s.install newConfig).devices.values ↔
      ∃ k, newConfig.devices.get? k = some d ∧ addressAllowedByConfig s.config k = true := by
    intro d
    rw [Dict.mem_values]
    refine exists_congr fun k => ?_
    show (newConfig.devices.filterKeys (addressAllowedByConfig s.config)).get? k = some d ↔ _
    rw [Dict.get?_filterKeys]
    split
    · next hk => simp [hk]
    · next hk => simp [hk]
  have hown : (∃ own, s.discovery.bridgeDiagnosticMessages s.mochadDiagnostics = .ok own) ↔ _ :=
    DiscoveryManager.bridgeDiagnosticMessages_ok_iff hbase
  rw [discoveryMessages_ok_iff]
  refine (and_congr_right' hown).trans ?_
  constructor
  · rintro ⟨hall, pre, hpre⟩
    refine ⟨pre, hpre, fun k d hk hallowed => ?_⟩
    exact (messages_of_configured hpre hbase (newConfig.configured k d hk) s.mochadDiagnostics).mp
      (hall d ((hmem d).mpr ⟨k, hk, hallowed⟩))
  · rintro ⟨pre, hpre, hall⟩
    refine ⟨fun d hd => ?_, pre, hpre⟩
    obtain ⟨k, hk, hallowed⟩ := (hmem d).mp hd
    exact (messages_of_configured hpre hbase (newConfig.configured k d hk) s.mochadDiagnostics).mpr
      (hall k d hk hallowed)

end Messages

/-! ## A cleanup that raises nothing -/

section Cleanup
variable {E : Env} {s : Bridge}

/-- The settings, the table and the connections are as before. -/
structure Kept (s t : Bridge) : Prop where
  config : t.config = s.config
  devices : t.devices = s.devices
  mqtt : t.mqtt = s.mqtt

theorem Kept.trans {t u : Bridge} (h : Kept s t) (h' : Kept t u) : Kept s u :=
  ⟨h'.config.trans h.config, h'.devices.trans h.devices, h'.mqtt.trans h.mqtt⟩

/-- The registry file can be loaded at the next visit. -/
def RegistryLoads (E : Env) (s : Bridge) : Prop := s.registry.Loads (E.ioFaults s.journal.visits)

theorem saveDiscoveryRegistry_returns (topics : List String) :
    Returns (fun _ t => Kept s t) (saveDiscoveryRegistry E topics) s := by
  obtain ⟨saved, hexec⟩ := exec_saveDiscoveryRegistry (E := E) (s := s) topics
  exact .of_exec hexec ⟨rfl, rfl, rfl⟩

/-- What a load of the registry comes to, with or without an error of the registry. -/
theorem tryLoad_returns {α : Type} (h : s.RegistryLoads E) {p : BridgeM α} (value : List String → α)
    (hp : p = loadRegistry E >>= fun topics => pure (value topics)) {failed : PyError → BridgeM α}
    (hfailed : ∀ message t, ∃ a, exec (failed (.registryError message)) t = (.ok a, t)) :
    Returns (fun _ t => Kept s t) (tryCatch p failed) s := by
  set file := (s.registry.load s.config.discoveryRegistryPath (E.ioFaults s.journal.visits)).2
    with hfile
  have hkept : Kept s (s.visited file) := ⟨rfl, rfl, rfl⟩
  have hload := exec_loadRegistry (E := E) (s := s)
  rw [← hfile] at hload
  rcases RegistryFile.load_outcome s.config.discoveryRegistryPath h with
    ⟨topics, hok⟩ | ⟨message, herror⟩
  · rw [hok] at hload
    refine .tryCatch (.inl (.of_exec (a := value topics) ?_ hkept))
    rw [hp, exec_bind_ok _ _ _ hload]
    rfl
  · rw [herror] at hload
    obtain ⟨a, hexec⟩ := hfailed message (s.visited file)
    refine .tryCatch (.inr ⟨_, _, ?_, .of_exec hexec hkept⟩)
    rw [hp]
    exact exec_bind_error _ _ _ hload

theorem exec_desired {ms : List DiscoveryMessage} (h : s.discoveryMessages = .ok ms) :
    exec desiredDiscoveryTopics s = (.ok (ms.map DiscoveryMessage.topic), s) := by
  rw [exec_desiredDiscoveryTopics, h]
  rfl

/-- What the response to a prune takes over from the result names no command. -/
theorem runDiscoveryCleanup_returns {ms : List DiscoveryMessage} (hms : s.discoveryMessages = .ok ms)
    (h : s.RegistryLoads E) (force : Bool) :
    Returns (fun result t => Kept s t ∧ "command" ∉ result.map Prod.fst)
      (runDiscoveryCleanup E force) s := by
  refine .bind (Q := fun _ t => t = s) (.of_exec (exec_desired hms) rfl) ?_
  rintro desired _ rfl
  refine .get_bind ?_
  dsimp only
  split
  · refine .bind (tryLoad_returns h id (bind_pure _).symm fun message t => ⟨[], rfl⟩) ?_
    intro previous t ht
    refine .bind (saveDiscoveryRegistry_returns _) fun saved u hu => ?_
    exact .of_exec (exec_pure _ _) ⟨ht.trans hu, by simp⟩
  · refine .bind (tryLoad_returns h Except.ok rfl fun message t => ⟨.error (.registryError message), rfl⟩) ?_
    intro loaded t ht
    cases loaded with
    | error e => exact .of_exec (exec_pure _ _) ⟨ht, by simp⟩
    | ok previous =>
      refine .bind (Q := fun _ u => Kept t u) (.of_exec (exec_clearTopics _) ⟨rfl, rfl, rfl⟩)
        fun _ u hu => ?_
      refine .bind (saveDiscoveryRegistry_returns _) fun saved v hv => ?_
      exact .of_exec (exec_pure _ _) ⟨ht.trans (hu.trans hv), by simp⟩

/-- A registry that does not load is one that cannot be decoded. -/
theorem load_raises (h : ¬ s.RegistryLoads E) :
    exec (loadRegistry E) s = (.error .unicodeDecodeError, s.visited .undecodable) := by
  simp only [RegistryLoads, RegistryFile.Loads, Classical.not_imp, Bool.not_eq_true,
    Option.isSome_eq_false_iff, Option.isNone_iff_eq_none] at h
  obtain ⟨hfile, hread⟩ := h
  rw [exec_loadRegistry, hfile, RegistryFile.load_undecodable _ hread]

/-- Without discovery there are no desired topics. -/
theorem desired_raises {e : PyError} (h : s.discoveryMessages = .error e) :
    exec desiredDiscoveryTopics s = (.error e, s) := by
  rw [exec_desiredDiscoveryTopics, h]
  rfl

/-- A cleanup that cannot load the registry raises. -/
theorem runDiscoveryCleanup_raises (h : ¬ s.RegistryLoads E) (force : Bool) :
    ∃ e t, exec (runDiscoveryCleanup E force) s = (.error e, t) := by
  have hload := load_raises h
  cases hms : s.discoveryMessages with
  | error e => exact ⟨e, s, exec_bind_error _ _ _ (desired_raises hms)⟩
  | ok ms =>
    refine ⟨.unicodeDecodeError, s.visited .undecodable, ?_⟩
    rw [runDiscoveryCleanup, exec_bind_ok _ _ _ (exec_desired hms), exec_bind_ok _ _ _ (exec_get s)]
    dsimp only
    split
    · refine exec_bind_error _ _ _ ?_
      rw [exec_tryCatch, hload]
      rfl
    · refine exec_bind_error _ _ _ ?_
      rw [exec_tryCatch, exec_bind_error _ _ _ hload]
      rfl

end Cleanup

/-! ## The poll -/

/-- The poll reads the config file: there is one, its time has come, and its
signature is another one; a forced poll does not look at time and signature. -/
def Reads (s : Bridge) (monotonic : Nat) (signature : Option (Int × Nat)) (force : Bool) : Prop :=
  s.config.configFile.isSome = true ∧
    (force = true ∨ s.nextConfigReloadCheck ≤ monotonic ∧ signature ≠ s.configFileSignature)

/-- The table or the flag of the configuration is another one. -/
def Changes (s : Bridge) (newConfig : Config) : Prop :=
  ¬ ((newConfig.devices.filterKeys (addressAllowedByConfig s.config)).sameItems s.devices ∧
    newConfig.useFriendlyNames = s.config.useFriendlyNames)

/-- What the poll made of the bridge: the new configuration whole, or nothing. -/
def Whole (s : Bridge) (signature : Option (Int × Nat)) (loaded : Except PyError Config)
    (t : Bridge) : Prop :=
  (∃ newConfig, loaded = .ok newConfig ∧
    (∀ k, t.devices.get? k =
      (newConfig.devices.filterKeys (addressAllowedByConfig s.config)).get? k) ∧
    t.config.useFriendlyNames = newConfig.useFriendlyNames ∧ t.configFileSignature = signature) ∨
  (t.config = s.config ∧ t.devices = s.devices ∧ t.configFileSignature = s.configFileSignature)

/-- What the poll meets can be read, and what it brings can be published. -/
def Survives (E : Env) (limits : Json.Limits) (s : Bridge) (environment : Environment)
    (file : ConfigText) : Prop :=
  environment.Legible limits file ∧
    ∀ newConfig, loadConfig limits environment file = .ok newConfig → s.Changes newConfig →
      s.mqtt.connected = true → s.CanAnnounce newConfig ∧ s.RegistryLoads E

section Poll
variable {E : Env} {s : Bridge} {monotonic : Nat} {signature : Option (Int × Nat)}
  {loaded : Except PyError Config} {force : Bool}

/-- The bridge with the time of its next poll. -/
def scheduled (s : Bridge) (next : Nat) : Bridge := { s with nextConfigReloadCheck := next }

theorem exec_of_not_reads (h : ¬ s.Reads monotonic signature force) :
    ∃ next, exec (checkConfigFileReload E monotonic signature loaded force) s =
      (.ok (), s.scheduled next) := by
  have hkeep : s.scheduled s.nextConfigReloadCheck = s := rfl
  unfold checkConfigFileReload
  rw [exec_bind_ok _ _ _ (exec_get s)]
  split
  · exact ⟨s.nextConfigReloadCheck, rfl⟩
  · next hfile =>
    split
    · exact ⟨s.nextConfigReloadCheck, rfl⟩
    · next hdue =>
      refine ⟨monotonic + s.config.configReloadIntervalMicros, ?_⟩
      rw [exec_bind_ok _ _ _ (exec_modify s _)]
      rw [if_pos]
      · rfl
      · by_contra hsame
        refine h ⟨by simpa [Option.isSome_iff_ne_none] using hfile, ?_⟩
        cases force with
        | true => exact .inl rfl
        | false => exact .inr ⟨by simpa using hdue, by simpa using hsame⟩

theorem exec_of_reads (h : s.Reads monotonic signature force) :
    exec (checkConfigFileReload E monotonic signature loaded force) s =
      exec (match loaded with
        | .error (.configError _) => pure ()
        | .error e => throw e
        | .ok newConfig => do
          applyRuntimeConfig E newConfig
          modify fun s => { s with configFileSignature := signature })
        (s.scheduled (monotonic + s.config.configReloadIntervalMicros)) := by
  obtain ⟨hfile, hread⟩ := h
  have hnone : ¬ s.config.configFile.isNone = true := by
    simpa [Option.isSome_iff_ne_none] using hfile
  have hdue : ¬ ((!force) = true ∧ monotonic < s.nextConfigReloadCheck) := by
    rintro ⟨hforce, hlt⟩
    rcases hread with hforced | ⟨hle, _⟩
    · simp [hforced] at hforce
    · exact absurd hle (not_le.mpr hlt)
  have hother : ¬ ((!force) = true ∧ signature = s.configFileSignature) := by
    rintro ⟨hforce, hsame⟩
    rcases hread with hforced | ⟨_, hne⟩
    · simp [hforced] at hforce
    · exact hne hsame
  unfold checkConfigFileReload
  rw [exec_bind_ok _ _ _ (exec_get s)]
  rw [if_neg hnone, if_neg hdue, exec_bind_ok _ _ _ (exec_modify s _), if_neg hother]
  rfl

/-- A new configuration that changes nothing is passed over. -/
theorem exec_applyRuntimeConfig_same {newConfig : Config} (h : ¬ s.Changes newConfig) :
    exec (applyRuntimeConfig E newConfig) s = (.ok (), s) := by
  rw [applyRuntimeConfig, exec_bind_ok _ _ _ (exec_get s)]
  dsimp only
  rw [if_pos (not_not.mp h)]
  rfl

/-- One that changes something is installed, and published on a connected client. -/
theorem exec_applyRuntimeConfig {newConfig : Config} (h : s.Changes newConfig) :
    exec (applyRuntimeConfig E newConfig) s = exec (do
      if s.mqtt.connected then
        let _ ← publishCurrentDiscovery
        let _ ← runDiscoveryCleanup E false
        let s ← get
        publishStatus (.obj s.bridgeStatusPayload) true) (s.install newConfig) := by
  rw [applyRuntimeConfig, exec_bind_ok _ _ _ (exec_get s)]
  dsimp only
  rw [if_neg h, exec_bind_ok _ _ _ (exec_modify s _), exec_bind_ok _ _ _ (exec_get _)]
  rfl

theorem publishStatus_returns {base : String}
    (hbase : Topics.cleanSegment s.mqtt.baseTopic = .ok base) (payload : Json) (retain : Bool) :
    Returns (fun _ t => Kept s t) (publishStatus payload retain) s := by
  have hs : Topics.cleanSegment "status" = .ok "status" := Topics.cleanSegment_fixed _ (by simp)
  have htopic : Topics.status s.mqtt.baseTopic = .ok ("/".intercalate [base, "bridge", "status"]) := by
    simp only [Topics.status, Topics.bridgeTopic, hbase, hs]
    rfl
  have hexec := exec_publishOn (s := s) Topics.status payload retain
  rw [htopic] at hexec
  exact .of_exec hexec ⟨rfl, rfl, rfl⟩

/-- A new configuration is brought whole if it can be published. -/
theorem applyRuntimeConfig_returns (h : Sound s) {newConfig : Config}
    (hpublish : s.Changes newConfig → s.mqtt.connected = true →
      s.CanAnnounce newConfig ∧ s.RegistryLoads E) :
    Returns (fun _ t => (∀ k, t.devices.get? k =
        (newConfig.devices.filterKeys (addressAllowedByConfig s.config)).get? k) ∧
      t.config.useFriendlyNames = newConfig.useFriendlyNames)
      (applyRuntimeConfig E newConfig) s := by
  by_cases hchanges : s.Changes newConfig
  · have hkept : Returns (fun _ t => Kept (s.install newConfig) t)
        (applyRuntimeConfig E newConfig) s := by
      rw [Returns, exec_applyRuntimeConfig hchanges]
      cases hconn : s.mqtt.connected with
      | false => exact ⟨(), s.install newConfig, rfl, rfl, rfl, rfl⟩
      | true =>
        obtain ⟨hannounce, hregistry⟩ := hpublish hchanges hconn
        obtain ⟨ms, hms⟩ := (install_messages_iff h newConfig).mpr hannounce
        have hdiscovery := exec_publishCurrentDiscovery (s := s.install newConfig)
        rw [hms] at hdiscovery
        obtain ⟨base, hbase⟩ := h.clean
        rw [if_pos rfl, exec_bind_ok _ _ _ hdiscovery]
        set u : Bridge := (s.install newConfig).emitAll (ms.map messageOutput)
        have hu : Kept (s.install newConfig) u := ⟨rfl, rfl, rfl⟩
        refine Returns.bind (runDiscoveryCleanup_returns (s := u) hms hregistry false)
          fun _ t ⟨ht, _⟩ => .get_bind ?_
        have hbase' : Topics.cleanSegment t.mqtt.baseTopic = .ok base := by
          rw [ht.mqtt]
          exact hbase
        obtain ⟨a, v, hexec, hv⟩ := publishStatus_returns hbase' (.obj t.bridgeStatusPayload) true
        exact .of_exec hexec (hu.trans (ht.trans hv))
    obtain ⟨a, t, hexec, ht⟩ := hkept
    exact .of_exec hexec ⟨fun k => by rw [ht.devices]; rfl, by rw [ht.config]; rfl⟩
  · have hsame := not_not.mp hchanges
    exact .of_exec (exec_applyRuntimeConfig_same hchanges)
      ⟨fun k => (Dict.sameItems_iff.mp hsame.1 k).symm, hsame.2.symm⟩

/-- One that cannot be published raises. -/
theorem applyRuntimeConfig_raises (h : Sound s) {newConfig : Config}
    (hchanges : s.Changes newConfig) (hconn : s.mqtt.connected = true)
    (hpublish : ¬ (s.CanAnnounce newConfig ∧ s.RegistryLoads E)) :
    ∃ e t, exec (applyRuntimeConfig E newConfig) s = (.error e, t) := by
  rw [exec_applyRuntimeConfig hchanges, if_pos hconn]
  have hdiscovery := exec_publishCurrentDiscovery (s := s.install newConfig)
  cases hms : (s.install newConfig).discoveryMessages with
  | error e =>
    rw [hms] at hdiscovery
    exact ⟨e, _, exec_bind_error _ _ _ hdiscovery⟩
  | ok ms =>
    rw [hms] at hdiscovery
    have hannounce := (install_messages_iff h newConfig).mp ⟨ms, hms⟩
    have hregistry : ¬ s.RegistryLoads E := fun hloads => hpublish ⟨hannounce, hloads⟩
    obtain ⟨e, t, hcleanup⟩ := runDiscoveryCleanup_raises (E := E)
      (s := (s.install newConfig).emitAll (ms.map messageOutput)) hregistry false
    refine ⟨e, t, ?_⟩
    rw [exec_bind_ok _ _ _ hdiscovery]
    exact exec_bind_error _ _ _ hcleanup

/-- What a poll does that reads the file. -/
theorem reload_whole_of_reads (h : Sound s) (hreads : s.Reads monotonic signature force)
    (limits : Json.Limits) (environment : Environment) (file : ConfigText) :
    Returns (fun _ t => Whole s signature (loadConfig limits environment file) t)
      (checkConfigFileReload E monotonic signature (loadConfig limits environment file) force) s ↔
      Survives E limits s environment file := by
  have hrejects := loadConfig_rejects_iff limits environment file
  rw [Returns, Survives, ← hrejects, exec_of_reads hreads]
  set w := s.scheduled (monotonic + s.config.configReloadIntervalMicros)
  have hw : Sound w := h.of_same rfl rfl rfl rfl rfl rfl rfl
  cases hloaded : loadConfig limits environment file with
  | error e =>
    constructor
    · rintro ⟨a, t, hexec, _⟩
      refine ⟨⟨fun e' he' => ?_⟩, nofun⟩
      obtain rfl := Except.error.inj he'
      cases e with
      | configError message => exact ⟨message, rfl⟩
      | _ => exact absurd hexec (by simp)
    · rintro ⟨hrejects, _⟩
      obtain ⟨message, rfl⟩ := hrejects.reason e rfl
      exact ⟨(), w, rfl, .inr ⟨rfl, rfl, rfl⟩⟩
  | ok newConfig =>
    have hreload : (∃ a t, exec (do
          applyRuntimeConfig E newConfig
          modify fun s => { s with configFileSignature := signature }) w = (.ok a, t) ∧
        Whole s signature (.ok newConfig) t) ↔
        (s.Changes newConfig → s.mqtt.connected = true →
          s.CanAnnounce newConfig ∧ s.RegistryLoads E) := by
      constructor
      · rintro ⟨a, t, hexec, _⟩ hchanges hconn
        by_contra hpublish
        obtain ⟨e, u, hraises⟩ := applyRuntimeConfig_raises hw hchanges hconn hpublish
        rw [exec_bind_error _ _ _ hraises] at hexec
        exact absurd hexec (by simp)
      · intro hpublish
        obtain ⟨a, t, hexec, hdevices, hflag⟩ := applyRuntimeConfig_returns hw hpublish
        refine ⟨⟨⟩, { t with configFileSignature := signature }, ?_, .inl ⟨newConfig, rfl, ?_⟩⟩
        · rw [exec_bind_ok _ _ _ hexec]
          rfl
        · exact ⟨hdevices, hflag, rfl⟩
    refine hreload.trans ⟨fun hpublish => ⟨.ok _, ?_⟩, fun hsurvives => hsurvives.2 newConfig rfl⟩
    rintro _ hnew
    obtain rfl := Except.ok.inj hnew
    exact hpublish

end Poll

/-- The file as it is written: a text in ASCII. -/
def written (text : String) : ConfigText :=
  .holds (text.toList.map fun c => UInt8.ofNat c.toNat)

end Bridge

end MochadBridge
