import Mathlib.Data.List.Sort
import MochadBridge.Config

/-!
# The generated config file

The bridge writes a config file with its running device table when none is
there. A device is written with six of its fields; the reader gets the others
back from the type and the profile.

`deviceConfig_rebuild` is why that is enough: what `_device_config` builds, it
builds again from the written fields. `Rebuilt` carries this through the
parsers, and `configFilePayload_reads_back` is the round trip of a whole table.
-/

namespace MochadBridge

open Py

/-! ## Writing -/

namespace Config

/-- `_device_to_file_payload`. -/
def deviceToFilePayload (device : DeviceConfig) : List (String × Json) :=
  [("address", .str device.address),
   ("name", .str device.name),
   ("type", .str (lower device.entityType.name)),
   ("command_repeats", .int device.commandRepeats),
   ("command_repeat_delay_ms", .int device.commandRepeatDelayMs)] ++
    match device.profile with
    | some profile => [("profile", .str profile)]
    | none => []

end Config

/-- `_config_file_payload`. -/
def Config.configFilePayload (config : Config) : List (String × Json) :=
  [("use_friendly_names", .bool config.useFriendlyNames),
   ("devices", .arr ((config.devices.values.insertionSort (·.address ≤ ·.address)).map fun device =>
      .obj (Config.deviceToFilePayload device)))]

/-- The device table comes from `parse_devices` or `parse_device_config`, called
with the flag of the configuration. -/
def Config.Parsed (config : Config) : Prop :=
  (∃ raw, parseDevices raw config.useFriendlyNames = .ok config.devices) ∨
    ∃ raw, parseDeviceConfig raw config.useFriendlyNames = .ok config.devices

/-! ## Building a device again -/

theorem getProfile_profileId {id : String} {profile : DeviceProfile}
    (h : getProfile id = .ok profile) : getProfile profile.profileId = .ok profile := by
  have hmem := getProfile_mem h
  rw [getProfile, deviceProfiles_normal profile hmem,
    Dict.find?_of_nodup_map deviceProfiles_nodup hmem]

namespace Config

theorem parseBoundedInt_int {value : Json} {field : String} {lo hi : Int} {n : Nat}
    (h : parseBoundedInt value field lo hi = .ok n) (hlo : 0 ≤ lo) :
    parseBoundedInt (.int n) field lo hi = .ok n := by
  have hr := parseBoundedInt_ok h hlo
  have hread : int? (Json.int n).pyStr = some (n : Int) := int?_toString n
  rw [parseBoundedInt, hread]
  show (if (n : Int) < lo ∨ hi < (n : Int) then _ else _) = _
  rw [if_neg (by omega)]
  rfl

section Rebuild
variable {k name : String} {entityType : DeviceType} {repeats delay : Json} {n m : Nat}

theorem deviceConfig_none (hrep : parseCommandRepeats repeats = .ok n)
    (hdelay : parseCommandRepeatDelayMs delay = .ok m) :
    deviceConfig k name entityType repeats delay none = .ok (bareDevice k name entityType n m) := by
  rw [deviceConfig, hrep, hdelay]
  rfl

theorem deviceConfig_some {id : String} {p : DeviceProfile}
    (hrep : parseCommandRepeats repeats = .ok n) (hdelay : parseCommandRepeatDelayMs delay = .ok m)
    (hp : getProfile id = .ok p) :
    deviceConfig k name entityType repeats delay (some id) =
      .ok (p.apply (bareDevice k name entityType n m)) := by
  have happly : ∀ d, applyProfile d id = .ok (p.apply d) := by
    intro d
    rw [applyProfile, hp]
    rfl
  rw [deviceConfig, hrep, hdelay]
  simp only [happly]
  rfl

/-- What `_device_config` built, it builds again from the written fields. -/
theorem deviceConfig_rebuild {profile : Option String} {d : DeviceConfig}
    (h : deviceConfig k name entityType repeats delay profile = .ok d) :
    d.address = k ∧ d.name = name ∧
      deviceConfig k d.name d.entityType (.int d.commandRepeats) (.int d.commandRepeatDelayMs)
        d.profile = .ok d := by
  obtain ⟨n, m, hrep, hdelay, h⟩ := deviceConfig_cases h
  have hrep' : parseCommandRepeats (.int n) = .ok n := parseBoundedInt_int hrep (by decide)
  have hdelay' : parseCommandRepeatDelayMs (.int m) = .ok m :=
    parseBoundedInt_int hdelay (by decide)
  rcases h with ⟨-, rfl⟩ | ⟨id, p, -, hp, rfl⟩
  · refine ⟨by simp [bareDevice], by simp [bareDevice], ?_⟩
    simp only [bareDevice, DeviceConfig.postInit_name, DeviceConfig.postInit_entityType,
      DeviceConfig.postInit_commandRepeats, DeviceConfig.postInit_commandRepeatDelayMs,
      DeviceConfig.postInit_profile]
    exact deviceConfig_none hrep' hdelay'
  · refine ⟨by simp [bareDevice], by simp [bareDevice], ?_⟩
    have hbare : (bareDevice k name entityType n m).commandRepeats = n ∧
        (bareDevice k name entityType n m).commandRepeatDelayMs = m := by simp [bareDevice]
    rw [apply_profile, apply_commandRepeats, apply_commandRepeatDelayMs, hbare.1, hbare.2,
      deviceConfig_some hrep' hdelay' (getProfile_profileId hp)]
    refine congrArg _ (apply_congr p ?_ ?_ ?_ ?_) <;> simp [bareDevice]

end Rebuild

/-! ## Reading back -/

section Reading
variable {b : Bool} {k : String} {d : DeviceConfig}

theorem Configured.strip_key (h : Configured k d) : strip k = k := by
  rw [← h.normal, strip_upper_strip]

theorem Configured.normalizeAddress (h : Configured k d) : normalizeAddress k = .ok k := by
  rw [Config.normalizeAddress, h.normal, if_pos h.matched]

/-- A displayed name is displayed as it is. -/
theorem displayName_displayName (hk : strip k = k) (hne : strip k ≠ "") (name : Option String)
    (b : Bool) : displayName k (some (displayName k name b)) b = displayName k name b := by
  cases b with
  | false => rfl
  | true =>
    rw [hk] at hne
    have hkey : displayName k (some k) true = k := by simp [displayName, hk, hne]
    cases name with
    | none => exact hkey
    | some name =>
      by_cases hblank : strip name = ""
      · have hname : displayName k (some name) true = k := by simp [displayName, hblank]
        rw [hname, hkey]
      · simp [displayName, hblank]

/-- The type a written device is read with. -/
theorem parseDeviceType_name (t : DeviceType) : parseDeviceType (lower t.name) = .ok t := by
  cases t <;> decide

theorem parseDeviceTypeAndProfile_name (t : DeviceType) :
    parseDeviceTypeAndProfile (lower t.name) = .ok (t, none) := by
  cases t <;> decide

theorem parseObjectType_payload (d : DeviceConfig) :
    parseObjectType (deviceToFilePayload d) = .ok (d.entityType, d.profile) := by
  have hkind : (getOr (deviceToFilePayload d) "type" "entity_type" (.str "switch")).pyStr =
      lower d.entityType.name := by
    simp [deviceToFilePayload, getOr, Json.field?, List.lookup_cons, Json.pyStr]
  cases hp : d.profile with
  | none =>
    have hnone : (Json.field? (deviceToFilePayload d) "profile").filter (· ≠ .null) = none := by
      simp [deviceToFilePayload, Json.field?, List.lookup_cons, hp]
    rw [parseObjectType, hkind, hnone]
    exact parseDeviceTypeAndProfile_name d.entityType
  | some profile =>
    have hsome : (Json.field? (deviceToFilePayload d) "profile").filter (· ≠ .null) =
        some (.str profile) := by
      simp [deviceToFilePayload, Json.field?, List.lookup_cons, hp]
    rw [parseObjectType, hkind, hsome]
    dsimp only
    rw [parseDeviceType_name]
    rfl

theorem parseDeviceObject_eq {item : List (String × Json)} {entityType : DeviceType}
    {profile : Option String} (h : parseObjectType item = .ok (entityType, profile)) :
    parseDeviceObject b k item =
      deviceConfig k
        (displayName k (((Json.field? item "name").filter (· ≠ .null)).map Json.pyStr) b) entityType
        (getOr item "command_repeats" "repeats" (.int defaultCommandRepeats))
        (getOr item "command_repeat_delay_ms" "repeat_delay_ms" (.int defaultCommandRepeatDelayMs))
        profile := by
  rw [parseDeviceObject, h]
  rfl

theorem parseListItem_eq {item : List (String × Json)} (devices : DeviceTable)
    (hk : Config.normalizeAddress ((Json.field? item "address").getD (.str "")).pyStr = .ok k)
    (hd : parseDeviceObject b k item = .ok d) :
    parseListItem b devices (.obj item) = .ok (devices.insert k d) := by
  rw [parseListItem, hk]
  show (parseDeviceObject b k item >>= fun device => pure (devices.insert k device)) = _
  rw [hd]
  rfl

/-- The reader rebuilds a written device. -/
theorem parseListItem_payload (h : Made b k d) (devices : DeviceTable) :
    parseListItem b devices (.obj (deviceToFilePayload d)) = .ok (devices.insert k d) := by
  have hc := h.configured
  obtain ⟨raw, name, entityType, repeats, delay, profile, -, hd⟩ := h
  obtain ⟨hk, hname, hagain⟩ := deviceConfig_rebuild hd
  have hshown : displayName k (some d.name) b = d.name := by
    rw [hname]
    exact displayName_displayName hc.strip_key (strip_ne_empty_of_matches hc.matched) name b
  have haddress : ((Json.field? (deviceToFilePayload d) "address").getD (.str "")).pyStr = k := by
    simp [deviceToFilePayload, Json.field?, Json.pyStr, hk]
  have hfield : (Json.field? (deviceToFilePayload d) "name").filter (· ≠ .null) =
      some (.str d.name) := by
    simp [deviceToFilePayload, Json.field?, List.lookup_cons]
  have hrepeats : getOr (deviceToFilePayload d) "command_repeats" "repeats"
      (.int defaultCommandRepeats) = .int d.commandRepeats := by
    simp [deviceToFilePayload, getOr, Json.field?, List.lookup_cons]
  have hdelay : getOr (deviceToFilePayload d) "command_repeat_delay_ms" "repeat_delay_ms"
      (.int defaultCommandRepeatDelayMs) = .int d.commandRepeatDelayMs := by
    simp [deviceToFilePayload, getOr, Json.field?, List.lookup_cons]
  have hobject : parseDeviceObject b k (deviceToFilePayload d) = .ok d := by
    rw [parseDeviceObject_eq (parseObjectType_payload d), hfield, hrepeats, hdelay, Option.map_some,
      Json.pyStr, hshown]
    exact hagain
  exact parseListItem_eq devices (by rw [haddress, hc.normalizeAddress]) hobject

/-- The reader of a list of written devices. -/
theorem parseList_payload {l : List DeviceConfig} (h : ∀ d ∈ l, Made b d.address d)
    (devices : DeviceTable) :
    (l.map fun d => Json.obj (deviceToFilePayload d)).foldlM (parseListItem b) devices =
      .ok (l.foldl (fun t d => t.insert d.address d) devices) := by
  induction l generalizing devices with
  | nil => rfl
  | cons d l ih =>
    rw [List.map_cons, List.foldlM_cons, parseListItem_payload (h d List.mem_cons_self)]
    exact ih (fun d' hd' => h d' (List.mem_cons_of_mem _ hd')) _

end Reading

end Config

theorem Config.Parsed.made {config : Config} (h : config.Parsed) :
    TableMade config.useFriendlyNames config.devices := by
  rcases h with ⟨raw, hraw⟩ | ⟨raw, hraw⟩
  · exact parseDevices_made hraw
  · exact parseDeviceConfig_made hraw

/-- The table of a valid `X10_DEVICES` text. -/
theorem Config.plain_parsed {raw : String}
    (h : (parseDevices (some raw) true).toOption.isSome = true) : (Config.plain raw).Parsed := by
  refine .inl ⟨some raw, ?_⟩
  show parseDevices (some raw) true = .ok (devicesOf raw)
  cases hp : parseDevices (some raw) true with
  | error e =>
    rw [hp] at h
    cases h
  | ok t => rw [devicesOf, hp]; rfl

/-- The generated config file reproduces the running configuration: its device
list, read with its flag, is the device table in every field. -/
theorem configFilePayload_reads_back (config : Config) (h : config.Parsed) :
    ∃ raw flag table, Json.field? config.configFilePayload "devices" = some raw ∧
      Json.field? config.configFilePayload "use_friendly_names" = some (.bool flag) ∧
      Config.parseDeviceConfig raw flag = .ok table ∧
      ∀ k, table.get? k = config.devices.get? k := by
  have hperm := List.perm_insertionSort (fun d d' : DeviceConfig => d.address ≤ d'.address)
    config.devices.values
  have hmade : ∀ d ∈ config.devices.values.insertionSort (·.address ≤ ·.address),
      Config.Made config.useFriendlyNames d.address d := by
    intro d hd
    obtain ⟨k, hk⟩ := Dict.mem_values.mp (hperm.mem_iff.mp hd)
    rw [(config.configured k d hk).address]
    exact h.made k d hk
  have hread := Config.parseList_payload hmade .empty
  refine ⟨_, _, _, rfl, rfl, hread, ?_⟩
  exact Dict.get?_of_values _ (fun k d hk => (config.configured k d hk).address) hperm

/-- A dimmable lamp and a chime given by its profile, read back. -/
theorem configFilePayload_reads_back_lamp :
    ∃ raw flag table,
      Json.field? (Config.plain "a1: Lamp :light:3,B2:Bell:sc546a_chime").configFilePayload
        "devices" = some raw ∧
      Json.field? (Config.plain "a1: Lamp :light:3,B2:Bell:sc546a_chime").configFilePayload
        "use_friendly_names" = some (.bool flag) ∧
      Config.parseDeviceConfig raw flag = .ok table ∧
      ∀ k, table.get? k =
        (Config.plain "a1: Lamp :light:3,B2:Bell:sc546a_chime").devices.get? k :=
  configFilePayload_reads_back _ (Config.plain_parsed (by decide +kernel))

end MochadBridge
