import MochadBridge.Config
import MochadBridge.Lib.TextFile

/-!
# Loading the configuration

`load_config` as a function of what the config path holds. It is meant to raise
`ConfigError` for every content it does not accept; `_load_config_file` catches
the errors of the file system and of malformed JSON.

Results:
1. `devicesFromSources_rejects`: the parsers of the file's fields raise
   `ConfigError` only.
2. `loadConfig_rejects_iff`: so `load_config` does, exactly if the content is
   UTF-8 and its JSON stays within the limits of the interpreter.
-/

namespace MochadBridge

open Py

/-! ## The file -/

/-- What the config path holds: nothing, something whose presence or whose text
cannot be found out, with the text of the `OSError`, or bytes. -/
inductive ConfigText where
  | absent
  | inaccessible (message : String)
  | unreadable (message : String)
  | holds (content : List UInt8)
  deriving DecidableEq

/-! ## `load_config` -/

namespace Config

/-- `_load_config_file`. The words of the JSON decoder are left out of its error. -/
def loadConfigFile (limits : Json.Limits) (path : Option String) (file : ConfigText) :
    Except PyError (List (String × Json)) :=
  match path with
  | none => .ok []
  | some path =>
    match file with
    | .absent => .ok []
    | .inaccessible message => .error (.osError message)
    | .unreadable message => .error (.configError
      ("BRIDGE_CONFIG_FILE points to an unreadable file '" ++ path ++ "': " ++ message))
    | .holds content =>
      match TextFile.readText content with
      | none => .error .unicodeDecodeError
      | some raw =>
        match Json.loadsWithin limits raw with
        | .ok (.obj data) => .ok data
        | .ok _ => .error (.configError
          ("BRIDGE_CONFIG_FILE '" ++ path ++ "' must contain a JSON object."))
        | .error .malformed => .error (.configError
          ("BRIDGE_CONFIG_FILE '" ++ path ++ "' is not valid JSON"))
        | .error .longInteger => .error (.valueError
          "Exceeds the limit for integer string conversion")
        | .error .tooDeep => .error .recursionError

/-- `_file_bool`. -/
def fileBool (data : List (String × Json)) (key : String) (default : Bool) :
    Except PyError Bool :=
  match Json.field? data key with
  | none => .ok default
  | some (.bool value) => .ok value
  | some (.str value) =>
    if lower (strip value) ∈ ["1", "true", "yes", "on"] then .ok true
    else if lower (strip value) ∈ ["0", "false", "no", "off"] then .ok false
    else .error (.configError ("Config file field '" ++ key ++ "' must be a boolean."))
  | some _ => .error (.configError ("Config file field '" ++ key ++ "' must be a boolean."))

/-- `_devices_from_sources`, with the variable `X10_DEVICES`. -/
def devicesFromSources (fileConfig : List (String × Json)) (useFriendlyNames : Bool)
    (x10Devices : Option String) : Except PyError DeviceTable :=
  match Json.field? fileConfig "devices", Json.field? fileConfig "x10_devices" with
  | some _, some _ => .error (.configError
    "Set only one of 'devices' or 'x10_devices' in BRIDGE_CONFIG_FILE.")
  | some devices, none => parseDeviceConfig devices useFriendlyNames
  | none, some devices => parseDevices (some devices.pyStr) useFriendlyNames
  | none, none => parseDevices x10Devices useFriendlyNames

theorem devicesFromSources_configured {fileConfig : List (String × Json)} {b : Bool}
    {x10Devices : Option String} {t : DeviceTable}
    (h : devicesFromSources fileConfig b x10Devices = .ok t) : TableConfigured t := by
  unfold devicesFromSources at h
  split at h
  · cases h
  · exact parseDeviceConfig_configured h
  · exact parseDevices_configured h
  · exact parseDevices_configured h

end Config

/-- What `load_config` takes from the environment: `X10_DEVICES`, and the other
settings as they were accepted at the start, with `X10_USE_FRIENDLY_NAMES` as the
flag. The device table of the settings is not looked at. -/
structure Environment where
  settings : Config
  x10Devices : Option String := none

/-- `load_config`. -/
def loadConfig (limits : Json.Limits) (environment : Environment) (file : ConfigText) :
    Except PyError Config := do
  let fileConfig ← Config.loadConfigFile limits environment.settings.configFile file
  let useFriendlyNames ←
    Config.fileBool fileConfig "use_friendly_names" environment.settings.useFriendlyNames
  match h : Config.devicesFromSources fileConfig useFriendlyNames environment.x10Devices with
  | .error e => throw e
  | .ok devices =>
    return { environment.settings with
      useFriendlyNames := useFriendlyNames
      devices := devices
      configured := Config.devicesFromSources_configured h }

/-! ## What it raises -/

/-- It raises nothing but `ConfigError`. -/
structure Rejects {α : Type} (x : Except PyError α) : Prop where
  reason : ∀ e, x = .error e → ∃ message, e = .configError message

section Rejects
variable {α β : Type}

theorem Rejects.ok (a : α) : Rejects (.ok a : Except PyError α) := ⟨fun _ h => nomatch h⟩

theorem Rejects.configError (message : String) :
    Rejects (.error (.configError message) : Except PyError α) :=
  ⟨fun _ h => ⟨message, (Except.error.inj h).symm⟩⟩

theorem Rejects.of_error {e : PyError} (h : Rejects (.error e : Except PyError α)) :
    Rejects (.error e : Except PyError β) :=
  ⟨fun _ he => h.reason _ (congrArg _ (Except.error.inj he))⟩

theorem Rejects.bind {x : Except PyError α} {f : α → Except PyError β} (hx : Rejects x)
    (hf : ∀ a, Rejects (f a)) : Rejects (x >>= f) := by
  cases x with
  | ok a => exact hf a
  | error e => exact hx.of_error

theorem Rejects.foldlM {f : β → α → Except PyError β} (hf : ∀ b a, Rejects (f b a)) (l : List α)
    (b : β) : Rejects (l.foldlM f b) := by
  induction l generalizing b with
  | nil => exact .ok b
  | cons a l ih =>
    rw [List.foldlM_cons]
    exact (hf b a).bind ih

theorem Rejects.mapM {f : α → Except PyError β} (hf : ∀ a, Rejects (f a)) (l : List α) :
    Rejects (l.mapM f) := by
  induction l with
  | nil => exact .ok _
  | cons a l ih =>
    rw [List.mapM_cons]
    exact (hf a).bind fun _ => ih.bind fun _ => .ok _

end Rejects

namespace Config

theorem normalizeAddress_rejects (address : String) : Rejects (normalizeAddress address) := by
  unfold normalizeAddress
  dsimp only
  split
  · exact .ok _
  · exact .configError _

theorem parseDeviceType_rejects (value : String) : Rejects (parseDeviceType value) := by
  unfold parseDeviceType
  dsimp only
  split_ifs <;> first | exact .ok _ | exact .configError _

theorem parseDeviceTypeAndProfile_rejects (value : String) :
    Rejects (parseDeviceTypeAndProfile value) := by
  unfold parseDeviceTypeAndProfile
  split
  · exact .ok _
  · exact (parseDeviceType_rejects value).bind fun _ => .ok _

theorem parseBoundedInt_rejects (value : Json) (fieldName : String) (minimum maximum : Int) :
    Rejects (parseBoundedInt value fieldName minimum maximum) := by
  unfold parseBoundedInt
  split
  · exact .configError _
  · split
    · exact .configError _
    · exact .ok _

/-- An unknown profile is the one `ValueError` of a device, and is caught. -/
theorem deviceConfig_rejects (address name : String) (entityType : DeviceType)
    (repeats delay : Json) (profile : Option String) :
    Rejects (deviceConfig address name entityType repeats delay profile) := by
  refine (parseBoundedInt_rejects ..).bind fun n => (parseBoundedInt_rejects ..).bind fun m => ?_
  cases profile with
  | none => exact .ok _
  | some profile =>
    dsimp only [applyProfile, getProfile]
    cases deviceProfiles.find? (·.profileId == lower (strip profile)) with
    | none => exact .configError _
    | some p => exact .ok _

theorem parseEntry_rejects (b : Bool) (devices : DeviceTable) (entry : String) :
    Rejects (parseEntry b devices entry) := by
  unfold parseEntry
  dsimp only
  split
  · exact .ok _
  · split
    · exact (normalizeAddress_rejects _).bind fun _ => (deviceConfig_rejects ..).bind fun _ => .ok _
    · exact (normalizeAddress_rejects _).bind fun _ => (deviceConfig_rejects ..).bind fun _ => .ok _
    · split
      · refine (normalizeAddress_rejects _).bind fun _ => ?_
        refine (parseDeviceTypeAndProfile_rejects _).bind fun _ => ?_
        exact (deviceConfig_rejects ..).bind fun _ => .ok _
      · exact .configError _
    · exact .configError _

theorem parseDevices_rejects (raw : Option String) (b : Bool) : Rejects (parseDevices raw b) := by
  unfold parseDevices
  split
  · exact .ok _
  · split
    · exact .ok _
    · exact .foldlM (parseEntry_rejects b) _ _

theorem parseDeviceObject_rejects (b : Bool) (address : String) (item : List (String × Json)) :
    Rejects (parseDeviceObject b address item) := by
  refine .bind ?_ fun (_, _) => deviceConfig_rejects ..
  unfold parseObjectType
  dsimp only
  split
  · exact parseDeviceTypeAndProfile_rejects _
  · exact (parseDeviceType_rejects _).bind fun _ => .ok _

theorem parseListItem_rejects (b : Bool) (devices : DeviceTable) (item : Json) :
    Rejects (parseListItem b devices item) := by
  unfold parseListItem
  split
  · exact (normalizeAddress_rejects _).bind fun _ =>
      (parseDeviceObject_rejects ..).bind fun _ => .ok _
  · exact .configError _

theorem parseMappingItem_rejects (b : Bool) (devices : DeviceTable) (item : String × Json) :
    Rejects (parseMappingItem b devices item) := by
  refine (normalizeAddress_rejects _).bind fun _ => ?_
  split
  · exact (deviceConfig_rejects ..).bind fun _ => .ok _
  · exact (parseDeviceObject_rejects ..).bind fun _ => .ok _
  · exact .configError _

theorem parseDeviceConfig_rejects (raw : Json) (b : Bool) : Rejects (parseDeviceConfig raw b) := by
  unfold parseDeviceConfig
  split
  · exact .ok _
  · exact parseDevices_rejects _ _
  · exact .foldlM (parseListItem_rejects b) _ _
  · exact .foldlM (parseMappingItem_rejects b) _ _
  · exact .configError _

theorem fileBool_rejects (data : List (String × Json)) (key : String) (default : Bool) :
    Rejects (fileBool data key default) := by
  unfold fileBool
  split
  · exact .ok _
  · exact .ok _
  · split_ifs <;> first | exact .ok _ | exact .configError _
  · exact .configError _

theorem devicesFromSources_rejects (fileConfig : List (String × Json)) (b : Bool)
    (x10Devices : Option String) : Rejects (devicesFromSources fileConfig b x10Devices) := by
  unfold devicesFromSources
  split
  · exact .configError _
  · exact parseDeviceConfig_rejects _ _
  · exact parseDevices_rejects _ _
  · exact parseDevices_rejects _ _

end Config

/-- The presence of the file can be found out, and a content is legible. -/
def ConfigText.Legible (limits : Json.Limits) : ConfigText → Prop
  | .absent | .unreadable _ => True
  | .inaccessible _ => False
  | .holds content => TextFile.Legible limits content

/-- What `load_config` looks at can be read. -/
def Environment.Legible (environment : Environment) (limits : Json.Limits) (file : ConfigText) :
    Prop :=
  environment.settings.configFile.isSome = true → file.Legible limits

theorem loadConfigFile_rejects_iff (limits : Json.Limits) (path : Option String)
    (file : ConfigText) : Rejects (Config.loadConfigFile limits path file) ↔
      (path.isSome = true → file.Legible limits) := by
  have hother : ∀ e : PyError, (∀ message, e ≠ .configError message) →
      ¬ Rejects (.error e : Except PyError (List (String × Json))) := by
    intro e he h
    obtain ⟨message, heq⟩ := h.reason e rfl
    exact he message heq
  cases path with
  | none => exact iff_of_true (.ok _) (by simp)
  | some path =>
    simp only [Option.isSome_some, true_imp_iff]
    cases file with
    | absent => exact iff_of_true (.ok _) trivial
    | unreadable message => exact iff_of_true (.configError _) trivial
    | inaccessible message => exact iff_of_false (hother _ (by simp)) id
    | holds content =>
      simp only [Config.loadConfigFile, ConfigText.Legible, TextFile.Legible]
      cases TextFile.readText content with
      | none => exact iff_of_false (hother _ (by simp)) (by simp)
      | some raw =>
        simp only [Option.some.injEq, exists_eq_left']
        cases Json.loadsWithin limits raw with
        | ok data =>
          refine iff_of_true ?_ (by simp)
          cases data <;> first | exact .configError _ | exact .ok _
        | error fault =>
          cases fault with
          | malformed => exact iff_of_true (.configError _) (by simp)
          | longInteger => exact iff_of_false (hother _ (by simp)) (by simp)
          | tooDeep => exact iff_of_false (hother _ (by simp)) (by simp)

/-- `load_config` turns what it does not accept into a `ConfigError` exactly if it
can read it. -/
theorem loadConfig_rejects_iff (limits : Json.Limits) (environment : Environment)
    (file : ConfigText) :
    Rejects (loadConfig limits environment file) ↔ environment.Legible limits file := by
  rw [Environment.Legible, ← loadConfigFile_rejects_iff, loadConfig]
  cases Config.loadConfigFile limits environment.settings.configFile file with
  | error e => exact ⟨Rejects.of_error, Rejects.of_error⟩
  | ok fileConfig =>
    refine iff_of_true ?_ (.ok _)
    refine (Config.fileBool_rejects ..).bind fun useFriendlyNames => ?_
    have hdevices := Config.devicesFromSources_rejects fileConfig useFriendlyNames
      environment.x10Devices
    split
    · next e he =>
      rw [he] at hdevices
      exact hdevices.of_error
    · exact .ok _

end MochadBridge
