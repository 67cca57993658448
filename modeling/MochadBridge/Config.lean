import MochadBridge.DeviceRegistry
import MochadBridge.Topics

/-!
# Configuration

The device tables of `X10_DEVICES` and of the JSON config file, and the house
codes. Each parser either returns a table or raises `ConfigError`.

Results: every device of a returned table was made by `_device_config`
(`parseDevices_made`, `parseDeviceConfig_made`), and so is as `Configured` says
(`parseDevices_configured`, `parseDeviceConfig_configured`).
-/

namespace MochadBridge

open Py

def defaultCommandRepeats : Int := 1
def defaultCommandRepeatDelayMs : Int := 150
def maxCommandRepeats : Int := 5
def maxCommandRepeatDelayMs : Int := 5000

/-! ## Addresses and types -/

namespace Config

/-- `_normalize_address`. -/
def normalizeAddress (address : String) : Except PyError String :=
  let address := upper (strip address)
  if matchesAddress isHouseIgnoringCase address.toList then .ok address
  else .error (.configError ("Invalid X10 address '" ++ address ++ "'."))

/-- `_parse_device_type`. -/
def parseDeviceType (value : String) : Except PyError DeviceType :=
  let value := lower (strip value)
  if value = "light" then .ok .light
  else if value = "switch" then .ok .switch
  else if value = "chime" then .ok .chime
  else .error (.configError ("Unknown device type '" ++ value ++ "'."))

/-- `_parse_device_type_and_profile`. -/
def parseDeviceTypeAndProfile (value : String) : Except PyError (DeviceType × Option String) :=
  match deviceProfiles.find? (·.profileId == lower (strip value)) with
  | some profile => .ok (profile.entityType, some profile.profileId)
  | none => do
    let entityType ← parseDeviceType value
    return (entityType, none)

/-- `_display_name`. -/
def displayName (address : String) (name : Option String) (useFriendlyNames : Bool) : String :=
  if !useFriendlyNames then address
  else
    match name with
    | none => address
    | some name => if strip name = "" then address else strip name

/-- `_parse_bounded_int`. -/
def parseBoundedInt (value : Json) (fieldName : String) (minimum maximum : Int) :
    Except PyError Nat :=
  match int? value.pyStr with
  | none =>
    .error (.configError (fieldName ++ " must be an integer. Got '" ++ value.pyStr ++ "'."))
  | some parsed =>
    if parsed < minimum ∨ maximum < parsed then
      .error (.configError (fieldName ++ " must be between " ++ toString minimum ++ " and " ++
        toString maximum ++ ". Got '" ++ value.pyStr ++ "'."))
    else .ok parsed.toNat

/-- `_parse_command_repeats`. -/
def parseCommandRepeats (value : Json) : Except PyError Nat :=
  parseBoundedInt value "command_repeats" 1 maxCommandRepeats

/-- `_parse_command_repeat_delay_ms`. -/
def parseCommandRepeatDelayMs (value : Json) : Except PyError Nat :=
  parseBoundedInt value "command_repeat_delay_ms" 0 maxCommandRepeatDelayMs

/-- `_device_config`. -/
def deviceConfig (address name : String) (entityType : DeviceType := .switch)
    (commandRepeats : Json := .int defaultCommandRepeats)
    (commandRepeatDelayMs : Json := .int defaultCommandRepeatDelayMs)
    (profile : Option String := none) : Except PyError DeviceConfig := do
  let repeats ← parseCommandRepeats commandRepeats
  let delay ← parseCommandRepeatDelayMs commandRepeatDelayMs
  let device := DeviceConfig.postInit
    { address := address, name := name, entityType := entityType, commandRepeats := repeats,
      commandRepeatDelayMs := delay }
  match profile with
  | none => return device
  | some profile =>
    match applyProfile device profile with
    | .ok device => return device
    | .error (.valueError message) => throw (.configError message)
    | .error e => throw e

/-! ## `parse_devices` -/

abbrev DeviceTable := Dict String DeviceConfig

/-- `parts[i]` if there is such a part and it is not blank, else the default. -/
def partOr (parts : List String) (i : Nat) (default : Int) : Json :=
  match parts[i]? with
  | none => .int default
  | some part => if part = "" then .int default else .str part

/-- One entry of `X10_DEVICES`. -/
def parseEntry (useFriendlyNames : Bool) (devices : DeviceTable) (entry : String) :
    Except PyError DeviceTable := do
  let entry := strip entry
  if entry = "" then return devices
  let parts := (split entry ':').map strip
  match parts with
  | [first] =>
    let address ← normalizeAddress first
    let device ← deviceConfig address address
    return devices.insert address device
  | [first, name] =>
    let address ← normalizeAddress first
    let device ← deviceConfig address (displayName address (some name) useFriendlyNames)
    return devices.insert address device
  | first :: name :: kind :: rest =>
    if rest.length ≤ 2 then
      let address ← normalizeAddress first
      let (entityType, profile) ← parseDeviceTypeAndProfile kind
      let device ← deviceConfig address (displayName address (some name) useFriendlyNames)
        entityType (partOr parts 3 defaultCommandRepeats)
        (partOr parts 4 defaultCommandRepeatDelayMs) profile
      return devices.insert address device
    else throw (.configError ("Invalid X10_DEVICES entry '" ++ entry ++ "'."))
  | [] => throw (.configError ("Invalid X10_DEVICES entry '" ++ entry ++ "'."))

/-- `parse_devices`. -/
def parseDevices (raw : Option String) (useFriendlyNames : Bool) : Except PyError DeviceTable :=
  match raw with
  | none => .ok .empty
  | some raw =>
    if raw = "" then .ok .empty
    else (split raw ',').foldlM (parseEntry useFriendlyNames) .empty

/-! ## `parse_device_config` -/

/-- `item.get(name, item.get(short, default))`. -/
def getOr (item : List (String × Json)) (name short : String) (default : Json) : Json :=
  (Json.field? item name).getD ((Json.field? item short).getD default)

/-- The type and the profile of a device given by an object. -/
def parseObjectType (item : List (String × Json)) : Except PyError (DeviceType × Option String) :=
  let kind := (getOr item "type" "entity_type" (.str "switch")).pyStr
  match (Json.field? item "profile").filter (· ≠ .null) with
  | none => parseDeviceTypeAndProfile kind
  | some profile => do
    let entityType ← parseDeviceType kind
    return (entityType, some profile.pyStr)

/-- A device given by an object, the part that a list entry and a mapping value
have in common. -/
def parseDeviceObject (useFriendlyNames : Bool) (address : String) (item : List (String × Json)) :
    Except PyError DeviceConfig := do
  let (entityType, profile) ← parseObjectType item
  let name := (Json.field? item "name").filter (· ≠ .null)
  deviceConfig address (displayName address (name.map Json.pyStr) useFriendlyNames) entityType
    (getOr item "command_repeats" "repeats" (.int defaultCommandRepeats))
    (getOr item "command_repeat_delay_ms" "repeat_delay_ms" (.int defaultCommandRepeatDelayMs))
    profile

/-- One entry of `_parse_device_list`. -/
def parseListItem (useFriendlyNames : Bool) (devices : DeviceTable) (item : Json) :
    Except PyError DeviceTable :=
  match item with
  | .obj fields => do
    let address ← normalizeAddress ((Json.field? fields "address").getD (.str "")).pyStr
    let device ← parseDeviceObject useFriendlyNames address fields
    return devices.insert address device
  | _ => .error (.configError "Config file device list entries must be objects.")

/-- One entry of `_parse_device_mapping`. -/
def parseMappingItem (useFriendlyNames : Bool) (devices : DeviceTable)
    (item : String × Json) : Except PyError DeviceTable := do
  let address ← normalizeAddress item.1
  match item.2 with
  | .str name =>
    let device ← deviceConfig address (displayName address (some name) useFriendlyNames)
    return devices.insert address device
  | .obj fields =>
    let device ← parseDeviceObject useFriendlyNames address fields
    return devices.insert address device
  | _ => throw (.configError "Config file device object values must be strings or objects.")

/-- `parse_device_config`. -/
def parseDeviceConfig (raw : Json) (useFriendlyNames : Bool) : Except PyError DeviceTable :=
  match raw with
  | .null => .ok .empty
  | .str raw => parseDevices (some raw) useFriendlyNames
  | .arr items => items.foldlM (parseListItem useFriendlyNames) .empty
  | .obj fields => fields.foldlM (parseMappingItem useFriendlyNames) .empty
  | _ => .error (.configError "Config file field 'devices' must be a string, list, or object.")

/-! ## House codes -/

/-- The house code of one character. -/
def parseHousecode (c : Char) : Except PyError String :=
  if isHouseIgnoringCase c then .ok (String.singleton c)
  else .error (.configError
    ("Invalid X10 house code '" ++ String.singleton c ++ "' in X10_HOUSECODES."))

/-- `_parse_housecode_range`. -/
def parseHousecodeRange (value : String) : Except PyError (Char × Char) :=
  match (split value '-').map fun part => (strip part).toList with
  | [[start], [stop]] =>
    if isHouseIgnoringCase start ∧ isHouseIgnoringCase stop ∧ start ≤ stop then .ok (start, stop)
    else .error (.configError ("Invalid X10_HOUSECODES range '" ++ value ++ "'."))
  | _ => .error (.configError ("Invalid X10_HOUSECODES range '" ++ value ++ "'."))

/-- One part of `X10_HOUSECODES`: a range or a word of house codes. -/
def parseHousecodePart (part : String) : Except PyError (List String) :=
  if '-' ∈ part.toList then do
    let (start, stop) ← parseHousecodeRange part
    return (List.range' start.toNat (stop.toNat + 1 - start.toNat)).map fun code =>
      String.singleton (Char.ofNat code)
  else part.toList.mapM parseHousecode

/-- `parse_housecodes`. The result is a set, of which only membership is asked;
`none` stands for all house codes. -/
def parseHousecodes (raw : Option String) : Except PyError (Option (List String)) :=
  match raw with
  | none => .ok none
  | some raw =>
    let value := upper (strip raw)
    if value ∈ ["", "*", "A-P", "A...P"] then .ok none
    else do
      let parts := (value.toList.splitOnP fun c => isSpace c || c == ',').filter (! ·.isEmpty)
      let codes ← parts.mapM fun part => parseHousecodePart (String.ofList part)
      return if codes.flatten = [] then none else some codes.flatten

example : (parseHousecodes (some "a-c, p")).toOption = some (some ["A", "B", "C", "P"]) := by
  decide

end Config

/-! ## What the device parsers return -/

namespace Config

/-- What the parsers promise of a device in their table. -/
structure Configured (k : String) (d : DeviceConfig) : Prop where
  address : d.address = k
  matched : matchesAddress isHouseIgnoringCase k.toList = true
  normal : upper (strip k) = k
  named : strip d.name ≠ ""
  repeats : 1 ≤ d.commandRepeats ∧ d.commandRepeats ≤ 5
  delay : d.commandRepeatDelayMs ≤ 5000

/-- Every device of a table is as the parsers promise. -/
def TableConfigured (devices : DeviceTable) : Prop := ∀ k d, devices.get? k = some d → Configured k d

theorem tableConfigured_empty : TableConfigured .empty := fun _ _ h => nomatch h

theorem Configured.apply {k : String} {d : DeviceConfig} (h : Configured k d) (p : DeviceProfile) :
    Configured k (p.apply d) :=
  ⟨by rw [apply_address, h.address], h.matched, h.normal, by rw [apply_name]; exact h.named,
    by rw [apply_commandRepeats]; exact h.repeats,
    by rw [apply_commandRepeatDelayMs]; exact h.delay⟩

theorem isSpace_of_isHouseIgnoringCase {c : Char} (h : isHouseIgnoringCase c = true) :
    isSpace c = false := by
  have hc : (65 ≤ c.toNat ∧ c.toNat ≤ 80) ∨ (97 ≤ c.toNat ∧ c.toNat ≤ 112) ∨ c.toNat = 304 ∨
      c.toNat = 305 ∨ c.toNat = 8490 := by
    simp only [isHouseIgnoringCase, isHouse, Bool.or_eq_true, Bool.and_eq_true, decide_eq_true_eq,
      beq_iff_eq] at h
    rcases h with (((h | h) | h) | h) | h
    · exact .inl h
    · exact .inr (.inl h)
    · exact .inr (.inr (.inl h))
    · exact .inr (.inr (.inr (.inl h)))
    · exact .inr (.inr (.inr (.inr h)))
  rw [Bool.eq_false_iff]
  intro hs
  simp only [isSpace, spaceCodes, List.contains_eq_mem, List.mem_cons, List.not_mem_nil, or_false,
    decide_eq_true_eq] at hs
  omega

/-- A text that matches as an address is not blank: it begins with a letter. -/
theorem strip_ne_empty_of_matches {k : String}
    (h : matchesAddress isHouseIgnoringCase k.toList = true) : strip k ≠ "" := by
  obtain ⟨c, hc, hhouse⟩ : ∃ c ∈ k.toList, isHouseIgnoringCase c = true := by
    unfold matchesAddress at h
    split at h
    · next c u hk =>
      simp only [Bool.and_eq_true] at h
      exact ⟨c, by simp [hk], h.1.1⟩
    · next c t u hk =>
      simp only [Bool.and_eq_true] at h
      exact ⟨c, by simp [hk], h.1.1.1⟩
    · cases h
  intro hs
  refine trim_ne_nil hc (isSpace_of_isHouseIgnoringCase hhouse) ?_
  rw [← toList_strip, hs]
  rfl

theorem normalizeAddress_ok {raw k : String} (h : normalizeAddress raw = .ok k) :
    matchesAddress isHouseIgnoringCase k.toList = true ∧ upper (strip k) = k := by
  simp only [normalizeAddress] at h
  split at h
  · next hm =>
    rw [Except.ok.injEq] at h
    subst h
    exact ⟨hm, upper_strip_idem raw⟩
  · cases h

theorem parseBoundedInt_ok {value : Json} {field : String} {lo hi : Int} {n : Nat}
    (h : parseBoundedInt value field lo hi = .ok n) (hlo : 0 ≤ lo) : lo ≤ n ∧ (n : Int) ≤ hi := by
  unfold parseBoundedInt at h
  split at h
  · cases h
  · next parsed _ =>
    split at h
    · cases h
    · next hr =>
      rw [Except.ok.injEq] at h
      subst h
      omega

theorem displayName_named {k : String} (hk : strip k ≠ "") (name : Option String) (b : Bool) :
    strip (displayName k name b) ≠ "" := by
  unfold displayName
  split
  · exact hk
  · split
    · exact hk
    · next name =>
      split
      · exact hk
      · next hn => rwa [strip_strip]

/-- The device `_device_config` builds before it applies a profile. -/
def bareDevice (k name : String) (entityType : DeviceType) (n m : Nat) : DeviceConfig :=
  DeviceConfig.postInit
    { address := k, name := name, entityType := entityType, commandRepeats := n,
      commandRepeatDelayMs := m }

/-- What `_device_config` returns: the bare device, or what its profile makes of it. -/
theorem deviceConfig_cases {k name : String} {entityType : DeviceType} {repeats delay : Json}
    {profile : Option String} {d : DeviceConfig}
    (h : deviceConfig k name entityType repeats delay profile = .ok d) :
    ∃ n m, parseCommandRepeats repeats = .ok n ∧ parseCommandRepeatDelayMs delay = .ok m ∧
      ((profile = none ∧ d = bareDevice k name entityType n m) ∨
        ∃ id p, profile = some id ∧ getProfile id = .ok p ∧
          d = p.apply (bareDevice k name entityType n m)) := by
  obtain ⟨n, hrep, h⟩ := bind_ok h
  obtain ⟨m, hdelay, h⟩ := bind_ok h
  refine ⟨n, m, hrep, hdelay, ?_⟩
  cases profile with
  | none =>
    cases h
    exact .inl ⟨rfl, rfl⟩
  | some id =>
    dsimp only at h
    split at h
    · next d' hd =>
      cases h
      obtain ⟨p, hp, hd⟩ := bind_ok hd
      cases hd
      exact .inr ⟨id, p, rfl, hp, rfl⟩
    · cases h
    · cases h

theorem deviceConfig_ok {k name : String} {entityType : DeviceType} {repeats delay : Json}
    {profile : Option String} {d : DeviceConfig}
    (hm : matchesAddress isHouseIgnoringCase k.toList = true) (hn : upper (strip k) = k)
    (hname : strip name ≠ "")
    (h : deviceConfig k name entityType repeats delay profile = .ok d) : Configured k d := by
  obtain ⟨n, m, hrep, hdelay, h⟩ := deviceConfig_cases h
  have hn' := parseBoundedInt_ok hrep (by decide)
  have hm' := parseBoundedInt_ok hdelay (by decide)
  simp only [maxCommandRepeats, maxCommandRepeatDelayMs] at hn' hm'
  have hbare : Configured k (bareDevice k name entityType n m) :=
    ⟨by simp [bareDevice], hm, hn, by simpa [bareDevice] using hname,
      by simp [bareDevice]; omega, by simp [bareDevice]; omega⟩
  rcases h with ⟨-, rfl⟩ | ⟨id, p, -, -, rfl⟩
  · exact hbare
  · exact hbare.apply p

/-! ### Every device of a table was made by `_device_config` -/

/-- `d` is what `_device_config` returned for a normalized address and the name
to display there. -/
def Made (b : Bool) (k : String) (d : DeviceConfig) : Prop :=
  ∃ raw name entityType repeats delay profile, normalizeAddress raw = .ok k ∧
    deviceConfig k (displayName k name b) entityType repeats delay profile = .ok d

theorem Made.configured {b : Bool} {k : String} {d : DeviceConfig} (h : Made b k d) :
    Configured k d := by
  obtain ⟨raw, name, entityType, repeats, delay, profile, hk, hd⟩ := h
  obtain ⟨hm, hn⟩ := normalizeAddress_ok hk
  exact deviceConfig_ok hm hn (displayName_named (strip_ne_empty_of_matches hm) _ _) hd

/-- A chime keeps no state: neither its type nor one of the profiles for it does. -/
theorem Made.stateless {b : Bool} {k : String} {d : DeviceConfig} (h : Made b k d)
    (hchime : d.entityType = .chime) : d.stateful = false := by
  have hprofiles : ∀ p ∈ deviceProfiles, p.entityType = .chime → p.stateful = false := by
    decide
  obtain ⟨_, _, _, _, _, _, -, hd⟩ := h
  obtain ⟨n, m, -, -, ⟨-, rfl⟩ | ⟨id, p, -, hp, rfl⟩⟩ := deviceConfig_cases hd
  · rw [bareDevice, DeviceConfig.postInit_entityType] at hchime
    simp only at hchime
    rw [hchime]
    rfl
  · rw [apply_entityType] at hchime
    rw [apply_stateful (getProfile_mem hp)]
    exact hprofiles p (getProfile_mem hp) hchime

/-- Every device of a table was made so. -/
def TableMade (b : Bool) (devices : DeviceTable) : Prop :=
  ∀ k d, devices.get? k = some d → Made b k d

theorem tableMade_empty (b : Bool) : TableMade b .empty := fun _ _ h => nomatch h

theorem TableMade.insert {b : Bool} {devices : DeviceTable} (h : TableMade b devices) {k : String}
    {d : DeviceConfig} (hd : Made b k d) : TableMade b (devices.insert k d) := by
  intro k' d' hget
  rw [Dict.get?_insert] at hget
  split at hget
  · next he =>
    cases hget
    exact he ▸ hd
  · exact h k' d' hget

theorem displayName_none (k : String) (b : Bool) : displayName k none b = k := by
  cases b <;> rfl

section Tables
variable {b : Bool} {devices t : DeviceTable}

theorem made_of_deviceConfig {raw k : String} {name : Option String} {entityType : DeviceType}
    {repeats delay : Json} {profile : Option String} {d : DeviceConfig}
    (hk : normalizeAddress raw = .ok k)
    (hd : deviceConfig k (displayName k name b) entityType repeats delay profile = .ok d) :
    Made b k d :=
  ⟨raw, name, entityType, repeats, delay, profile, hk, hd⟩

theorem made_of_parseDeviceObject {raw k : String} {item : List (String × Json)}
    {d : DeviceConfig} (hk : normalizeAddress raw = .ok k)
    (h : parseDeviceObject b k item = .ok d) : Made b k d := by
  obtain ⟨⟨entityType, profile⟩, -, h⟩ := bind_ok h
  exact made_of_deviceConfig hk h

theorem parseEntry_made {entry : String} (hd : TableMade b devices)
    (h : parseEntry b devices entry = .ok t) : TableMade b t := by
  simp only [parseEntry] at h
  split at h
  · cases h
    exact hd
  · split at h
    · obtain ⟨k, hk, h⟩ := bind_ok h
      obtain ⟨d, hdev, h⟩ := bind_ok h
      cases h
      have hshown : deviceConfig k (displayName k none b) = .ok d := by
        rw [displayName_none]
        exact hdev
      exact hd.insert (made_of_deviceConfig hk hshown)
    · obtain ⟨k, hk, h⟩ := bind_ok h
      obtain ⟨d, hdev, h⟩ := bind_ok h
      cases h
      exact hd.insert (made_of_deviceConfig hk hdev)
    · split at h
      · obtain ⟨k, hk, h⟩ := bind_ok h
        obtain ⟨⟨entityType, profile⟩, -, h⟩ := bind_ok h
        obtain ⟨d, hdev, h⟩ := bind_ok h
        cases h
        exact hd.insert (made_of_deviceConfig hk hdev)
      · cases h
    · cases h

theorem parseListItem_made {item : Json} (hd : TableMade b devices)
    (h : parseListItem b devices item = .ok t) : TableMade b t := by
  unfold parseListItem at h
  split at h
  · obtain ⟨k, hk, h⟩ := bind_ok h
    obtain ⟨d, hdev, h⟩ := bind_ok h
    cases h
    exact hd.insert (made_of_parseDeviceObject hk hdev)
  · cases h

theorem parseMappingItem_made {item : String × Json} (hd : TableMade b devices)
    (h : parseMappingItem b devices item = .ok t) : TableMade b t := by
  obtain ⟨k, hk, h⟩ := bind_ok h
  split at h
  · obtain ⟨d, hdev, h⟩ := bind_ok h
    cases h
    exact hd.insert (made_of_deviceConfig hk hdev)
  · obtain ⟨d, hdev, h⟩ := bind_ok h
    cases h
    exact hd.insert (made_of_parseDeviceObject hk hdev)
  · cases h

/-- A fold of steps that each keep such a table. -/
theorem foldlM_made {α : Type} {f : DeviceTable → α → Except PyError DeviceTable}
    (hf : ∀ devices x t, TableMade b devices → f devices x = .ok t → TableMade b t)
    (l : List α) (hd : TableMade b devices) (h : l.foldlM f devices = .ok t) : TableMade b t := by
  induction l generalizing devices with
  | nil =>
    cases h
    exact hd
  | cons x l ih =>
    rw [List.foldlM_cons] at h
    obtain ⟨devices', hx, h⟩ := bind_ok h
    exact ih (hf _ _ _ hd hx) h

theorem parseDevices_made {raw : Option String} (h : parseDevices raw b = .ok t) :
    TableMade b t := by
  unfold parseDevices at h
  split at h
  · cases h
    exact tableMade_empty b
  · split at h
    · cases h
      exact tableMade_empty b
    · exact foldlM_made (fun _ _ _ => parseEntry_made) _ (tableMade_empty b) h

theorem parseDeviceConfig_made {raw : Json} (h : parseDeviceConfig raw b = .ok t) :
    TableMade b t := by
  unfold parseDeviceConfig at h
  split at h
  · cases h
    exact tableMade_empty b
  · exact parseDevices_made h
  · exact foldlM_made (fun _ _ _ => parseListItem_made) _ (tableMade_empty b) h
  · exact foldlM_made (fun _ _ _ => parseMappingItem_made) _ (tableMade_empty b) h
  · cases h

theorem TableMade.configured (h : TableMade b t) : TableConfigured t := fun k d hd =>
  (h k d hd).configured

/-- Every device `parse_devices` returns is configured. -/
theorem parseDevices_configured {raw : Option String} (h : parseDevices raw b = .ok t) :
    TableConfigured t :=
  (parseDevices_made h).configured

/-- Every device `parse_device_config` returns is configured. -/
theorem parseDeviceConfig_configured {raw : Json} (h : parseDeviceConfig raw b = .ok t) :
    TableConfigured t :=
  (parseDeviceConfig_made h).configured

/-- The table of an `X10_DEVICES` text, empty if the text is not valid. -/
def devicesOf (raw : String) : DeviceTable := ((parseDevices (some raw) true).toOption).getD .empty

theorem devicesOf_configured (raw : String) : TableConfigured (devicesOf raw) := by
  unfold devicesOf
  cases h : parseDevices (some raw) true with
  | error e => exact tableConfigured_empty
  | ok t => exact parseDevices_configured h

end Tables

end Config

/-! ## The configuration record -/

/-- The settings the bridge reads after start-up. The device table comes from
one of the parsers. -/
structure Config where
  mqttBaseTopic : String := "x10"
  mqttDiscoveryPrefix : String := "homeassistant"
  configFile : Option String := none
  configReloadIntervalMicros : Nat := 5000000
  useFriendlyNames : Bool := true
  devices : Config.DeviceTable
  configured : Config.TableConfigured devices
  optimisticUpdates : Bool := true
  discoveryCleanup : Bool := false
  discoveryRegistryPath : String := "/config/discovery_registry.json"
  enableMaintenanceButtons : Bool := false
  x10Housecodes : Option (List String) := none
  tlsEnabled : Bool := false
  tlsCaFile : Option String := none
  tlsCertFile : Option String := none
  tlsKeyFile : Option String := none

/-- What a configuration says of an address. -/
def Config.deviceAt (config : Config) (a : String) : DeviceConfig :=
  (config.devices.get? a).getD (.unlisted a)

/-- The default settings for the devices of an `X10_DEVICES` text. -/
def Config.plain (raw : String) : Config :=
  { devices := Config.devicesOf raw, configured := Config.devicesOf_configured raw }

/-- The default settings with a config file, for the same devices. -/
def Config.watched (raw : String) : Config :=
  { Config.plain raw with configFile := some "/config/bridge.json" }

end MochadBridge
