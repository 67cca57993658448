import MochadBridge.Models

/-!
# Device profiles

The capability registry: one `DeviceProfile` for each X10 product or behavior
class, and `applyProfile`, which replaces the behavior of a configured device
by that of its profile.

Every profile lists its commands (`deviceProfiles_commands`), so `__post_init__`
changes nothing of what a profile says; a device keeps its address, its name and
its repeats.
-/

namespace MochadBridge

open Py

/-- Stable capability description for an X10 product or behavior class. -/
structure DeviceProfile where
  profileId : String
  model : String
  description : String
  entityType : DeviceType
  capabilities : Finset DeviceCapability
  supportedCommands : Finset Command
  stateful : Bool
  repeatableActions : Finset Command := ∅
  allLightsOnResponse : Bool := false
  allLightsOffResponse : Bool := false
  allUnitsOffResponse : Bool := true
  learnedAddressing : Bool := false
  secondaryChannels : List SecondaryChannel := []
  exclusiveGroups : Finset String := ∅
  operationMode : OperationMode := .continuous
  commandSequences : List CommandSequence := []
  rfIdentity : RfIdentity := .standard

def onOff : Finset Command := {.on, .off}
def onOnly : Finset Command := {.on}
def lightCommands : Finset Command := {.on, .off, .dim, .bright}

/-- `DEVICE_PROFILES`. -/
def deviceProfiles : List DeviceProfile :=
  [{ profileId := "generic_switch"
     model := "Generic X10 switch or appliance module"
     description := "Stateful ON/OFF device with no All Lights response."
     entityType := .switch, capabilities := {.onOff}
     supportedCommands := onOff, stateful := true },
   { profileId := "generic_light"
     model := "Generic X10 light module"
     description := "Stateful dimmable light responding to All Lights commands."
     entityType := .light, capabilities := {.onOff, .dim}
     supportedCommands := lightCommands, stateful := true
     allLightsOnResponse := true, allLightsOffResponse := true },
   { profileId := "lm15a_socket_rocket"
     model := "LM15A Socket Rocket"
     description := "Learned-address lamp socket; ON/OFF only, no dimming."
     entityType := .light, capabilities := {.onOff}
     supportedCommands := onOff, stateful := true
     allLightsOnResponse := true, allLightsOffResponse := true, allUnitsOffResponse := true
     learnedAddressing := true },
   { profileId := "um506_momentary"
     model := "UM506 Universal Module, momentary mode"
     description := "Momentary contact closure; ON is an action, not state."
     entityType := .switch, capabilities := {.action}
     supportedCommands := onOnly, stateful := false
     repeatableActions := onOnly, allUnitsOffResponse := true
     operationMode := .momentary },
   { profileId := "um506_continuous"
     model := "UM506 Universal Module, continuous mode"
     description := "Continuous contact closure controlled by ON/OFF."
     entityType := .switch, capabilities := {.onOff}
     supportedCommands := onOff, stateful := true
     allLightsOnResponse := false, allUnitsOffResponse := true
     operationMode := .continuous },
   { profileId := "sc546a_chime"
     model := "SC546A Remote Chime"
     description := "Action-only chime; ON triggers sound and no state is retained."
     entityType := .chime, capabilities := {.action}
     supportedCommands := onOnly, stateful := false
     repeatableActions := onOnly, allUnitsOffResponse := false
     operationMode := .action },
   { profileId := "ms13a_motion"
     model := "MS13A EagleEye Motion Sensor"
     description := "Standard RF motion address plus base+1 dusk/dawn channel."
     entityType := .switch, capabilities := {.onOff}
     supportedCommands := onOff, stateful := true
     secondaryChannels :=
       [{ kind := .motion, description := "motion on/off" },
        { kind := .duskDawn, offset := 1, description := "dusk/dawn on/off" }]
     operationMode := .sensor },
   { profileId := "ms14a_motion"
     model := "MS14A Motion Sensor"
     description := "Standard RF motion address plus base+1 dusk/dawn channel."
     entityType := .switch, capabilities := {.onOff}
     supportedCommands := onOff, stateful := true
     secondaryChannels :=
       [{ kind := .motion, description := "motion on/off" },
        { kind := .duskDawn, offset := 1, description := "dusk/dawn on/off" }]
     operationMode := .sensor },
   { profileId := "ms16a_activeeye"
     model := "MS16A ActiveEye Motion Sensor"
     description := "Standard RF motion address with optional base+1 dusk/dawn channel."
     entityType := .switch, capabilities := {.onOff}
     supportedCommands := onOff, stateful := true
     secondaryChannels :=
       [{ kind := .motion, description := "motion on/off" },
        { kind := .duskDawn, offset := 1
          description := "dusk/dawn on/off, controlled by sensor option"
          enabledByDefault := false }]
     operationMode := .sensor },
   { profileId := "pr511_motion_monitor"
     model := "PR511 Motion Monitor"
     description := "Floodlight with sensor channels at +1..+4 and dusk channels at +5..+8."
     entityType := .light, capabilities := {.onOff}
     supportedCommands := onOff, stateful := true
     secondaryChannels :=
       [{ kind := .floodlight, description := "local floodlight" },
        { kind := .sensor, offset := 1, description := "sensor 1" },
        { kind := .sensor, offset := 2, description := "sensor 2" },
        { kind := .sensor, offset := 3, description := "sensor 3" },
        { kind := .sensor, offset := 4, description := "sensor 4" },
        { kind := .duskDawn, offset := 5, description := "dusk 1" },
        { kind := .duskDawn, offset := 6, description := "dusk 2" },
        { kind := .duskDawn, offset := 7, description := "dusk 3" },
        { kind := .duskDawn, offset := 8, description := "dusk 4" }] },
   { profileId := "powerflash_mode_1"
     model := "PowerFlash PF284/PSC01 mode 1"
     description := "Compound alarm mode using same-address and same-house responses."
     entityType := .switch, capabilities := {.onOff, .allLights}
     supportedCommands := onOff, stateful := true
     commandSequences :=
       [{ name := "alarm_on", commands := [.allLightsOn, .on] },
        { name := "alarm_reset", commands := [.off] }]
     operationMode := .alarmSequence },
   { profileId := "powerflash_mode_2"
     model := "PowerFlash PF284/PSC01 mode 2"
     description := "Compound flashing alarm mode; reset leaves lights on."
     entityType := .switch, capabilities := {.allLights}
     supportedCommands := onOff, stateful := false
     repeatableActions := onOff
     commandSequences := [{ name := "flash_alarm", commands := [.allLightsOn, .allLightsOff] }]
     operationMode := .alarmSequence },
   { profileId := "powerflash_mode_3"
     model := "PowerFlash PF284/PSC01 mode 3"
     description := "Same-address ON/OFF mode."
     entityType := .switch, capabilities := {.onOff}
     supportedCommands := onOff, stateful := true },
   { profileId := "powerhorn"
     model := "PowerHorn SH10A/PH508"
     description := "Siren triggered by repeated ON/OFF or All Lights/All Units sequences."
     entityType := .chime, capabilities := {.action, .allLights}
     supportedCommands := {.on, .off, .dim, .bright, .allLightsOn, .allUnitsOff}
     stateful := false
     repeatableActions := {.on, .off}
     commandSequences :=
       [{ name := "unit_alarm", commands := [.on, .off, .on] },
        { name := "house_alarm", commands := [.allLightsOn, .allUnitsOff] },
        { name := "ding_dong", commands := [.dim, .bright] }]
     allUnitsOffResponse := false
     operationMode := .alarmSequence },
   { profileId := "rr501_unit_1"
     model := "RR501 Transceiver internal outlet, Unit 1"
     description := "Selectable internal outlet responds to unit 1 ON/OFF."
     entityType := .switch, capabilities := {.onOff}
     supportedCommands := onOff, stateful := true
     secondaryChannels := [{ kind := .internalOutlet, description := "selected unit 1" }]
     exclusiveGroups := {"rr501_internal_outlet"} },
   { profileId := "rr501_unit_9"
     model := "RR501 Transceiver internal outlet, Unit 9"
     description := "Selectable internal outlet responds to unit 9 ON/OFF."
     entityType := .switch, capabilities := {.onOff}
     supportedCommands := onOff, stateful := true
     secondaryChannels :=
       [{ kind := .internalOutlet, offset := 8, description := "selected unit 9" }]
     exclusiveGroups := {"rr501_internal_outlet"} },
   { profileId := "grouped_address_function"
     model := "Grouped X10 address/function sequence"
     description := "Multiple accumulated addresses followed by one function."
     entityType := .switch, capabilities := {.onOff}
     supportedCommands := onOff, stateful := true
     secondaryChannels :=
       [{ kind := .groupedAddress
          description := "function applies to accumulated address set" }] }]

/-- `profile_ids()`. -/
def profileIds : List String := deviceProfiles.map (·.profileId)

/-- `get_profile`. -/
def getProfile (profileId : String) : Except PyError DeviceProfile :=
  match deviceProfiles.find? (·.profileId == lower (strip profileId)) with
  | some profile => .ok profile
  | none => .error (.valueError ("Unknown X10 device profile '" ++ profileId ++ "'."))

/-- The fields `apply_profile` replaces. `dataclasses.replace` builds a new
object, so `__post_init__` runs again. -/
def DeviceProfile.apply (profile : DeviceProfile) (device : DeviceConfig) : DeviceConfig :=
  DeviceConfig.postInit { device with
    profile := some profile.profileId
    entityType := profile.entityType
    capabilities := profile.capabilities
    supportedCommands := profile.supportedCommands
    stateful := profile.stateful
    repeatableActions := profile.repeatableActions
    allLightsOnResponse := profile.allLightsOnResponse
    allLightsOffResponse := profile.allLightsOffResponse
    allUnitsOffResponse := profile.allUnitsOffResponse
    learnedAddressing := profile.learnedAddressing
    secondaryChannels := profile.secondaryChannels
    exclusiveGroups := profile.exclusiveGroups
    operationMode := profile.operationMode
    commandSequences := profile.commandSequences
    rfIdentity := profile.rfIdentity }

/-- `apply_profile`: the device with registry capabilities applied. -/
def applyProfile (device : DeviceConfig) (profileId : String) : Except PyError DeviceConfig := do
  let profile ← getProfile profileId
  return profile.apply device

theorem getProfile_mem {id : String} {profile : DeviceProfile} (h : getProfile id = .ok profile) :
    profile ∈ deviceProfiles := by
  unfold getProfile at h
  split at h
  · next p hp => cases h; exact List.mem_of_find?_eq_some hp
  · cases h

theorem deviceProfiles_nodup : profileIds.Nodup := by decide +kernel

theorem deviceProfiles_normal : ∀ p ∈ deviceProfiles, lower (strip p.profileId) = p.profileId := by
  decide +kernel

theorem deviceProfiles_commands : ∀ p ∈ deviceProfiles, p.supportedCommands ≠ ∅ := by
  decide

@[simp] theorem apply_address (p : DeviceProfile) (d : DeviceConfig) :
    (p.apply d).address = d.address := by
  simp [DeviceProfile.apply]

@[simp] theorem apply_name (p : DeviceProfile) (d : DeviceConfig) : (p.apply d).name = d.name := by
  simp [DeviceProfile.apply]

@[simp] theorem apply_commandRepeats (p : DeviceProfile) (d : DeviceConfig) :
    (p.apply d).commandRepeats = d.commandRepeats := by
  simp [DeviceProfile.apply]

@[simp] theorem apply_commandRepeatDelayMs (p : DeviceProfile) (d : DeviceConfig) :
    (p.apply d).commandRepeatDelayMs = d.commandRepeatDelayMs := by
  simp [DeviceProfile.apply]

@[simp] theorem apply_profile (p : DeviceProfile) (d : DeviceConfig) :
    (p.apply d).profile = some p.profileId := by
  simp [DeviceProfile.apply]

@[simp] theorem apply_entityType (p : DeviceProfile) (d : DeviceConfig) :
    (p.apply d).entityType = p.entityType := by
  simp [DeviceProfile.apply]

/-- The flags of a profile stand in the device: its commands are not empty, so
`__post_init__` leaves them. -/
theorem apply_stateful {p : DeviceProfile} (hp : p ∈ deviceProfiles) (d : DeviceConfig) :
    (p.apply d).stateful = p.stateful := by
  have hc := deviceProfiles_commands p hp
  simp only [DeviceProfile.apply, DeviceConfig.postInit, hc, and_false, if_false, ne_eq,
    not_false_eq_true, if_true]

/-- What a profile makes of a device depends on four of its fields. -/
theorem apply_congr (p : DeviceProfile) {d d' : DeviceConfig} (ha : d.address = d'.address)
    (hn : d.name = d'.name) (hr : d.commandRepeats = d'.commandRepeats)
    (hm : d.commandRepeatDelayMs = d'.commandRepeatDelayMs) : p.apply d = p.apply d' := by
  simp only [DeviceProfile.apply, ha, hn, hr, hm]

end MochadBridge
