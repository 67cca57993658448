import Mathlib.Data.Finset.Insert
import MochadBridge.Lib.Dict
import MochadBridge.Lib.Json

/-!
# Data models

The enumerations, device configuration, device state, events and bridge
actions that the other layers exchange. A `frozenset` is a `Finset`, a `dict`
of devices a `Py.Dict`, and a published payload a `Py.Json`.

A dataclass with a `__post_init__` is built through it: `DeviceConfig.postInit`
fills in the commands and flags that the entity type implies.
-/

namespace MochadBridge

open Py

/-! ## Errors -/

/-- The exceptions the modelled code raises. `TopicError` and `DiscoveryError`
are `ValueError`s of their modules. -/
inductive PyError where
  | connectionError (message : String)
  | osError (message : String)
  | valueError (message : String)
  | topicError (message : String)
  | discoveryError (message : String)
  | configError (message : String)
  | registryError (message : String)
  | unicodeDecodeError
  | recursionError
  deriving DecidableEq, Repr

/-- `except (ConnectionError, OSError)`. -/
def PyError.isTransport : PyError → Bool
  | .connectionError _ | .osError _ => true
  | _ => false

/-- `str(exc)`. -/
def PyError.text : PyError → String
  | .connectionError message | .osError message | .valueError message | .topicError message
  | .discoveryError message | .configError message | .registryError message => message
  | .unicodeDecodeError => "'utf-8' codec can't decode byte"
  | .recursionError => "maximum recursion depth exceeded"

/-- From `x >>= f = .ok r`, the value of `x`. -/
theorem bind_ok {ε α β : Type} {x : Except ε α} {f : α → Except ε β} {r : β}
    (h : x >>= f = .ok r) : ∃ a, x = .ok a ∧ f a = .ok r := by
  cases x with
  | error e => cases h
  | ok a => exact ⟨a, rfl, h⟩

/-- From `x.map f = .ok b`, the value of `x`. -/
theorem map_ok {ε α β : Type} {x : Except ε α} {f : α → β} {b : β} (h : x.map f = .ok b) :
    ∃ a, x = .ok a ∧ f a = b := by
  cases x with
  | error e => cases h
  | ok a => exact ⟨a, rfl, Except.ok.inj h⟩

/-- Every value of a list computed by `mapM` comes from an element. -/
theorem exists_of_mapM_ok {ε α β : Type} {f : α → Except ε β} {xs : List α} {ys : List β}
    (h : xs.mapM f = .ok ys) {y : β} (hy : y ∈ ys) : ∃ x ∈ xs, f x = .ok y := by
  induction xs generalizing ys with
  | nil =>
    cases h
    exact absurd hy List.not_mem_nil
  | cons x xs ih =>
    rw [List.mapM_cons] at h
    obtain ⟨y', hy', h⟩ := bind_ok h
    obtain ⟨ys', hys', h⟩ := bind_ok h
    cases h
    rcases List.mem_cons.mp hy with rfl | hy
    · exact ⟨x, List.mem_cons_self, hy'⟩
    · obtain ⟨x', hx', hf⟩ := ih hys' hy
      exact ⟨x', List.mem_cons_of_mem _ hx', hf⟩

/-- Every element of a list has its value. -/
theorem mem_of_mapM_ok {ε α β : Type} {f : α → Except ε β} {xs : List α} {ys : List β}
    (h : xs.mapM f = .ok ys) {x : α} (hx : x ∈ xs) : ∃ y ∈ ys, f x = .ok y := by
  induction xs generalizing ys with
  | nil => exact absurd hx List.not_mem_nil
  | cons x' xs ih =>
    rw [List.mapM_cons] at h
    obtain ⟨y', hy', h⟩ := bind_ok h
    obtain ⟨ys', hys', h⟩ := bind_ok h
    cases h
    rcases List.mem_cons.mp hx with rfl | hx
    · exact ⟨y', List.mem_cons_self, hy'⟩
    · obtain ⟨y, hy, hf⟩ := ih hys' hx
      exact ⟨y, List.mem_cons_of_mem _ hy, hf⟩

/-- `mapM` returns exactly if every element has a value. -/
theorem mapM_ok_iff {ε α β : Type} {f : α → Except ε β} {xs : List α} :
    (∃ ys, xs.mapM f = .ok ys) ↔ ∀ x ∈ xs, ∃ y, f x = .ok y := by
  constructor
  · rintro ⟨ys, h⟩ x hx
    obtain ⟨y, _, hy⟩ := mem_of_mapM_ok h hx
    exact ⟨y, hy⟩
  · intro h
    induction xs with
    | nil => exact ⟨[], rfl⟩
    | cons x xs ih =>
      obtain ⟨y, hy⟩ := h x List.mem_cons_self
      obtain ⟨ys, hys⟩ := ih fun x' hx' => h x' (List.mem_cons_of_mem _ hx')
      exact ⟨y :: ys, by rw [List.mapM_cons, hy, hys]; rfl⟩

/-! ## Clock -/

/-- A clock reading, in microseconds since the epoch. -/
abbrev Timestamp := Nat

/-- A number with at least `width` digits. -/
def padded (width n : Nat) : String :=
  let digits := Nat.toDigits 10 n
  String.ofList (List.replicate (width - digits.length) '0' ++ digits)

/-- `datetime.isoformat()` of a reading in UTC, by the civil calendar. -/
def isoformat (t : Timestamp) : String :=
  let z := t / 86400000000 + 719468
  let micros := t % 1000000
  let secs := t / 1000000 % 86400
  let doe := z % 146097
  let yoe := (doe - doe / 1460 + doe / 36524 - doe / 146096) / 365
  let doy := doe - (365 * yoe + yoe / 4 - yoe / 100)
  let mp := (5 * doy + 2) / 153
  let day := doy - (153 * mp + 2) / 5 + 1
  let month := if mp < 10 then mp + 3 else mp - 9
  let year := yoe + z / 146097 * 400 + if month ≤ 2 then 1 else 0
  let fraction := if micros = 0 then "" else "." ++ padded 6 micros
  padded 4 year ++ "-" ++ padded 2 month ++ "-" ++ padded 2 day ++ "T" ++
    padded 2 (secs / 3600) ++ ":" ++ padded 2 (secs / 60 % 60) ++ ":" ++ padded 2 (secs % 60) ++
    fraction ++ "+00:00"

example : isoformat 1752161311000000 = "2025-07-10T15:28:31+00:00" := by decide

/-! ## Enumerations -/

/-- Direction of an X10 event. -/
inductive Direction where
  | rx | tx
  deriving DecidableEq, Repr

def Direction.name : Direction → String
  | .rx => "RX"
  | .tx => "TX"

/-- Transport used for an X10 event. -/
inductive Transport where
  | rf | pl | rfsec | rfcam | unknown
  deriving DecidableEq, Repr

def Transport.name : Transport → String
  | .rf => "RF"
  | .pl => "PL"
  | .rfsec => "RFSEC"
  | .rfcam => "RFCAM"
  | .unknown => "UNKNOWN"

/-- Supported X10 commands. -/
inductive Command where
  | on | off | dim | bright
  | allLightsOn | allLightsOff | allUnitsOff
  | statusRequest | statusOn | statusOff
  | unknown
  deriving DecidableEq, Repr

def Command.name : Command → String
  | .on => "ON"
  | .off => "OFF"
  | .dim => "DIM"
  | .bright => "BRIGHT"
  | .allLightsOn => "ALL_LIGHTS_ON"
  | .allLightsOff => "ALL_LIGHTS_OFF"
  | .allUnitsOff => "ALL_UNITS_OFF"
  | .statusRequest => "STATUS_REQUEST"
  | .statusOn => "STATUS_ON"
  | .statusOff => "STATUS_OFF"
  | .unknown => "UNKNOWN"

/-- Home Assistant entity type. -/
inductive DeviceType where
  | switch | light | chime
  deriving DecidableEq, Repr

def DeviceType.name : DeviceType → String
  | .switch => "SWITCH"
  | .light => "LIGHT"
  | .chime => "CHIME"

/-- Capabilities supported by an X10 device. -/
inductive DeviceCapability where
  | action | onOff | dim | status | allLights | allUnits
  deriving DecidableEq, Repr

/-- How a device behaves after receiving a command. -/
inductive OperationMode where
  | continuous | momentary | action | sensor | alarmSequence
  deriving DecidableEq, Repr

/-- Secondary channel semantics for multi-address X10 devices. -/
inductive ChannelKind where
  | motion | duskDawn | sensor | floodlight | internalOutlet | groupedAddress | securityRf
  deriving DecidableEq, Repr

/-- RF identity family. -/
inductive RfIdentity where
  | standard | security
  deriving DecidableEq, Repr

/-- Supported bridge control commands. -/
inductive BridgeCommand where
  | status | sync | rediscover | pruneDiscovery | resetDiscovery | ping
  deriving DecidableEq, Repr

def BridgeCommand.name : BridgeCommand → String
  | .status => "STATUS"
  | .sync => "SYNC"
  | .rediscover => "REDISCOVER"
  | .pruneDiscovery => "PRUNE_DISCOVERY"
  | .resetDiscovery => "RESET_DISCOVERY"
  | .ping => "PING"

/-! ## Device configuration -/

/-- Additional X10 address behavior derived from one configured address. -/
structure SecondaryChannel where
  kind : ChannelKind
  offset : Nat := 0
  description : String := ""
  enabledByDefault : Bool := true
  deriving DecidableEq, Repr

/-- Intentional repeated or grouped command pattern. -/
structure CommandSequence where
  name : String
  commands : List Command
  repeatable : Bool := true
  description : String := ""
  deriving DecidableEq, Repr

/-- The configuration of one device, before `__post_init__`. -/
structure DeviceConfig where
  address : String
  name : String
  entityType : DeviceType := .switch
  profile : Option String := none
  capabilities : Finset DeviceCapability := {.onOff}
  commandRepeats : Nat := 1
  commandRepeatDelayMs : Nat := 150
  supportedCommands : Finset Command := ∅
  stateful : Bool := true
  repeatableActions : Finset Command := ∅
  allLightsOnResponse : Bool := false
  allLightsOffResponse : Bool := false
  allUnitsOffResponse : Bool := true
  learnedAddressing : Bool := false
  secondaryChannels : List SecondaryChannel := []
  exclusiveGroups : Finset String := ∅
  operationMode : OperationMode := .continuous
  commandSequences : List CommandSequence := []
  rfIdentity : RfIdentity := .standard
  deriving DecidableEq

namespace DeviceConfig

/-- `DeviceConfig.__post_init__`: a device without explicit commands takes the
commands, capabilities and house responses of its entity type. -/
def postInit (d : DeviceConfig) : DeviceConfig :=
  if d.entityType = .chime ∧ d.supportedCommands = ∅ then
    { d with
      capabilities := {.action}
      supportedCommands := {.on}
      stateful := false
      repeatableActions := {.on}
      operationMode := .action }
  else if d.supportedCommands ≠ ∅ then d
  else if d.entityType = .light then
    { d with
      supportedCommands := {.on, .off, .dim, .bright}
      capabilities := {.onOff, .dim}
      allLightsOnResponse := true
      allLightsOffResponse := true }
  else
    { d with
      supportedCommands := {.on, .off}
      capabilities := {.onOff}
      allLightsOnResponse := false
      allLightsOffResponse := false }

/-- `DeviceConfig(address=address, name=address)`: the configuration of an
address that no table lists. -/
def unlisted (address : String) : DeviceConfig := postInit { address := address, name := address }

@[simp] theorem postInit_address (d : DeviceConfig) : d.postInit.address = d.address := by
  unfold postInit; split_ifs <;> rfl

@[simp] theorem postInit_name (d : DeviceConfig) : d.postInit.name = d.name := by
  unfold postInit; split_ifs <;> rfl

@[simp] theorem postInit_entityType (d : DeviceConfig) : d.postInit.entityType = d.entityType := by
  unfold postInit; split_ifs <;> rfl

@[simp] theorem postInit_commandRepeats (d : DeviceConfig) :
    d.postInit.commandRepeats = d.commandRepeats := by
  unfold postInit; split_ifs <;> rfl

@[simp] theorem postInit_commandRepeatDelayMs (d : DeviceConfig) :
    d.postInit.commandRepeatDelayMs = d.commandRepeatDelayMs := by
  unfold postInit; split_ifs <;> rfl

@[simp] theorem postInit_profile (d : DeviceConfig) : d.postInit.profile = d.profile := by
  unfold postInit; split_ifs <;> rfl

@[simp] theorem unlisted_address (a : String) : (unlisted a).address = a := postInit_address _

@[simp] theorem unlisted_name (a : String) : (unlisted a).name = a := postInit_name _

@[simp] theorem unlisted_commandRepeats (a : String) : (unlisted a).commandRepeats = 1 :=
  postInit_commandRepeats _

theorem unlisted_stateful (a : String) : (unlisted a).stateful = true := rfl

theorem unlisted_entityType (a : String) : (unlisted a).entityType = .switch := rfl

end DeviceConfig

/-! ## Runtime state and events -/

/-- Current known state of a device. -/
structure DeviceState where
  address : String
  currentState : Option Command := none
  previousState : Option Command := none
  lastSeen : Option Timestamp := none
  lastChanged : Option Timestamp := none
  pendingCommand : Option Command := none
  discovered : Bool := false
  available : Bool := false
  deriving DecidableEq

/-- Event affecting a specific device. -/
structure DeviceEvent where
  timestamp : Timestamp
  direction : Direction
  transport : Transport
  command : Command
  address : String
  deriving DecidableEq

/-- Event affecting an entire house code. -/
structure HouseEvent where
  timestamp : Timestamp
  direction : Direction
  transport : Transport
  command : Command
  house : String
  deriving DecidableEq

/-- A line the parser does not know. -/
structure UnknownEvent where
  timestamp : Timestamp
  raw : String
  deriving DecidableEq

/-- Result of parsing an `st` response. -/
structure StatusSnapshot where
  devices : Dict String Command := .empty
  completed : Bool := false

/-- What one parsed line hands to the state manager. -/
inductive Event where
  | device (event : DeviceEvent)
  | house (event : HouseEvent)
  | snapshot (snapshot : StatusSnapshot)
  | unknown (event : UnknownEvent)

/-- Latest diagnostic details reported over the mochad TCP connection. The
fields take whatever JSON value the daemon sends. -/
structure MochadDiagnostics where
  daemon : Json := .null
  version : Json := .null
  upstreamBase : Json := .null
  diagnostics : Json := .null
  json : Json := .null
  singleLine : Json := .null
  rawData : Json := .null
  uptimeSeconds : Json := .null
  usbConnected : Json := .null
  controller : Json := .null
  endpointsReady : Json := .null
  transfersReady : Json := .null
  lastUpdated : Option Timestamp := none
  deriving DecidableEq

/-- Runtime statistics. -/
structure BridgeStatistics where
  eventsReceived : Nat := 0
  commandsSent : Nat := 0
  duplicates : Nat := 0
  stateChanges : Nat := 0
  mqttConnections : Nat := 0
  mqttDisconnects : Nat := 0
  mqttReconnects : Nat := 0
  mochadReconnects : Nat := 0
  discoveryMessages : Nat := 0
  statusSyncs : Nat := 0
  unknownPackets : Nat := 0
  deriving DecidableEq

/-- Home Assistant discovery message ready for MQTT transport. -/
structure DiscoveryMessage where
  topic : String
  payload : Json
  retain : Bool := true
  deriving DecidableEq

/-! ## Bridge actions -/

/-- The side effects the state manager asks the bridge for. -/
inductive BridgeAction where
  | publishState (address : String) (state : Command) (retain : Bool)
  | publishEvent (event : DeviceEvent)
  | publishCommandEvent (address : String) (payload : Json) (retain : Bool)
  | publishAttributes (address : String) (payload : Json) (retain : Bool)
  | publishDiscovery (address : String)
  | publishAvailability (online : Bool)
  | publishStatus (status : String) (mqttConnected mochadConnected retain : Bool)
  | publishBridgeResponse (command : Option BridgeCommand) (success : Bool) (message : String)
      (payload : List (String × Json)) (retain : Bool)
  | sendMochadCommand (command : String)
  | sendDeviceCommand (address : String) (command : Command)
  | requestStatus
  | logUnknownEvent (event : UnknownEvent)
  deriving DecidableEq

/-- The device an action is about. -/
def BridgeAction.address : BridgeAction → Option String
  | .publishState a _ _ | .publishCommandEvent a _ _ | .publishAttributes a _ _
  | .publishDiscovery a | .sendDeviceCommand a _ => some a
  | .publishEvent e => some e.address
  | _ => none

end MochadBridge
