import MochadBridge.Models

/-!
# The state manager

`StateManager` owns all mutable device state. Each method takes the manager and
the clock reading it would make, and returns the new manager with the actions
for the bridge to execute. A device is found under its normalized address
(`normalize`), and `store` writes a changed `DeviceState` back under the address
it carries.
-/

namespace MochadBridge

open Py

/-- `address.strip().upper()`, the key of an address in every table. -/
def normalize (address : String) : String := upper (strip address)

@[simp] theorem normalize_normalize (a : String) : normalize (normalize a) = normalize a :=
  upper_strip_idem a

def stateCommands : List Command := [.on, .off, .dim, .bright, .statusOn, .statusOff]
def onCommands : List Command := [.on, .bright, .statusOn]
def offCommands : List Command := [.off, .statusOff]

/-- The house-wide commands that change device states. -/
def houseCommands : List Command := [.allUnitsOff, .allLightsOff, .allLightsOn]

/-- All mutable bridge state. -/
structure StateManager where
  devices : Dict String DeviceState := .empty
  deviceConfigs : Dict String DeviceConfig := .empty
  statistics : BridgeStatistics := {}
  mqttConnected : Bool := false
  mqttHasConnected : Bool := false
  mochadConnected : Bool := false
  mqttGeneration : Nat := 0
  optimisticUpdates : Bool := true
  allowedHousecodes : Option (List String) := none

namespace StateManager

/-! ## Tables and filters -/

/-- `_normalize_housecodes`. -/
def normalizeHousecodes (housecodes : Option (List String)) : Option (List String) :=
  match housecodes with
  | none => none
  | some codes =>
    match (codes.filter fun code => strip code ≠ "").map normalize with
    | [] => none
    | normalized => some normalized

/-- `_house_allowed`. -/
def houseAllowed (sm : StateManager) (house : String) : Bool :=
  match sm.allowedHousecodes with
  | none => true
  | some codes => codes.contains (normalize house)

/-- `_address_allowed`. -/
def addressAllowed (sm : StateManager) (address : String) : Bool :=
  match (normalize address).toList with
  | [] => false
  | c :: _ => sm.houseAllowed (String.singleton c)

/-- The state under a normalized address, a fresh one if the device is new. -/
def stateOf (sm : StateManager) (address : String) : DeviceState :=
  (sm.devices.get? (normalize address)).getD { address := normalize address }

/-- Write a device state back. -/
def store (sm : StateManager) (state : DeviceState) : StateManager :=
  { sm with devices := sm.devices.insert state.address state }

/-- `_ensure_device`: the manager that knows the device, and its state. -/
def ensureDevice (sm : StateManager) (address : String) : StateManager × DeviceState :=
  match sm.devices.get? (normalize address) with
  | some state => (sm, state)
  | none =>
    let state := { address := normalize address }
    (sm.store state, state)

/-- `_device_config`. -/
def deviceConfig (sm : StateManager) (address : String) : DeviceConfig :=
  (sm.deviceConfigs.get? (normalize address)).getD (.unlisted (normalize address))

/-- One device of `StateManager.__init__`. -/
def addDevice (sm : StateManager) (device : DeviceConfig) : StateManager :=
  if sm.addressAllowed device.address then
    let sm := { sm with
      deviceConfigs := sm.deviceConfigs.insert (normalize device.address) device }
    (sm.ensureDevice device.address).1
  else sm

/-- `StateManager.__init__`. -/
def init (devices : List DeviceConfig) (optimisticUpdates : Bool)
    (allowedHousecodes : Option (List String)) : StateManager :=
  devices.foldl addDevice
    { optimisticUpdates := optimisticUpdates
      allowedHousecodes := normalizeHousecodes allowedHousecodes }

/-! ## Shared steps -/

/-- `_authoritative_state`. -/
def authoritativeState (command : Command) : Command :=
  if command ∈ onCommands then .on else if command ∈ offCommands then .off else command

/-- `_clear_confirmed_pending`. -/
def clearConfirmedPending (state : DeviceState) (command : Command) : DeviceState :=
  if state.pendingCommand = some command then { state with pendingCommand := none } else state

/-- `_set_device_state`: the device takes the authoritative state of the
command; a duplicate is counted and publishes nothing. -/
def setDeviceState (sm : StateManager) (state : DeviceState) (command : Command)
    (now : Timestamp) (retain clearPending : Bool) : StateManager × List BridgeAction :=
  let command := authoritativeState command
  if state.currentState = some command then
    let sm := { sm with
      statistics := { sm.statistics with duplicates := sm.statistics.duplicates + 1 } }
    let state := { state with lastSeen := some now }
    let state := if clearPending then clearConfirmedPending state command else state
    (sm.store state, [])
  else
    let state := { state with
      previousState := state.currentState
      currentState := some command
      lastSeen := some now
      lastChanged := some now }
    let state := if clearPending then clearConfirmedPending state command else state
    let sm := { sm with
      statistics := { sm.statistics with stateChanges := sm.statistics.stateChanges + 1 } }
    (sm.store state, [.publishState state.address command retain])

/-- `_discovery_actions`: the device with its flag set, and the action if it was
not discovered during this connection. -/
def discoveryActions (sm : StateManager) (state : DeviceState) :
    StateManager × DeviceState × List BridgeAction :=
  if !sm.mqttConnected ∨ state.discovered then (sm, state, [])
  else
    let state := { state with discovered := true }
    let sm := { sm with
      statistics :=
        { sm.statistics with discoveryMessages := sm.statistics.discoveryMessages + 1 } }
    (sm.store state, state, [.publishDiscovery state.address])

/-- `available`. -/
def available (sm : StateManager) : Bool := sm.mqttConnected && sm.mochadConnected

/-- `_bridge_status_actions`. -/
def bridgeStatusActions (sm : StateManager) : List BridgeAction :=
  let online := sm.available
  [.publishAvailability online,
   .publishStatus (if online then "online" else "offline") sm.mqttConnected sm.mochadConnected
    true]

/-- `_devices_for_house`. -/
def devicesForHouse (sm : StateManager) (house : String) : List DeviceState :=
  (sm.devices.entries.filter fun e => startsWith e.1 (normalize house)).map Prod.snd

/-- `_device_responds_to_house_command`. -/
def deviceRespondsToHouseCommand (device : DeviceConfig) (command : Command) : Bool :=
  match command with
  | .allUnitsOff => device.allUnitsOffResponse
  | .allLightsOff => device.allLightsOffResponse
  | .allLightsOn => device.allLightsOnResponse
  | _ => false

/-! ## Inbound events -/

/-- `_apply_device_event`. -/
def applyDeviceEvent (sm : StateManager) (event : DeviceEvent) :
    StateManager × List BridgeAction :=
  if !sm.addressAllowed event.address then (sm, [])
  else
    let sm := { sm with
      statistics := { sm.statistics with eventsReceived := sm.statistics.eventsReceived + 1 } }
    let (sm, state) := sm.ensureDevice event.address
    let device := sm.deviceConfig state.address
    let state := { state with available := true, lastSeen := some event.timestamp }
    let sm := sm.store state
    let (sm, state, discovery) := sm.discoveryActions state
    let actions := discovery ++ [.publishEvent event]
    if !device.stateful ∨ event.command ∉ stateCommands then (sm, actions)
    else
      let (sm, changes) := sm.setDeviceState state event.command event.timestamp true true
      (sm, actions ++ changes)

/-- The command a house-wide command stands for. -/
def houseState (command : Command) : Command :=
  if command = .allUnitsOff ∨ command = .allLightsOff then .off else .on

/-- The loop body of `_apply_house_event`. -/
def applyHouseCommand (command : Command) (timestamp : Timestamp)
    (acc : StateManager × List BridgeAction) (state : DeviceState) :
    StateManager × List BridgeAction :=
  let (sm, actions) := acc
  let device := sm.deviceConfig state.address
  if !device.stateful then (sm, actions)
  else if !deviceRespondsToHouseCommand device command then (sm, actions)
  else
    let state := { state with available := true, lastSeen := some timestamp }
    let (sm, changes) := sm.setDeviceState state (houseState command) timestamp true true
    (sm, actions ++ changes)

/-- `_apply_house_event`. -/
def applyHouseEvent (sm : StateManager) (event : HouseEvent) : StateManager × List BridgeAction :=
  if !sm.houseAllowed event.house then (sm, [])
  else
    let sm := { sm with
      statistics := { sm.statistics with eventsReceived := sm.statistics.eventsReceived + 1 } }
    if event.command ∉ houseCommands then (sm, [])
    else
      (sm.devicesForHouse event.house).foldl
        (applyHouseCommand event.command event.timestamp) (sm, [])

/-- The loop body of `_apply_status_snapshot`. -/
def applySnapshotEntry (now : Timestamp) (acc : StateManager × List BridgeAction)
    (entry : String × Command) : StateManager × List BridgeAction :=
  let (sm, actions) := acc
  if !sm.addressAllowed entry.1 then (sm, actions)
  else
    let (sm, state) := sm.ensureDevice entry.1
    let device := sm.deviceConfig state.address
    if !device.stateful then (sm, actions)
    else
      let state := { state with available := true, lastSeen := some now }
      let (sm, changes) := sm.setDeviceState state entry.2 now true true
      (sm, actions ++ changes)

/-- `_apply_status_snapshot`. -/
def applyStatusSnapshot (sm : StateManager) (now : Timestamp) (snapshot : StatusSnapshot) :
    StateManager × List BridgeAction :=
  let sm := { sm with
    statistics := { sm.statistics with statusSyncs := sm.statistics.statusSyncs + 1 } }
  snapshot.devices.entries.foldl (applySnapshotEntry now) (sm, [])

/-- `apply`. -/
def apply (sm : StateManager) (now : Timestamp) : Option Event → StateManager × List BridgeAction
  | none => (sm, [])
  | some (.device event) => sm.applyDeviceEvent event
  | some (.house event) => sm.applyHouseEvent event
  | some (.snapshot snapshot) => sm.applyStatusSnapshot now snapshot
  | some (.unknown event) =>
    ({ sm with
        statistics := { sm.statistics with unknownPackets := sm.statistics.unknownPackets + 1 } },
      [.logUnknownEvent event])

/-! ## Outbound commands -/

/-- The payload of the event that notes an action-only command. -/
def commandEventPayload (address : String) (command : Command) (now : Timestamp) : Json :=
  .obj [("timestamp", .str (isoformat now)),
    ("device", .str address),
    ("command", .str command.name),
    ("stateful", .bool false),
    ("transmission", .str "unconfirmed"),
    ("confirmed", .bool false),
    ("message", .str "Command sent to mochad; physical device state is unconfirmed.")]

/-- The payload of the attributes of a commanded device. -/
def attributesPayload (command : Command) (optimistic : Bool) : Json :=
  .obj [("last_command_sent", .str command.name), ("optimistic", .bool optimistic)]

/-- `optimistic_update`. -/
def optimisticUpdate (sm : StateManager) (now : Timestamp) (address : String) (command : Command) :
    StateManager × List BridgeAction :=
  if !sm.addressAllowed address then (sm, [])
  else
    let (sm, state) := sm.ensureDevice address
    let device := sm.deviceConfig state.address
    if command ∉ device.supportedCommands then (sm, [])
    else
      let state := { state with pendingCommand := some command }
      let sm := { sm with
        statistics := { sm.statistics with commandsSent := sm.statistics.commandsSent + 1 } }
      let sm := sm.store state
      let (sm, state, discovery) := sm.discoveryActions state
      let actions := discovery ++ [.sendDeviceCommand state.address command]
      if !device.stateful then
        (sm, actions ++
          [.publishCommandEvent state.address (commandEventPayload state.address command now)
            false])
      else
        let actions := actions ++
          [.publishAttributes state.address (attributesPayload command sm.optimisticUpdates) true]
        if sm.optimisticUpdates then
          let (sm, changes) := sm.setDeviceState state command now true false
          (sm, actions ++ changes)
        else (sm, actions)

/-! ## Connection notifications -/

/-- The actions of one device on `mqtt_connected`. -/
def replayActions (state : DeviceState) : List BridgeAction :=
  .publishDiscovery state.address ::
    state.currentState.toList.map fun command => .publishState state.address command true

/-- `mqtt_connected`: every known device is discovered and its state replayed. -/
def onMqttConnected (sm : StateManager) : StateManager × List BridgeAction :=
  let stats := sm.statistics
  let sm := { sm with
    mqttConnected := true
    mqttGeneration := sm.mqttGeneration + 1
    mqttHasConnected := true
    devices := sm.devices.mapValues fun state => { state with discovered := true }
    statistics := { stats with
      mqttReconnects := stats.mqttReconnects +
        if sm.mqttHasConnected ∧ !sm.mqttConnected then 1 else 0
      mqttConnections := stats.mqttConnections + 1
      discoveryMessages := stats.discoveryMessages + sm.devices.values.length } }
  (sm, sm.bridgeStatusActions ++ sm.devices.values.flatMap replayActions)

/-- `mqtt_disconnected`. -/
def onMqttDisconnected (sm : StateManager) : StateManager × List BridgeAction :=
  let stats := sm.statistics
  let sm := { sm with
    mqttConnected := false
    statistics := { stats with
      mqttDisconnects := stats.mqttDisconnects + if sm.mqttConnected then 1 else 0 } }
  (sm, sm.bridgeStatusActions)

/-- `mochad_connected`. -/
def onMochadConnected (sm : StateManager) : StateManager × List BridgeAction :=
  let stats := sm.statistics
  let sm := { sm with
    mochadConnected := true
    statistics := { stats with mochadReconnects := stats.mochadReconnects + 1 } }
  (sm, sm.bridgeStatusActions ++ [.requestStatus])

/-- `mochad_disconnected`. -/
def onMochadDisconnected (sm : StateManager) : StateManager × List BridgeAction :=
  let sm := { sm with
    mochadConnected := false
    devices := sm.devices.mapValues fun state => { state with available := false } }
  (sm, sm.bridgeStatusActions)

end StateManager

end MochadBridge
