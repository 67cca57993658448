import MochadBridge.Config
import MochadBridge.Discovery
import MochadBridge.Lib.Effect
import MochadBridge.Lib.JsonText
import MochadBridge.Protocol
import MochadBridge.Registry

/-!
# The bridge

`Bridge` wires the transports, the parser, the state manager and discovery
together. Its methods are programs over its state (`BridgeM`): what a method
did before an exception stays done. The two transport clients appear with their
connection flags; a call of `send_line` fails when mochad is not connected or
when the environment says so.

A `Journal` notes what the bridge did, in order. No method reads it; the
theorems are about it. Each `SendDeviceCommandAction` handed to
`execute_action` gets a ticket, its place in `accepted`, under which its lines
and its eviction are noted.

`step` is one callback, run to completion.
-/

namespace MochadBridge

open Py Effect

/-! ## The journal -/

/-- Which transmission of a device command a line belongs to. -/
structure Stamp where
  ticket : Nat
  attempt : Nat
  repeats : Nat
  deriving DecidableEq, Repr

/-- What leaves the bridge: the start of an MQTT connection, a publish, a line
written to mochad. -/
inductive Output where
  | session
  | publish (topic : String) (payload : Json) (retain : Bool)
  | line (text : String) (stamp : Option Stamp)
  deriving DecidableEq

/-- One call of `send_line`: its line, the command it belongs to, and whether
the path for device commands was ready. -/
structure SendCall where
  line : String
  stamp : Option Stamp
  ready : Bool
  deriving DecidableEq, Repr

/-- What the bridge did so far, and how often it visited the registry file. -/
structure Journal where
  outputs : List Output := []
  accepted : List (String × Command) := []
  evicted : List Nat := []
  sends : List SendCall := []
  visits : Nat := 0

/-! ## The environment -/

/-- The exceptions of `socket.sendall`. -/
inductive SendFault where
  | connectionError (message : String)
  | osError (message : String)
  deriving DecidableEq

def SendFault.error : SendFault → PyError
  | .connectionError message => .connectionError message
  | .osError message => .osError message

/-- What the environment decides: which calls of `send_line` fail on a connected
socket, and which visits to the registry file do. -/
structure Env where
  sendFault : Nat → Option SendFault := fun _ => none
  ioFaults : Nat → IoFaults := fun _ => {}

/-! ## The state -/

/-- The MQTT transport. -/
structure MqttClient where
  baseTopic : String
  connected : Bool := false

/-- The mochad transport. -/
structure MochadClient where
  connected : Bool := false

/-- A queued `SendDeviceCommandAction`. -/
structure QueuedCommand where
  ticket : Nat
  address : String
  command : Command
  deriving DecidableEq

/-- The state of the bridge. -/
structure Bridge where
  config : Config
  devices : Config.DeviceTable
  parser : ProtocolParser := {}
  state : StateManager
  discovery : DiscoveryManager
  mqtt : MqttClient
  mochad : MochadClient := {}
  registry : RegistryFile
  mochadDiagnostics : MochadDiagnostics := {}
  configFileSignature : Option (Int × Nat)
  nextConfigReloadCheck : Nat
  stopping : Bool := false
  crashed : Bool := false
  droppedMqttPublishes : Nat := 0
  queuedDeviceCommands : List QueuedCommand := []
  droppedDeviceCommands : Nat := 0
  journal : Journal := {}

/-- The methods of the bridge. -/
abbrev BridgeM := Prog PyError Bridge

def commandPayloads : List (String × Command) :=
  [("ON", .on), ("OFF", .off), ("DIM", .dim), ("BRIGHT", .bright)]

def bridgeCommands : List (String × BridgeCommand) :=
  [("STATUS", .status), ("SYNC", .sync), ("REDISCOVER", .rediscover),
   ("PRUNE_DISCOVERY", .pruneDiscovery), ("RESET_DISCOVERY", .resetDiscovery), ("PING", .ping)]

def bridgeCommandAliases : List (String × BridgeCommand) :=
  [("PRUNE_ENTITIES", .pruneDiscovery), ("PRUNE", .pruneDiscovery)]

def repeatableCommands : List Command := [.on, .off]

def maxQueuedDeviceCommands : Nat := 100

namespace Bridge

/-- Note an output. -/
def emit (s : Bridge) (o : Output) : Bridge :=
  { s with journal := { s.journal with outputs := s.journal.outputs ++ [o] } }

/-! ## Device table -/

/-- The configuration of an address, the default one if the table has none. -/
def deviceAt (s : Bridge) (address : String) : DeviceConfig :=
  (s.devices.get? (normalize address)).getD (.unlisted (normalize address))

/-- The bridge with the address in its device table. -/
def withDevice (s : Bridge) (address : String) : Bridge :=
  { s with devices := s.devices.insert (normalize address) (s.deviceAt address) }

/-- `_device_config`. -/
def deviceConfig (address : String) : BridgeM DeviceConfig := do
  let s ← get
  match s.devices.get? (normalize address) with
  | some device => return device
  | none =>
    let device := DeviceConfig.unlisted (normalize address)
    modify fun s => { s with devices := s.devices.insert (normalize address) device }
    return device

/-- `_address_allowed_by_config`. -/
def addressAllowedByConfig (config : Config) (address : String) : Bool :=
  match config.x10Housecodes with
  | none => true
  | some codes =>
    match (normalize address).toList with
    | [] => false
    | c :: _ => codes.contains (String.singleton c)

/-! ## Transports -/

/-- `MqttClient.publish`. -/
def publish (topic : String) (payload : Json) (retain : Bool) : BridgeM Unit :=
  modify fun s => s.emit (.publish topic payload retain)

/-- Publish on a topic of the client's base topic, unless it is invalid. -/
def publishOn (topic : String → Except PyError String) (payload : Json) (retain : Bool) :
    BridgeM Unit := do
  let s ← get
  let topic ← MonadExcept.ofExcept (topic s.mqtt.baseTopic)
  publish topic payload retain

/-- `publish_discovery`. -/
def publishDiscovery (message : DiscoveryMessage) : BridgeM Unit :=
  publish message.topic message.payload message.retain

/-- `publish_state`. -/
def publishState (address : String) (state : Command) (retain : Bool) : BridgeM Unit :=
  publishOn (Topics.state address) (.str state.name) retain

/-- `publish_event`. -/
def publishEvent (address : String) (payload : Json) (retain : Bool) : BridgeM Unit :=
  publishOn (Topics.event address) payload retain

/-- `publish_attributes`. -/
def publishAttributes (address : String) (payload : Json) (retain : Bool) : BridgeM Unit :=
  publishOn (Topics.attributes address) payload retain

/-- `publish_availability`. -/
def publishAvailability (online : Bool) : BridgeM Unit :=
  publishOn Topics.availability (.str (if online then "online" else "offline")) true

/-- `publish_status`. -/
def publishStatus (payload : Json) (retain : Bool) : BridgeM Unit :=
  publishOn Topics.status payload retain

/-- `publish_bridge_response`. -/
def publishBridgeResponse (payload : Json) (retain : Bool) : BridgeM Unit :=
  publishOn Topics.bridgeResponse payload retain

/-- `line.rstrip("\r\n")`. -/
def rstripLineEnds (line : String) : String :=
  String.ofList (line.toList.rdropWhile fun c => c == '\r' || c == '\n')

/-- `_device_command_queue_reason`. -/
def deviceCommandQueueReason (s : Bridge) : Option String :=
  if !s.mochad.connected then some "mochad disconnected"
  else if s.mochadDiagnostics.usbConnected.isFalse then some "mochad USB disconnected"
  else if s.mochadDiagnostics.endpointsReady.isFalse then some "mochad USB endpoints not ready"
  else if s.mochadDiagnostics.transfersReady.isFalse then some "mochad USB transfers not ready"
  else none

section Env
variable (env : Env)

/-- `MochadClient.send_line`. A line that fails is not written. -/
def sendLine (line : String) (stamp : Option Stamp) : BridgeM Unit := do
  let s ← get
  let fault := env.sendFault s.journal.sends.length
  modify fun s => { s with journal := { s.journal with
    sends := s.journal.sends ++ [⟨line, stamp, s.deviceCommandQueueReason.isNone⟩] } }
  if !s.mochad.connected then throw (.connectionError "mochad is not connected.")
  else
    match fault with
    | some fault => throw fault.error
    | none => modify fun s => s.emit (.line (rstripLineEnds line) stamp)

/-! ## Status payload -/

/-- `time.time()` in a payload: seconds with a fraction. -/
def timeJson (t : Timestamp) : Json :=
  let micros := (padded 6 (t % 1000000)).toList.rdropWhile (· == '0')
  .float (toString (t / 1000000) ++ "." ++ if micros = [] then "0" else String.ofList micros)

/-- `bool(text)` of an optional text. -/
def truthy (text : Option String) : Bool := text.any (· ≠ "")

/-- `_mqtt_status_payload`. -/
def mqttStatusPayload (s : Bridge) : Json :=
  .obj [("tls", .obj
    [("enabled", .bool s.config.tlsEnabled),
     ("custom_ca", .bool (truthy s.config.tlsCaFile)),
     ("client_certificate", .bool (truthy s.config.tlsCertFile && truthy s.config.tlsKeyFile))])]

/-- `_mochad_diagnostics_payload`. -/
def mochadDiagnosticsPayload (s : Bridge) : Json :=
  let d := s.mochadDiagnostics
  .obj [("daemon", d.daemon), ("version", d.version), ("upstream_base", d.upstreamBase),
    ("features", .obj [("diagnostics", d.diagnostics), ("json", d.json),
      ("single_line", d.singleLine), ("raw_data", d.rawData)]),
    ("health", .obj [("uptime_seconds", d.uptimeSeconds), ("usb_connected", d.usbConnected),
      ("controller", d.controller), ("endpoints_ready", d.endpointsReady),
      ("transfers_ready", d.transfersReady)]),
    ("last_updated", (d.lastUpdated.map timeJson).getD .null)]

/-- `_bridge_status_payload`, with the arguments that default to what the bridge
knows itself. -/
def bridgeStatusPayload (s : Bridge) (status : Option String := none)
    (mqttConnected mochadConnected : Option Bool := none) : List (String × Json) :=
  [("status", .str (status.getD (if s.state.available then "online" else "offline"))),
   ("available", .bool s.state.available),
   ("mqtt_connected", .bool (mqttConnected.getD s.mqtt.connected)),
   ("mochad_connected", .bool (mochadConnected.getD s.mochad.connected)),
   ("configured_devices", .int s.devices.keys.length),
   ("known_devices", .int s.state.devices.keys.length),
   ("dropped_mqtt_publishes", .int s.droppedMqttPublishes),
   ("queued_device_commands", .int s.queuedDeviceCommands.length),
   ("dropped_device_commands", .int s.droppedDeviceCommands),
   ("mqtt", s.mqttStatusPayload),
   ("mochad", s.mochadDiagnosticsPayload)]

/-- Publish the status of the bridge, if the MQTT client is connected. -/
def publishOwnStatus : BridgeM Unit := do
  let s ← get
  if s.mqtt.connected then publishStatus (.obj s.bridgeStatusPayload) true

/-! ## Device commands -/

/-- How often a command of a device is transmitted. -/
def repeats (device : DeviceConfig) (command : Command) : Nat :=
  if command ∈ repeatableCommands then device.commandRepeats else 1

/-- `_send_device_command`; the pause between two lines is left out. -/
def sendDeviceCommand (ticket : Nat) (address : String) (command : Command) : BridgeM Unit := do
  let device ← deviceConfig address
  let line ← MonadExcept.ofExcept (Protocol.encodeRfCommand address command)
  (List.range' 1 (repeats device command)).forM fun attempt =>
    sendLine env line (some ⟨ticket, attempt, repeats device command⟩)

/-- `_queue_device_command`: a full queue drops its oldest command. -/
def queueDeviceCommand (queued : QueuedCommand) : BridgeM Unit := do
  let s ← get
  match s.queuedDeviceCommands with
  | dropped :: rest =>
    if maxQueuedDeviceCommands ≤ s.queuedDeviceCommands.length then
      modify fun s => { s with
        queuedDeviceCommands := rest
        droppedDeviceCommands := s.droppedDeviceCommands + 1
        journal := { s.journal with evicted := s.journal.evicted ++ [dropped.ticket] } }
  | [] => pure ()
  modify fun s => { s with queuedDeviceCommands := s.queuedDeviceCommands ++ [queued] }
  publishOwnStatus

/-- The branch of `execute_action` for a `SendDeviceCommandAction`, which gets
the next ticket. -/
def executeDeviceCommand (address : String) (command : Command) : BridgeM Unit := do
  let s ← get
  let ticket := s.journal.accepted.length
  modify fun s => { s with
    journal := { s.journal with accepted := s.journal.accepted ++ [(address, command)] } }
  match s.deviceCommandQueueReason with
  | some _ => queueDeviceCommand ⟨ticket, address, command⟩
  | none => sendDeviceCommand env ticket address command

/-- The loop of `_flush_queued_device_commands` over the queue; `false` when it
pauses on a failing send, which puts the command back. -/
def flushLoop : List QueuedCommand → BridgeM Bool
  | [] => pure true
  | queued :: rest => do
    modify fun s => { s with queuedDeviceCommands := rest }
    let sent ← tryCatch
      (do
        sendDeviceCommand env queued.ticket queued.address queued.command
        return true)
      fun e => do
        if e.isTransport then
          modify fun s => { s with queuedDeviceCommands := queued :: s.queuedDeviceCommands }
          return false
        else throw e
    if sent then flushLoop rest else return false

/-- `_flush_queued_device_commands`. -/
def flushQueuedDeviceCommands : BridgeM Unit := do
  let s ← get
  if s.queuedDeviceCommands = [] then return ()
  else if s.deviceCommandQueueReason.isSome then return ()
  else
    let drained ← flushLoop env s.queuedDeviceCommands
    if drained then publishOwnStatus

/-! ## Actions -/

/-- The actions that `_drop_mqtt_publish_if_disconnected` is about. -/
def isMqttPublish : BridgeAction → Bool
  | .publishAttributes .. | .publishAvailability .. | .publishBridgeResponse ..
  | .publishCommandEvent .. | .publishDiscovery .. | .publishEvent .. | .publishState ..
  | .publishStatus .. => true
  | _ => false

/-- The payload of a `PublishEventAction`. A line of direction TX confirms the
transmission only. -/
def eventPayload (event : DeviceEvent) : Json :=
  .obj [("timestamp", .str (isoformat event.timestamp)),
    ("direction", .str event.direction.name),
    ("transport", .str event.transport.name),
    ("device", .str event.address),
    ("command", .str event.command.name),
    ("confirmed", .bool (event.direction.name ≠ "TX"))]

/-- The payload of a `PublishBridgeResponseAction`: its own payload overrides
the common fields. -/
def responsePayload (now : Timestamp) (command : Option BridgeCommand) (success : Bool)
    (message : String) (payload : List (String × Json)) : Json :=
  .obj (Dict.ofPairs ([("command", (command.map fun c => Json.str c.name).getD .null),
    ("success", .bool success), ("message", .str message), ("timestamp", timeJson now)] ++
    payload)).entries

/-- `execute_action`. -/
def executeAction (now : Timestamp) (action : BridgeAction) : BridgeM Unit := do
  let s ← get
  if isMqttPublish action ∧ !s.mqtt.connected then
    modify fun s => { s with droppedMqttPublishes := s.droppedMqttPublishes + 1 }
  else
    match action with
    | .publishState address state retain => publishState address state retain
    | .publishEvent event => publishEvent event.address (eventPayload event) false
    | .publishCommandEvent address payload retain => publishEvent address payload retain
    | .publishAttributes address payload retain => publishAttributes address payload retain
    | .publishDiscovery address =>
      let device ← deviceConfig address
      let s ← get
      let messages ← MonadExcept.ofExcept
        (s.discovery.discoveryMessages device s.mochadDiagnostics)
      messages.forM publishDiscovery
    | .publishAvailability online => publishAvailability online
    | .publishStatus status mqttConnected mochadConnected retain =>
      publishStatus
        (.obj (s.bridgeStatusPayload (some status) (some mqttConnected) (some mochadConnected)))
        retain
    | .publishBridgeResponse command success message payload retain =>
      publishBridgeResponse (responsePayload now command success message payload) retain
    | .sendMochadCommand command => sendLine env command none
    | .sendDeviceCommand address command => executeDeviceCommand env address command
    | .requestStatus => sendLine env "st" none
    | .logUnknownEvent _ => pure ()

/-- The actions whose failure ends `execute_actions`. -/
def isSend : BridgeAction → Bool
  | .requestStatus | .sendDeviceCommand .. | .sendMochadCommand _ => true
  | _ => false

/-- `execute_actions`: a transport error ends the list only at a send. -/
def executeActions (now : Timestamp) : List BridgeAction → BridgeM Unit
  | [] => pure ()
  | action :: actions => do
    let goOn ← tryCatch
      (do
        executeAction env now action
        return true)
      fun e => if e.isTransport then pure (!isSend action) else throw e
    if goOn then executeActions now actions else return ()

/-! ## Discovery -/

/-- The messages for every device of the table and for the bridge itself, which
both `_publish_current_discovery` and `_desired_discovery_topics` build. -/
def discoveryMessages (s : Bridge) : Except PyError (List DiscoveryMessage) := do
  let messages ← s.devices.values.mapM fun device =>
    s.discovery.discoveryMessages device s.mochadDiagnostics
  let own ← s.discovery.bridgeDiagnosticMessages s.mochadDiagnostics
  return messages.flatten ++ own

/-- `_publish_bridge_diagnostic_discovery`. -/
def publishBridgeDiagnosticDiscovery : BridgeM Unit := do
  let s ← get
  let messages ← MonadExcept.ofExcept (s.discovery.bridgeDiagnosticMessages s.mochadDiagnostics)
  messages.forM publishDiscovery

/-- `_publish_current_discovery`. -/
def publishCurrentDiscovery : BridgeM Nat := do
  let s ← get
  let messages ← MonadExcept.ofExcept s.discoveryMessages
  messages.forM publishDiscovery
  return messages.length

/-- `_desired_discovery_topics`. -/
def desiredDiscoveryTopics : BridgeM (List String) := do
  let s ← get
  let messages ← MonadExcept.ofExcept s.discoveryMessages
  return messages.map DiscoveryMessage.topic

/-- `DiscoveryRegistry.load` on the registry file. -/
def loadRegistry : BridgeM (List String) := do
  let s ← get
  let (result, file) := s.registry.load s.config.discoveryRegistryPath
    (env.ioFaults s.journal.visits)
  modify fun s => { s with
    registry := file, journal := { s.journal with visits := s.journal.visits + 1 } }
  MonadExcept.ofExcept result

/-- `except DiscoveryRegistryError`. -/
def isRegistryError : PyError → Bool
  | .registryError _ => true
  | _ => false

/-- `_save_discovery_registry`. -/
def saveDiscoveryRegistry (topics : List String) : BridgeM Bool := do
  let s ← get
  let (result, file) := s.registry.save s.config.discoveryRegistryPath
    (env.ioFaults s.journal.visits) topics
  modify fun s => { s with
    registry := file, journal := { s.journal with visits := s.journal.visits + 1 } }
  match result with
  | .ok () => return true
  | .error e => if isRegistryError e then return false else throw e

/-- `_empty_discovery_message`. -/
def emptyDiscoveryMessage (topic : String) : DiscoveryMessage :=
  { topic := topic, payload := .str "", retain := true }

/-- Publish an empty message on each topic of a set, in order. -/
def clearTopics (topics : List String) : BridgeM Unit :=
  (sortedSet topics).forM fun topic => publishDiscovery (emptyDiscoveryMessage topic)

/-- `_run_discovery_cleanup`. -/
def runDiscoveryCleanup (force : Bool) : BridgeM (List (String × Json)) := do
  let desired ← desiredDiscoveryTopics
  let s ← get
  let enabled := s.config.discoveryCleanup
  if !force ∧ !enabled then
    let previous ← tryCatch (loadRegistry env) fun e =>
      if isRegistryError e then pure [] else throw e
    let saved ← saveDiscoveryRegistry env (previous ++ desired)
    return [("success", .bool saved), ("message", .str "Discovery registry updated."),
      ("desired", .int (setLength desired)), ("tracked", .int (setLength (previous ++ desired))),
      ("stale", .int (setLength (setDiff previous desired))), ("cleanup_enabled", .bool enabled)]
  else
    let loaded ← tryCatch (do let topics ← loadRegistry env; return Except.ok topics) fun e =>
      if isRegistryError e then pure (Except.error e) else throw e
    match loaded with
    | .error e =>
      return [("success", .bool false), ("message", .str ("Discovery cleanup skipped: " ++ e.text)),
        ("desired", .int (setLength desired)), ("stale", .int 0),
        ("cleanup_enabled", .bool enabled)]
    | .ok previous =>
      let stale := setDiff previous desired
      clearTopics stale
      let saved ← saveDiscoveryRegistry env desired
      return [("success", .bool saved),
        ("message", .str (if saved then "Discovery cleanup complete."
          else "Discovery cleanup ran but registry save failed.")),
        ("desired", .int (setLength desired)), ("stale", .int (setLength stale)),
        ("cleanup_enabled", .bool enabled)]

/-- `_reset_discovery`. -/
def resetDiscovery : BridgeM (List (String × Json)) := do
  let desired ← desiredDiscoveryTopics
  let registered ← tryCatch (loadRegistry env) fun e =>
    if isRegistryError e then pure [] else throw e
  clearTopics (desired ++ registered)
  let saved ← saveDiscoveryRegistry env []
  return [("success", .bool saved),
    ("message", .str (if saved then "Discovery reset complete."
      else "Discovery reset ran but registry save failed.")),
    ("cleared", .int (setLength (desired ++ registered)))]

/-! ## Bridge commands -/

/-- `_bridge_response`, executed. -/
def respond (now : Timestamp) (command : Option BridgeCommand) (success : Bool) (message : String)
    (payload : List (String × Json) := []) : BridgeM Unit :=
  executeAction env now (.publishBridgeResponse command success message payload false)

/-- The response to a maintenance command, from its result. -/
def respondResult (now : Timestamp) (command : BridgeCommand) (result : List (String × Json))
    (message : String) : BridgeM Unit :=
  respond env now (some command) (((Json.field? result "success").map Json.isTrue).getD false)
    (((Json.field? result "message").map Json.pyStr).getD message) result

/-- `_handle_bridge_command`. -/
def handleBridgeCommand (now : Timestamp) (command : BridgeCommand) : BridgeM Unit := do
  let s ← get
  if (command = .pruneDiscovery ∨ command = .resetDiscovery) ∧
      !s.config.enableMaintenanceButtons then
    respond env now (some command) false
      "Maintenance command disabled; set ENABLE_MAINTENANCE_BUTTONS=true to enable it."
  else
    match command with
    | .ping => respond env now (some command) true "pong"
    | .status =>
      respond env now (some command) true "Bridge status returned." s.bridgeStatusPayload
    | .sync =>
      if !s.mochad.connected then
        respond env now (some command) false "Cannot sync because mochad is not connected."
      else
        let failure ← tryCatch
          (do
            executeAction env now .requestStatus
            return none)
          fun e => if e.isTransport then pure (some e) else throw e
        match failure with
        | some e =>
          respond env now (some command) false ("Status sync request failed: " ++ e.text)
        | none => respond env now (some command) true "Status sync requested from mochad."
    | .rediscover =>
      let published ← publishCurrentDiscovery
      let desired ← desiredDiscoveryTopics
      let _ ← saveDiscoveryRegistry env desired
      respond env now (some command) true "Discovery messages republished."
        [("published", .int published)]
    | .pruneDiscovery =>
      let result ← runDiscoveryCleanup env true
      respondResult env now command result "Discovery prune completed."
    | .resetDiscovery =>
      let result ← resetDiscovery env
      respondResult env now command result "Discovery reset completed."

/-- `_parse_bridge_command_payload`. -/
def parseBridgeCommandPayload (payload : String) : Option BridgeCommand :=
  let normalized := normalize payload
  if normalized = "" then none
  else
    let normalized := replaceChar ' ' '_' (replaceChar '-' '_' normalized)
    (bridgeCommands.lookup normalized).or (bridgeCommandAliases.lookup normalized)

/-- `_on_mqtt_bridge_command`. -/
def onMqttBridgeCommand (now : Timestamp) (topic payload : String) : BridgeM Unit :=
  match parseBridgeCommandPayload payload with
  | none => respond env now none false
    ("Ignoring unsupported MQTT bridge command payload " ++ Json.reprStr payload ++ " on " ++ topic)
  | some command => handleBridgeCommand env now command

/-! ## MQTT messages -/

/-- `_parse_command_payload`. -/
def parseCommandPayload (payload : String) : Option Command :=
  commandPayloads.lookup (normalize payload)

/-- `_on_mqtt_command`. -/
def onMqttCommand (now : Timestamp) (device topic payload : String) : BridgeM Unit := do
  let s ← get
  match Topics.parseCommandTopic topic s.config.mqttBaseTopic with
  | .error _ => return ()
  | .ok topicAddress =>
    if topicAddress ≠ device then return ()
    else
      match parseCommandPayload payload with
      | none => return ()
      | some command =>
        match Protocol.normalizeAddress device with
        | .error _ => return ()
        | .ok address =>
          let device ← deviceConfig address
          if command ∉ device.supportedCommands then return ()
          else
            match Protocol.encodeRfCommand address command with
            | .error _ => return ()
            | .ok _ =>
              let s ← get
              let (sm, actions) := s.state.optimisticUpdate now address command
              set { s with state := sm }
              executeActions env now actions

/-- `MqttClient._on_message` for a decoded payload: a bridge command, a device
command, or nothing the bridge knows. -/
def onMessage (now : Timestamp) (topic payload : String) : BridgeM Unit := do
  let payload := strip payload
  let s ← get
  match Topics.parseBridgeCommandTopic topic s.mqtt.baseTopic with
  | .ok () => onMqttBridgeCommand env now topic payload
  | .error _ =>
    match Topics.parseCommandTopic topic s.mqtt.baseTopic with
    | .ok device => onMqttCommand env now device topic payload
    | .error _ => return ()

/-! ## Connections -/

/-- Execute the actions of a connection notification. -/
def notify (now : Timestamp)
    (notification : StateManager → StateManager × List BridgeAction) : BridgeM Unit := do
  let s ← get
  let (sm, actions) := notification s.state
  set { s with state := sm }
  executeActions env now actions

/-- `_on_mqtt_connected`. -/
def onMqttConnected (now : Timestamp) : BridgeM Unit := do
  notify env now StateManager.onMqttConnected
  publishBridgeDiagnosticDiscovery
  let _ ← runDiscoveryCleanup env false

/-- `MqttClient._on_connect` and its callback. -/
def onConnect (now : Timestamp) : BridgeM Unit := do
  modify fun s => { s with mqtt := { s.mqtt with connected := true } }.emit .session
  onMqttConnected env now

/-- `MqttClient._on_disconnect` and its callback. -/
def onDisconnect (now : Timestamp) : BridgeM Unit := do
  modify fun s => { s with mqtt := { s.mqtt with connected := false } }
  let s ← get
  if s.stopping then return ()
  else notify env now StateManager.onMqttDisconnected

/-- `_request_mochad_diagnostics`. -/
def requestMochadDiagnostics (now : Timestamp) : List String → BridgeM Unit
  | [] => pure ()
  | command :: commands => do
    let sent ← tryCatch
      (do
        executeAction env now (.sendMochadCommand command)
        return true)
      fun e => if e.isTransport then pure false else throw e
    if sent then requestMochadDiagnostics now commands else return ()

/-- `_on_mochad_connected`. -/
def onMochadConnected (now : Timestamp) : BridgeM Unit := do
  notify env now StateManager.onMochadConnected
  requestMochadDiagnostics env now ["hello", "capabilities", "health"]

/-- `MochadClient.connect`: a stopped client closes the socket again. -/
def connect (now : Timestamp) : BridgeM Unit := do
  let s ← get
  if s.stopping then return ()
  else
    modify fun s => { s with mochad := { s.mochad with connected := true } }
    onMochadConnected env now

/-- `_on_mochad_disconnected`. -/
def onMochadDisconnected (now : Timestamp) : BridgeM Unit := do
  modify fun s => { s with mochadDiagnostics := { s.mochadDiagnostics with
    usbConnected := .null
    endpointsReady := .null
    transfersReady := .null
    lastUpdated := some now } }
  notify env now StateManager.onMochadDisconnected

/-- The end of a mochad connection, as `MochadClient._run` notices it. -/
def disconnect (now : Timestamp) : BridgeM Unit := do
  modify fun s => { s with mochad := { s.mochad with connected := false } }
  onMochadDisconnected env now

/-! ## mochad lines -/

/-- The kinds of diagnostic lines. -/
inductive DiagnosticKind where
  | hello | capabilities | health
  deriving DecidableEq, Repr

/-- `_mochad_diagnostic_kind`. -/
def mochadDiagnosticKind (payload : List (String × Json)) : Option DiagnosticKind :=
  let has := fun name => (Json.field? payload name).isSome
  let isTrue := fun name => ((Json.field? payload name).map Json.isTrue).getD false
  if isTrue "diagnostics" ∧ has "daemon" then some .hello
  else if isTrue "json" ∧ has "commands" then some .capabilities
  else if has "usb_connected" ∨ has "controller" then some .health
  else none

/-- `_merge_mochad_diagnostics`. -/
def mergeMochadDiagnostics (d : MochadDiagnostics) (payload : List (String × Json))
    (now : Timestamp) : MochadDiagnostics :=
  let merged := fun name (old : Json) => (Json.field? payload name).getD old
  { daemon := merged "daemon" d.daemon
    version := merged "version" d.version
    upstreamBase := merged "upstream_base" d.upstreamBase
    diagnostics := merged "diagnostics" d.diagnostics
    json := merged "json" d.json
    singleLine := merged "single_line" d.singleLine
    rawData := merged "raw_data" d.rawData
    uptimeSeconds := merged "uptime_seconds" d.uptimeSeconds
    usbConnected := merged "usb_connected" d.usbConnected
    controller := merged "controller" d.controller
    endpointsReady := merged "endpoints_ready" d.endpointsReady
    transfersReady := merged "transfers_ready" d.transfersReady
    lastUpdated := some now }

/-- The diagnostic object of a line, with its kind. -/
def diagnosticLine (line : String) : Option (List (String × Json) × DiagnosticKind) :=
  if !startsWith line "\x7b" then none
  else
    match Json.loads line with
    | some (.obj payload) => (mochadDiagnosticKind payload).map fun kind => (payload, kind)
    | _ => none

/-- What `_handle_mochad_diagnostic_line` publishes on a connected client. -/
def publishDiagnostics (kind : DiagnosticKind) : BridgeM Unit := do
  let s ← get
  if s.mqtt.connected then
    publishStatus (.obj s.bridgeStatusPayload) true
    if kind = .hello ∨ kind = .health then
      let _ ← publishCurrentDiscovery
      let desired ← desiredDiscoveryTopics
      let _ ← saveDiscoveryRegistry env desired

/-- What `_handle_mochad_diagnostic_line` does with a diagnostic object. -/
def handleDiagnostics (now : Timestamp) (payload : List (String × Json)) (kind : DiagnosticKind) :
    BridgeM Unit := do
  modify fun s => { s with
    mochadDiagnostics := mergeMochadDiagnostics s.mochadDiagnostics payload now }
  publishDiagnostics env kind
  if kind = .health then flushQueuedDeviceCommands env

/-- `_on_mochad_line`. -/
def onMochadLine (now : Timestamp) (line : String) : BridgeM Unit := do
  let line := stripChars ['\r', '\n'] line
  match diagnosticLine line with
  | some (payload, kind) => handleDiagnostics env now payload kind
  | none =>
    let s ← get
    let (event, parser) ← MonadExcept.ofExcept (s.parser.parseLine now line)
    let (sm, actions) := s.state.apply now event
    set { s with parser := parser, state := sm }
    executeActions env now actions

/-! ## Reload and shutdown -/

/-- `_apply_runtime_config`. -/
def applyRuntimeConfig (newConfig : Config) : BridgeM Unit := do
  let s ← get
  let newDevices := newConfig.devices.filterKeys (addressAllowedByConfig s.config)
  if newDevices.sameItems s.devices ∧ newConfig.useFriendlyNames = s.config.useFriendlyNames then
    return ()
  else
    modify fun s => { s with
      config := { s.config with
        devices := newConfig.devices
        configured := newConfig.configured
        useFriendlyNames := newConfig.useFriendlyNames }
      devices := newDevices }
    let s ← get
    if s.mqtt.connected then
      let _ ← publishCurrentDiscovery
      let _ ← runDiscoveryCleanup env false
      let s ← get
      publishStatus (.obj s.bridgeStatusPayload) true

/-- `_check_config_file_reload` at a reading of the monotonic clock, with the
signature of the file and what `load_config` makes of it. -/
def checkConfigFileReload (monotonic : Nat) (signature : Option (Int × Nat))
    (loaded : Except PyError Config) (force : Bool := false) : BridgeM Unit := do
  let s ← get
  if s.config.configFile.isNone then return ()
  else if !force ∧ monotonic < s.nextConfigReloadCheck then return ()
  else
    modify fun s => { s with
      nextConfigReloadCheck := monotonic + s.config.configReloadIntervalMicros }
    if !force ∧ signature = s.configFileSignature then return ()
    else
      match loaded with
      | .error (.configError _) => return ()
      | .error e => throw e
      | .ok newConfig =>
        applyRuntimeConfig env newConfig
        modify fun s => { s with configFileSignature := signature }

/-- `stop`, with `_publish_shutdown_status`. -/
def stop : BridgeM Unit := do
  modify fun s => { s with stopping := true, mochad := { s.mochad with connected := false } }
  let s ← get
  if s.mqtt.connected then
    let payload := s.bridgeStatusPayload (some "shutdown") (some true) (some false)
    publishStatus (.obj (Dict.ofPairs (payload ++ [("available", .bool false)])).entries) true
    publishAvailability false

/-! ## Start -/

/-- `Bridge.__init__` with the registry file as it is on disk. It raises when the
base topic makes no topic for the will message. -/
def init (config : Config) (signature : Option (Int × Nat)) (monotonic : Nat)
    (registry : RegistryFile) (journal : Journal := {}) : Except PyError Bridge := do
  let devices := config.devices.filterKeys (addressAllowedByConfig config)
  let _ ← Topics.availability config.mqttBaseTopic
  let (_, file) :=
    if config.configFile.isSome then
      registry.createIfMissing config.discoveryRegistryPath (env.ioFaults journal.visits)
    else (.ok false, registry)
  return {
    config := config
    devices := devices
    state := StateManager.init devices.values config.optimisticUpdates config.x10Housecodes
    discovery := {
      discoveryPrefix := config.mqttDiscoveryPrefix
      baseTopic := config.mqttBaseTopic
      enableMaintenanceButtons := config.enableMaintenanceButtons }
    mqtt := { baseTopic := config.mqttBaseTopic }
    registry := file
    configFileSignature := signature
    nextConfigReloadCheck := monotonic + config.configReloadIntervalMicros
    journal := { journal with visits := journal.visits + 1 } }

/-! ## Steps -/

/-- What happens to the bridge from outside. -/
inductive Input where
  | mqttMessage (topic payload : String)
  | mqttConnected
  | mqttDisconnected
  | mochadConnected
  | mochadDisconnected
  | mochadLine (line : String)
  | poll (monotonic : Nat) (signature : Option (Int × Nat)) (loaded : Except PyError Config)
  | stop

/-- The callback of an input, at a reading of the clock. -/
def callback (now : Timestamp) : Input → BridgeM Unit
  | .mqttMessage topic payload => onMessage env now topic payload
  | .mqttConnected => onConnect env now
  | .mqttDisconnected => onDisconnect env now
  | .mochadConnected => connect env now
  | .mochadDisconnected => disconnect env now
  | .mochadLine line => onMochadLine env now line
  | .poll monotonic signature loaded => checkConfigFileReload env monotonic signature loaded
  | .stop => stop

/-- One callback, run to completion. The transport clients log an exception and
go on; one out of the polling loop ends the process. A stopped bridge polls no
more. -/
def step (s : Bridge) (i : Timestamp × Input) : Bridge :=
  if s.crashed then s
  else
    match i.2 with
    | .poll .. =>
      if s.stopping then s
      else
        match exec (callback env i.1 i.2) s with
        | (.ok (), s) => s
        | (.error _, s) => { s with crashed := true }
    | _ => (exec (callback env i.1 i.2) s).2

end Env

end Bridge

end MochadBridge
