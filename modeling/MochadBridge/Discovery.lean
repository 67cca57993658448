import MochadBridge.Topics

/-!
# Home Assistant discovery payloads

`DiscoveryManager` builds discovery messages from device configuration and the
latest mochad diagnostics. It is pure: a message is either returned or an
exception is raised, and each message is checked before it is returned.
-/

namespace MochadBridge

open Py

def bridgeVersion : String := "0.4.0"
def bridgeAuthor : String := "Open Source"
def bridgeDeviceIdentifier : String := "mqtt_mochad_bridge"
def bridgeDisplayName : String := "MQTT Mochad Bridge"
def bridgeModel : String := "X10 MQTT Bridge"
def defaultSupportUrl : String := "https://github.com/Monsterray/mochad-mqtt-bridge"
def mochadReduxUrl : String := "https://github.com/Monsterray/mochad-redux"

/-- The settings of `DiscoveryManager`. -/
structure DiscoveryManager where
  discoveryPrefix : String
  baseTopic : String := "x10"
  supportUrl : String := defaultSupportUrl
  enableMaintenanceButtons : Bool := false
  deriving DecidableEq

namespace DiscoveryManager

/-! ## Device and origin blocks -/

/-- `_clean_diag_value`. -/
def cleanDiagValue (value : Json) : Option String :=
  if value = .null then none
  else
    let text := strip value.pyStr
    if text = "" ∨ lower text = "none" ∨ lower text = "unknown" then none else some text

/-- `_device_model`. -/
def deviceModel (diag : MochadDiagnostics) : String :=
  match cleanDiagValue diag.controller with
  | some controller => controller ++ " MQTT Bridge"
  | none => bridgeModel

/-- `_device_sw_version`. -/
def deviceSwVersion (diag : MochadDiagnostics) : String :=
  match cleanDiagValue diag.daemon, cleanDiagValue diag.version with
  | some daemon, some version => "bridge " ++ bridgeVersion ++ "; " ++ daemon ++ " " ++ version
  | none, some version => "bridge " ++ bridgeVersion ++ "; mochad " ++ version
  | _, none => bridgeVersion

/-- `_origin_version`. -/
def originVersion (version : Option String) : String :=
  match version with
  | some version => bridgeVersion ++ "; mochad " ++ version
  | none => bridgeVersion

/-- `_device_block`. -/
def deviceBlock (m : DiscoveryManager) (diag : MochadDiagnostics) : List (String × Json) :=
  let url := if (cleanDiagValue diag.version).isSome then mochadReduxUrl else m.supportUrl
  [("identifiers", .arr [.str bridgeDeviceIdentifier]),
   ("name", .str bridgeDisplayName),
   ("manufacturer", .str bridgeAuthor),
   ("model", .str (deviceModel diag)),
   ("sw_version", .str (deviceSwVersion diag)),
   ("configuration_url", .str url)] ++
  (cleanDiagValue diag.daemon).toList.map (fun daemon => ("model_id", .str daemon)) ++
  (cleanDiagValue diag.controller).toList.map (fun controller => ("hw_version", .str controller))

/-- `_origin_block`. -/
def originBlock (m : DiscoveryManager) (diag : MochadDiagnostics) : List (String × Json) :=
  [("name", .str bridgeDisplayName),
   ("sw_version", .str (originVersion (cleanDiagValue diag.version))),
   ("support_url", .str m.supportUrl)]

/-- A character of `[a-z0-9_]`. -/
def isSlugChar (c : Char) : Bool := c.isLower || c.isDigit || c == '_'

/-- `re.sub(r"[^a-z0-9_]+", "_", slug)` and then `re.sub(r"_+", "_", slug)`:
every run of other characters and underscores becomes one underscore. -/
def collapse : List Char → List Char
  | [] => []
  | c :: rest =>
    let c := if isSlugChar c then c else '_'
    match collapse rest with
    | [] => [c]
    | d :: tail => if c = '_' ∧ d = '_' then d :: tail else c :: d :: tail

/-- `_default_entity_id`. -/
def defaultEntityId (component uniqueId : String) : String :=
  let slug := collapse (lower (strip uniqueId)).toList
  component ++ "." ++ String.ofList (trim (· == '_') slug)

/-! ## Device payloads -/

/-- `_button_payload`. -/
def buttonPayload (m : DiscoveryManager) (device : DeviceConfig) (diag : MochadDiagnostics) :
    Except PyError (List (String × Json)) := do
  let uid ← Topics.uniqueId device
  let command ← Topics.command device.address m.baseTopic
  let availability ← Topics.availability m.baseTopic
  return [("name", .str device.name),
    ("unique_id", .str uid),
    ("default_entity_id", .str (defaultEntityId "button" uid)),
    ("command_topic", .str command),
    ("payload_press", .str "ON"),
    ("availability_topic", .str availability),
    ("device", .obj (m.deviceBlock diag)),
    ("origin", .obj (m.originBlock diag))]

/-- The payload of a stateful device, the last branch of `_payload`. -/
def statefulPayload (m : DiscoveryManager) (device : DeviceConfig) (diag : MochadDiagnostics) :
    Except PyError (List (String × Json)) := do
  let uid ← Topics.uniqueId device
  let state ← Topics.state device.address m.baseTopic
  let command ← Topics.command device.address m.baseTopic
  let availability ← Topics.availability m.baseTopic
  return [("name", .str device.name),
    ("unique_id", .str uid),
    ("default_entity_id", .str (defaultEntityId (Topics.entityType device) uid)),
    ("state_topic", .str state),
    ("command_topic", .str command),
    ("availability_topic", .str availability),
    ("payload_on", .str "ON"),
    ("payload_off", .str "OFF"),
    ("device", .obj (m.deviceBlock diag)),
    ("origin", .obj (m.originBlock diag))]

/-- `_payload`. -/
def payload (m : DiscoveryManager) (device : DeviceConfig) (diag : MochadDiagnostics) :
    Except PyError (List (String × Json)) :=
  if device.entityType = .chime ∨ device.stateful = false then m.buttonPayload device diag
  else m.statefulPayload device diag

/-! ## Validation -/

/-- `_validate_device`. Every `DeviceType` is a supported entity type. -/
def validateDevice (device : DeviceConfig) : Except PyError Unit :=
  if strip device.name = "" then
    .error (.discoveryError ("Device " ++ device.address ++ " must have a display name."))
  else
    match Topics.uniqueId device with
    | .error (.topicError message) => .error (.discoveryError message)
    | .error e => .error e
    | .ok _ => .ok ()

/-- The second `/`-separated part of the topic is `button`. -/
def isButtonTopic (topic : String) : Bool := (split topic '/')[1]? == some "button"

/-- The fields `_validate_message` requires, in the order `sorted` puts them. -/
def requiredPayloadFields (topic : String) : List String :=
  if isButtonTopic topic then
    ["availability_topic", "command_topic", "device", "name", "origin", "payload_press",
     "unique_id"]
  else
    ["availability_topic", "command_topic", "device", "name", "origin", "payload_off",
     "payload_on", "state_topic", "unique_id"]

/-- The fields of a discovery payload are present under `name`. -/
def hasField (fields : List (String × Json)) (name : String) : Bool :=
  (Json.field? fields name).isSome

/-- `not payload[name]` for a field that holds a string. -/
def isBlankField (fields : List (String × Json)) (name : String) : Bool :=
  Json.field? fields name == some (.str "")

/-- The fields of the object under `name`. -/
def objectField (fields : List (String × Json)) (name : String) : List (String × Json) :=
  match Json.field? fields name with
  | some (.obj inner) => inner
  | _ => []

/-- `_validate_message`. -/
def validateMessage (topic : String) (fields : List (String × Json)) : Except PyError Unit :=
  let missing := (requiredPayloadFields topic).filter fun name => !hasField fields name
  if missing ≠ [] then
    .error (.discoveryError
      ("Discovery payload missing required fields: " ++ ", ".intercalate missing))
  else if topic = "" then .error (.discoveryError "Discovery topic cannot be empty.")
  else if isBlankField fields "unique_id" then
    .error (.discoveryError "Discovery unique_id cannot be empty.")
  else if isBlankField fields "state_topic" then
    .error (.discoveryError "Discovery state_topic cannot be empty.")
  else if isBlankField fields "command_topic" then
    .error (.discoveryError "Discovery command_topic cannot be empty.")
  else if isBlankField fields "availability_topic" then
    .error (.discoveryError "Discovery availability_topic cannot be empty.")
  else
    match ["identifiers", "name", "manufacturer", "model", "sw_version"].find? fun key =>
        !hasField (objectField fields "device") key with
    | some key => .error (.discoveryError ("Discovery device block missing " ++ key ++ "."))
    | none => .ok ()

/-- `discovery_messages`. -/
def discoveryMessages (m : DiscoveryManager) (device : DeviceConfig) (diag : MochadDiagnostics) :
    Except PyError (List DiscoveryMessage) := do
  validateDevice device
  let fields ← m.payload device diag
  let topic ← Topics.discovery device m.discoveryPrefix
  validateMessage topic fields
  return [{ topic := topic, payload := .obj fields, retain := true }]

/-! ## Bridge diagnostic messages -/

/-- The fields every bridge entity has. -/
def bridgeFields (m : DiscoveryManager) (component objectId name : String)
    (diag : MochadDiagnostics) (own : List (String × Json)) :
    Except PyError (List (String × Json)) := do
  let availability ← Topics.availability m.baseTopic
  return [("name", .str name),
    ("unique_id", .str objectId),
    ("default_entity_id", .str (defaultEntityId component objectId))] ++ own ++
    [("availability_topic", .str availability),
     ("entity_category", .str "diagnostic"),
     ("device", .obj (m.deviceBlock diag)),
     ("origin", .obj (m.originBlock diag))]

/-- One bridge entity: its topic and payload, without the check. -/
def bridgeMessage (m : DiscoveryManager) (component objectId name : String)
    (diag : MochadDiagnostics) (own : Except PyError (List (String × Json))) :
    Except PyError DiscoveryMessage := do
  let topic ← Topics.bridgeDiscovery component objectId m.discoveryPrefix
  let own ← own
  let fields ← m.bridgeFields component objectId name diag own
  return { topic := topic, payload := .obj fields, retain := true }

/-- `_bridge_value_sensor_message`; `_bridge_status_sensor_message` is it with
the status template. -/
def bridgeValueSensorMessage (m : DiscoveryManager) (objectId name valueTemplate : String)
    (diag : MochadDiagnostics) : Except PyError DiscoveryMessage :=
  m.bridgeMessage "sensor" objectId name diag do
    let status ← Topics.status m.baseTopic
    return [("state_topic", .str status), ("value_template", .str valueTemplate)]

/-- `_bridge_status_sensor_message`. -/
def bridgeStatusSensorMessage (m : DiscoveryManager) (diag : MochadDiagnostics) :
    Except PyError DiscoveryMessage :=
  m.bridgeValueSensorMessage "mqtt_mochad_bridge_status" "Bridge Status"
    "\x7b\x7b value_json.status \x7d\x7d" diag

/-- A connectivity sensor, the shape of `_bridge_connectivity_sensor_message`
and `_bridge_usb_sensor_message`. -/
def connectivitySensorMessage (m : DiscoveryManager) (objectId name valueKey : String)
    (diag : MochadDiagnostics) : Except PyError DiscoveryMessage :=
  m.bridgeMessage "binary_sensor" objectId name diag do
    let status ← Topics.status m.baseTopic
    return [("state_topic", .str status),
      ("value_template",
        .str ("\x7b\x7b 'ON' if value_json." ++ valueKey ++ " else 'OFF' \x7d\x7d")),
      ("payload_on", .str "ON"),
      ("payload_off", .str "OFF"),
      ("device_class", .str "connectivity")]

/-- `_bridge_connectivity_sensor_message`. -/
def bridgeConnectivitySensorMessage (m : DiscoveryManager) (diag : MochadDiagnostics) :
    Except PyError DiscoveryMessage :=
  m.connectivitySensorMessage "mqtt_mochad_bridge_mochad_connected" "Mochad Connected"
    "mochad_connected" diag

/-- `_bridge_usb_sensor_message`. -/
def bridgeUsbSensorMessage (m : DiscoveryManager) (diag : MochadDiagnostics) :
    Except PyError DiscoveryMessage :=
  m.connectivitySensorMessage "mqtt_mochad_bridge_usb_connected" "USB Connected"
    "mochad.health.usb_connected" diag

/-- `_bridge_command_button_message`. -/
def bridgeCommandButtonMessage (m : DiscoveryManager) (command : BridgeCommand)
    (objectId name : String) (diag : MochadDiagnostics) : Except PyError DiscoveryMessage :=
  m.bridgeMessage "button" objectId name diag do
    let topic ← Topics.bridgeCommand m.baseTopic
    return [("command_topic", .str topic), ("payload_press", .str command.name)]

/-- `_validate_bridge_message`. -/
def validateBridgeMessage (message : DiscoveryMessage) : Except PyError Unit :=
  if message.topic = "" then .error (.discoveryError "Bridge discovery topic cannot be empty.")
  else
    match message.payload with
    | .obj fields =>
      match ["name", "unique_id", "availability_topic", "device", "origin"].find? fun key =>
          !hasField fields key with
      | some key => .error (.discoveryError ("Bridge discovery payload missing " ++ key ++ "."))
      | none =>
        if !hasField fields "state_topic" ∧ !hasField fields "command_topic" then
          .error (.discoveryError
            "Bridge discovery payload must include a state or command topic.")
        else .ok ()
    | _ => .error (.discoveryError "Bridge discovery payload must be a dict.")

/-- The entities of `bridge_diagnostic_messages`, in its order. -/
def bridgeMessages (m : DiscoveryManager) (diag : MochadDiagnostics) :
    List (Except PyError DiscoveryMessage) :=
  [m.bridgeStatusSensorMessage diag,
   m.bridgeConnectivitySensorMessage diag,
   m.bridgeUsbSensorMessage diag,
   m.bridgeValueSensorMessage "mqtt_mochad_bridge_controller" "Controller Type"
    "\x7b\x7b value_json.mochad.health.controller | default('unknown') \x7d\x7d" diag,
   m.bridgeValueSensorMessage "mqtt_mochad_bridge_mochad_version" "Mochad Version"
    "\x7b\x7b value_json.mochad.version | default('unknown') \x7d\x7d" diag,
   m.bridgeCommandButtonMessage .sync "mqtt_mochad_bridge_sync" "Sync X10 Status" diag,
   m.bridgeCommandButtonMessage .rediscover "mqtt_mochad_bridge_rediscover"
    "Rediscover X10 Entities" diag] ++
  if m.enableMaintenanceButtons then
    [m.bridgeCommandButtonMessage .pruneDiscovery "mqtt_mochad_bridge_prune_discovery"
      "Prune Discovery" diag,
     m.bridgeCommandButtonMessage .resetDiscovery "mqtt_mochad_bridge_reset_discovery"
      "Reset Discovery" diag]
  else []

/-- `bridge_diagnostic_messages`. -/
def bridgeDiagnosticMessages (m : DiscoveryManager) (diag : MochadDiagnostics) :
    Except PyError (List DiscoveryMessage) := do
  let messages ← (m.bridgeMessages diag).mapM id
  messages.forM validateBridgeMessage
  return messages

end DiscoveryManager

end MochadBridge
