import MochadBridge.Config
import MochadBridge.Discovery

/-!
# When discovery can be generated

Three places decide whether a device is a button: its entity type names the
component in the topic, its entity type or missing state selects the payload,
and the second segment of the topic selects the fields that are required.

Results:
1. `discoveryMessages_ok_iff`: `discovery_messages` returns exactly if payload
   and topic agree; `discoveryMessages_ok`: what it returns.
2. `generates_iff`: for a configured device it returns a message whose payload
   fits its component exactly if the address is canonical, the device is a chime
   or stateful, and the second segment of a prefix with several segments is
   `button` just for chimes.
-/

namespace MochadBridge

open Py DiscoveryManager

/-! ## Shape of a message -/

/-- The component of a discovery topic: the segment before the object id and
`config`. -/
def topicComponent (topic : String) : Option String := (split topic '/').reverse[2]?

/-- The payload has the shape its component asks for. -/
def ShapeMatches (message : DiscoveryMessage) : Prop :=
  ∃ fields, message.payload = .obj fields ∧
    if topicComponent message.topic = some "button" then
      hasField fields "payload_press" = true ∧ hasField fields "state_topic" = false
    else
      hasField fields "state_topic" = true ∧ hasField fields "payload_on" = true ∧
        hasField fields "payload_off" = true

/-- Discovery is generated, with a payload of the right shape. -/
def Generates (m : DiscoveryManager) (d : DeviceConfig) (diag : MochadDiagnostics) : Prop :=
  ∃ message, m.discoveryMessages d diag = .ok [message] ∧ ShapeMatches message

/-- The second segment of the topic is `button` exactly for a chime, in terms
of the cleaned prefix. -/
def PrefixFits (pre : String) (d : DeviceConfig) : Prop :=
  (split pre '/').length = 1 ∨ ((split pre '/')[1]? = some "button" ↔ d.entityType = .chime)

/-! ## The parts of a message -/

section Parts
variable {m : DiscoveryManager} {d : DeviceConfig} {diag : MochadDiagnostics} {a base pre : String}

/-- What the two checks gave for a device and the two settings. -/
structure Checked (m : DiscoveryManager) (d : DeviceConfig) (a base pre : String) : Prop where
  address : Topics.address d.address = .ok a
  base : Topics.cleanSegment m.baseTopic = .ok base
  pre : Topics.cleanSegment m.discoveryPrefix = .ok pre

/-- The topic of a device. -/
def discoveryTopic (pre a : String) (d : DeviceConfig) : String :=
  "/".intercalate [pre, Topics.entityType d, "x10_" ++ a, "config"]

theorem topic_eq (h : Checked m d a base pre) :
    Topics.discovery d m.discoveryPrefix = .ok (discoveryTopic pre a d) := by
  simp only [Topics.discovery, Topics.uniqueId, h.pre, h.address]
  rfl

theorem split_discoveryTopic (ha : IsAddress a) :
    split (discoveryTopic pre a d) '/' =
      split pre '/' ++ [Topics.entityType d, "x10_" ++ a, "config"] := by
  refine split_intercalate pre fun t ht => ?_
  simp only [List.mem_cons, List.not_mem_nil, or_false] at ht
  rcases ht with rfl | rfl | rfl
  · unfold Topics.entityType
    split <;> decide
  · rw [String.toList_append, List.mem_append, not_or]
    exact ⟨by decide, ha.slash_not_mem⟩
  · decide

theorem topicComponent_discoveryTopic (ha : IsAddress a) :
    topicComponent (discoveryTopic pre a d) = some (Topics.entityType d) := by
  rw [topicComponent, split_discoveryTopic ha]
  simp

theorem entityType_eq_button : Topics.entityType d = "button" ↔ d.entityType = .chime := by
  unfold Topics.entityType
  split <;> simp_all

/-- The fields are required of a button exactly if the prefix says so. -/
theorem isButtonTopic_iff (pre : String) (ha : IsAddress a) :
    (isButtonTopic (discoveryTopic pre a d) = true ↔ d.entityType = .chime) ↔
      PrefixFits pre d := by
  have hne : split pre '/' ≠ [] := by simp [split, List.splitOn]
  unfold PrefixFits isButtonTopic
  rw [split_discoveryTopic ha, beq_iff_eq]
  cases hs : split pre '/' with
  | nil => exact absurd hs hne
  | cons s l =>
    cases l with
    | nil => simp [entityType_eq_button]
    | cons t l => simp

/-! ### Payloads and their check -/

/-- The payload of a button, from its parts. -/
def buttonFields (name uid command availability : String) (device origin : List (String × Json)) :
    List (String × Json) :=
  [("name", .str name), ("unique_id", .str uid),
    ("default_entity_id", .str (defaultEntityId "button" uid)), ("command_topic", .str command),
    ("payload_press", .str "ON"), ("availability_topic", .str availability),
    ("device", .obj device), ("origin", .obj origin)]

/-- The payload of a stateful device, from its parts. -/
def statefulFields (name uid entityId state command availability : String)
    (device origin : List (String × Json)) : List (String × Json) :=
  [("name", .str name), ("unique_id", .str uid), ("default_entity_id", .str entityId),
    ("state_topic", .str state), ("command_topic", .str command),
    ("availability_topic", .str availability), ("payload_on", .str "ON"),
    ("payload_off", .str "OFF"), ("device", .obj device), ("origin", .obj origin)]

/-- The device block has the required keys. -/
theorem deviceBlock_complete (m : DiscoveryManager) (diag : MochadDiagnostics) :
    ["identifiers", "name", "manufacturer", "model", "sw_version"].find? (fun key =>
      !hasField (m.deviceBlock diag) key) = none := by
  simp [deviceBlock, hasField, Json.field?, List.lookup_append, List.lookup_cons]

/-- A payload with the required fields, none of the ids and topics blank and a
complete device block passes the check. -/
theorem validateMessage_ok (m : DiscoveryManager) (diag : MochadDiagnostics) {topic : String} {fields : List (String × Json)} (ht : topic ≠ "")
    (hreq : ∀ name ∈ requiredPayloadFields topic, hasField fields name = true)
    (hblank : ∀ name ∈ ["unique_id", "state_topic", "command_topic", "availability_topic"],
      isBlankField fields name = false)
    (hdev : objectField fields "device" = m.deviceBlock diag) :
    validateMessage topic fields = .ok () := by
  have hmissing : (requiredPayloadFields topic).filter (fun name => !hasField fields name) = [] :=
    List.filter_eq_nil_iff.mpr fun name hname => by simp [hreq name hname]
  have hkeys := deviceBlock_complete m diag
  rw [← hdev] at hkeys
  simp only [List.mem_cons, List.not_mem_nil, or_false, forall_eq_or_imp, forall_eq] at hblank
  simp only [validateMessage, hmissing, ne_eq, not_true, ht, hblank.1, hblank.2.1, hblank.2.2.1,
    hblank.2.2.2, Bool.false_eq_true, if_false, hkeys]

/-- A payload without a required field does not pass. -/
theorem validateMessage_missing (name : String) {topic : String} {fields : List (String × Json)}
    (hreq : name ∈ requiredPayloadFields topic) (h : hasField fields name = false) :
    validateMessage topic fields ≠ .ok () := by
  have hne : (requiredPayloadFields topic).filter (fun name => !hasField fields name) ≠ [] :=
    List.ne_nil_of_mem (List.mem_filter.mpr ⟨hreq, by simp [h]⟩)
  simp [validateMessage, hne]

/-- The payload of a button passes the check exactly for button topics. -/
theorem validateMessage_button {topic name uid command availability : String}
    {origin : List (String × Json)} (ht : topic ≠ "") (hu : uid ≠ "") (hc : command ≠ "")
    (ha : availability ≠ "") :
    validateMessage topic
        (buttonFields name uid command availability (m.deviceBlock diag) origin) = .ok () ↔
      isButtonTopic topic = true := by
  cases hb : isButtonTopic topic with
  | true =>
    refine iff_of_true (validateMessage_ok m diag ht ?_ ?_ ?_) rfl
    · simp [requiredPayloadFields, hb, hasField, buttonFields, Json.field?, List.lookup_cons]
    · simp [isBlankField, buttonFields, Json.field?, List.lookup_cons, hu, hc, ha]
    · simp [objectField, buttonFields, Json.field?, List.lookup_cons]
  | false =>
    refine iff_of_false (validateMessage_missing "state_topic" ?_ ?_) Bool.false_ne_true
    · simp [requiredPayloadFields, hb]
    · simp [hasField, buttonFields, Json.field?, List.lookup_cons]

/-- The payload of a stateful device passes the check exactly for the other
topics. -/
theorem validateMessage_stateful {topic name uid entityId state command availability : String}
    {origin : List (String × Json)} (ht : topic ≠ "") (hu : uid ≠ "") (hs : state ≠ "")
    (hc : command ≠ "") (ha : availability ≠ "") :
    validateMessage topic (statefulFields name uid entityId state command availability
        (m.deviceBlock diag) origin) = .ok () ↔ isButtonTopic topic = false := by
  cases hb : isButtonTopic topic with
  | true =>
    refine iff_of_false (validateMessage_missing "payload_press" ?_ ?_) (by simp)
    · simp [requiredPayloadFields, hb]
    · simp [hasField, statefulFields, Json.field?, List.lookup_cons]
  | false =>
    refine iff_of_true (validateMessage_ok m diag ht ?_ ?_ ?_) rfl
    · simp [requiredPayloadFields, hb, hasField, statefulFields, Json.field?, List.lookup_cons]
    · simp [isBlankField, statefulFields, Json.field?, List.lookup_cons, hu, hs, hc, ha]
    · simp [objectField, statefulFields, Json.field?, List.lookup_cons]

theorem buttonPayload_eq (diag : MochadDiagnostics) (h : Checked m d a base pre) :
    ∃ command availability, command ≠ "" ∧ availability ≠ "" ∧
      m.buttonPayload d diag = .ok (buttonFields d.name ("x10_" ++ a) command availability
        (m.deviceBlock diag) (m.originBlock diag)) := by
  refine ⟨_, _, intercalate_ne_empty base a ["command"],
    intercalate_ne_empty base "bridge" ["availability"], ?_⟩
  have hc : Topics.cleanSegment "command" = .ok "command" := Topics.cleanSegment_fixed _ (by simp)
  have hav : Topics.cleanSegment "availability" = .ok "availability" :=
    Topics.cleanSegment_fixed _ (by simp)
  simp only [buttonPayload, Topics.uniqueId, Topics.command, Topics.deviceTopic,
    Topics.availability, Topics.bridgeTopic, h.address, h.base, hc, hav]
  rfl

theorem statefulPayload_eq (diag : MochadDiagnostics) (h : Checked m d a base pre) :
    ∃ entityId state command availability, state ≠ "" ∧ command ≠ "" ∧ availability ≠ "" ∧
      m.statefulPayload d diag = .ok (statefulFields d.name ("x10_" ++ a) entityId state command
        availability (m.deviceBlock diag) (m.originBlock diag)) := by
  refine ⟨defaultEntityId (Topics.entityType d) ("x10_" ++ a), _, _, _,
    intercalate_ne_empty base a ["state"],
    intercalate_ne_empty base a ["command"],
    intercalate_ne_empty base "bridge" ["availability"], ?_⟩
  have hs : Topics.cleanSegment "state" = .ok "state" := Topics.cleanSegment_fixed _ (by simp)
  have hc : Topics.cleanSegment "command" = .ok "command" := Topics.cleanSegment_fixed _ (by simp)
  have hav : Topics.cleanSegment "availability" = .ok "availability" :=
    Topics.cleanSegment_fixed _ (by simp)
  simp only [statefulPayload, Topics.uniqueId, Topics.state, Topics.command, Topics.deviceTopic,
    Topics.availability, Topics.bridgeTopic, h.address, h.base, hs, hc, hav]
  rfl

/-! ### The whole function -/

/-- `_payload` takes the branch of a button. -/
def IsButton (d : DeviceConfig) : Prop := d.entityType = .chime ∨ d.stateful = false

instance (d : DeviceConfig) : Decidable (IsButton d) := inferInstanceAs (Decidable (_ ∨ _))

theorem validateDevice_ok (h : Checked m d a base pre) (hn : strip d.name ≠ "") :
    validateDevice d = .ok () := by
  simp only [validateDevice, if_neg hn, Topics.uniqueId, h.address]
  rfl

theorem discoveryMessages_eq (h : Checked m d a base pre) (hn : strip d.name ≠ "")
    {fields : List (String × Json)} (hp : m.payload d diag = .ok fields) :
    m.discoveryMessages d diag = (validateMessage (discoveryTopic pre a d) fields).map fun _ =>
      [{ topic := discoveryTopic pre a d, payload := .obj fields, retain := true }] := by
  simp only [discoveryMessages, validateDevice_ok h hn, hp, topic_eq h]
  cases hv : validateMessage (discoveryTopic pre a d) fields <;>
    simp [bind, Except.bind, pure, Except.pure, Except.map, hv]

/-- The payload passes its check exactly if payload and topic agree on whether
the device is a button. -/
theorem payload_checked (diag : MochadDiagnostics) (h : Checked m d a base pre) :
    ∃ fields, m.payload d diag = .ok fields ∧
      (validateMessage (discoveryTopic pre a d) fields = .ok () ↔
        (isButtonTopic (discoveryTopic pre a d) = true ↔ IsButton d)) ∧
      hasField fields "payload_press" = decide (IsButton d) ∧
      hasField fields "state_topic" = decide (¬ IsButton d) ∧
      hasField fields "payload_on" = decide (¬ IsButton d) ∧
      hasField fields "payload_off" = decide (¬ IsButton d) := by
  have ht : discoveryTopic pre a d ≠ "" := intercalate_ne_empty pre (Topics.entityType d) _
  have hu : "x10_" ++ a ≠ "" := by simp
  unfold payload
  by_cases hb : IsButton d
  · rw [if_pos (show _ ∨ _ from hb)]
    obtain ⟨command, availability, hc, hav, he⟩ := buttonPayload_eq diag h
    refine ⟨_, he, ?_, ?_⟩
    · rw [validateMessage_button ht hu hc hav, iff_true_right hb]
    · simp [hasField, buttonFields, Json.field?, List.lookup_cons, hb]
  · rw [if_neg (show ¬ (_ ∨ _) from hb)]
    obtain ⟨entityId, state, command, availability, hs, hc, hav, he⟩ :=
      statefulPayload_eq diag h
    refine ⟨_, he, ?_, ?_⟩
    · rw [validateMessage_stateful ht hu hs hc hav, iff_false_right hb, Bool.not_eq_true]
    · simp [hasField, statefulFields, Json.field?, List.lookup_cons, hb]

/-- A message is returned exactly if payload and topic agree on whether the
device is a button; its topic is the device's. -/
theorem discoveryMessages_ok_iff (h : Checked m d a base pre) (hn : strip d.name ≠ "") :
    (∃ messages, m.discoveryMessages d diag = .ok messages) ↔
      (isButtonTopic (discoveryTopic pre a d) = true ↔ IsButton d) := by
  obtain ⟨fields, hp, hv, _⟩ := payload_checked diag h
  rw [discoveryMessages_eq h hn hp, ← hv]
  cases validateMessage (discoveryTopic pre a d) fields <;> simp [Except.map]

theorem discoveryMessages_ok (h : Checked m d a base pre) (hn : strip d.name ≠ "")
    {messages : List DiscoveryMessage} (hok : m.discoveryMessages d diag = .ok messages) :
    ∃ fields, messages = [{ topic := discoveryTopic pre a d, payload := .obj fields }] ∧
      m.payload d diag = .ok fields := by
  obtain ⟨fields, hp, _⟩ := payload_checked diag h
  rw [discoveryMessages_eq h hn hp] at hok
  cases hv : validateMessage (discoveryTopic pre a d) fields with
  | error e => rw [hv] at hok; cases hok
  | ok u =>
    rw [hv] at hok
    exact ⟨fields, (Except.ok.inj hok).symm, hp⟩

/-- A device whose address is no X10 address has no discovery. -/
theorem discoveryMessages_error (ha : ¬ IsAddress (upper (strip d.address))) :
    ¬ ∃ messages, m.discoveryMessages d diag = .ok messages := by
  rintro ⟨messages, h⟩
  obtain ⟨_, hv, _⟩ := bind_ok h
  have haddr : Topics.address d.address =
      .error (.topicError ("Invalid X10 device address '" ++ upper (strip d.address) ++ "'.")) := by
    simp only [Topics.address]
    exact if_neg ha
  simp only [validateDevice, Topics.uniqueId, haddr] at hv
  split at hv <;> cases hv

/-- The payload fits the component of the topic exactly if both take the device
for a button or neither does. -/
theorem generates_iff_agree (h : Checked m d a base pre) (ha : IsAddress a)
    (hn : strip d.name ≠ "") :
    Generates m d diag ↔
      (isButtonTopic (discoveryTopic pre a d) = true ↔ IsButton d) ∧
        (IsButton d ↔ d.entityType = .chime) := by
  obtain ⟨fields, hp, hv, hpress, hstate, hon, hoff⟩ := payload_checked diag h
  have hcomp : topicComponent (discoveryTopic pre a d) = some "button" ↔ d.entityType = .chime := by
    rw [topicComponent_discoveryTopic ha, Option.some_inj, entityType_eq_button]
  have hshape : ShapeMatches { topic := discoveryTopic pre a d, payload := .obj fields } ↔
      (IsButton d ↔ d.entityType = .chime) := by
    unfold ShapeMatches
    simp only [Json.obj.injEq, exists_eq_left', hcomp, hpress, hstate, hon, hoff]
    by_cases hc : d.entityType = .chime <;> by_cases hb : IsButton d <;> simp [hc, hb]
  rw [← hv, ← hshape]
  unfold Generates
  rw [discoveryMessages_eq h hn hp]
  cases hv' : validateMessage (discoveryTopic pre a d) fields with
  | error e => simp [Except.map]
  | ok u => simp [Except.map]

end Parts

/-- Discovery is generated for a device of a parsed table exactly if its address
is an X10 address, it is a chime or has a state, and the prefix does not name
its component wrong. -/
theorem generates_iff {raw : Option String} {friendly : Bool} {t : Config.DeviceTable}
    {k : String} {d : DeviceConfig}
    (hparse : Config.parseDevices raw friendly = .ok t ∨
      ∃ rawConfig, Config.parseDeviceConfig rawConfig friendly = .ok t)
    (hget : t.get? k = some d) (m : DiscoveryManager) {pre base : String}
    (hpre : Topics.cleanSegment m.discoveryPrefix = .ok pre)
    (hbase : Topics.cleanSegment m.baseTopic = .ok base) (diag : MochadDiagnostics) :
    Generates m d diag ↔
      IsAddress d.address ∧ (d.entityType = .chime ∨ d.stateful = true) ∧ PrefixFits pre d := by
  have hconf : Config.Configured k d :=
    hparse.elim (fun h => Config.parseDevices_configured h k d hget)
      (fun ⟨_, h⟩ => Config.parseDeviceConfig_configured h k d hget)
  have hnorm : upper (strip d.address) = d.address := by rw [hconf.address, hconf.normal]
  by_cases ha : IsAddress d.address
  · have h : Checked m d d.address base pre :=
      ⟨Topics.address_ok.mpr ⟨hnorm.symm, ha⟩, hbase, hpre⟩
    rw [generates_iff_agree h ha hconf.named, ← isButtonTopic_iff pre ha]
    simp only [ha, true_and, IsButton]
    cases hs : d.stateful with
    | true => simp
    | false => by_cases hc : d.entityType = .chime <;> simp [hc]
  · refine iff_of_false ?_ fun h => ha h.1
    rintro ⟨message, hok, _⟩
    exact discoveryMessages_error (by rwa [hnorm]) ⟨_, hok⟩

/-- A device found in the result of a parse is one of a parsed table. -/
theorem parsed_device {raw : Option String} {b : Bool} {k : String} {d : DeviceConfig}
    (h : (Config.parseDevices raw b).toOption.bind (·.get? k) = some d) :
    ∃ t, Config.parseDevices raw b = .ok t ∧ t.get? k = some d := by
  obtain ⟨t, ht, hget⟩ := Option.bind_eq_some_iff.mp h
  cases hp : Config.parseDevices raw b with
  | error e => rw [hp] at ht; cases ht
  | ok t' => rw [hp] at ht; exact ⟨t', rfl, Option.some.inj ht ▸ hget⟩

theorem generates_lamp :
    ∃ t d, Config.parseDevices (some "A1:Lamp:light") true = .ok t ∧ t.get? "A1" = some d ∧
      Generates { discoveryPrefix := "homeassistant", baseTopic := "x10" } d {} := by
  have hrun : ((Config.parseDevices (some "A1:Lamp:light") true).toOption.bind
      (·.get? "A1")).map (fun d => (d.address, d.stateful)) = some ("A1", true) := by
    decide +kernel
  obtain ⟨d, hd, hfields⟩ := Option.map_eq_some_iff.mp hrun
  obtain ⟨t, hparse, hget⟩ := parsed_device hd
  obtain ⟨haddr, hstate⟩ := Prod.mk.inj hfields
  have hpre : Topics.cleanSegment "homeassistant" = .ok "homeassistant" :=
    Topics.cleanSegment_fixed _ (by simp)
  have hbase : Topics.cleanSegment "x10" = .ok "x10" := Topics.cleanSegment_fixed _ (by simp)
  refine ⟨t, d, hparse, hget, (generates_iff (.inl hparse) hget
    { discoveryPrefix := "homeassistant", baseTopic := "x10" } hpre hbase {}).mpr ?_⟩
  exact ⟨by rw [haddr]; decide, .inr hstate, .inl (by decide)⟩

/-- No discovery is generated for a momentary relay, which the configuration
accepts: it is a switch without state, so it gets the payload of a button under
a topic that asks for the fields of a switch. -/
theorem not_generates_momentary :
    let m : DiscoveryManager := { discoveryPrefix := "homeassistant", baseTopic := "x10" }
    Topics.cleanSegment m.discoveryPrefix = .ok "homeassistant" ∧
      Topics.cleanSegment m.baseTopic = .ok "x10" ∧
      ∃ t d, Config.parseDevices (some "A1:Relay:um506_momentary") true = .ok t ∧
        t.get? "A1" = some d ∧
        m.discoveryMessages d {} = .error (.discoveryError ("Discovery payload missing required " ++
          "fields: payload_off, payload_on, state_topic")) ∧
        ¬ Generates m d {} := by
  intro m
  refine ⟨Topics.cleanSegment_fixed _ (by simp [m]), Topics.cleanSegment_fixed _ (by simp [m]), ?_⟩
  have hrun : ((Config.parseDevices (some "A1:Relay:um506_momentary") true).toOption.bind
      (·.get? "A1")).map (m.discoveryMessages · {}) =
      some (.error (.discoveryError ("Discovery payload missing required " ++
        "fields: payload_off, payload_on, state_topic"))) := by
    decide +kernel
  obtain ⟨d, hd, herr⟩ := Option.map_eq_some_iff.mp hrun
  obtain ⟨t, hparse, hget⟩ := parsed_device hd
  refine ⟨t, d, hparse, hget, herr, ?_⟩
  rintro ⟨message, hok, _⟩
  rw [herr] at hok
  cases hok

end MochadBridge
