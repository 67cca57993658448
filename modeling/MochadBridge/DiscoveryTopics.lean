import MochadBridge.Discovery
import MochadBridge.TopicShape

/-!
# Where discovery is published

The messages for a device go to its discovery topic, the ones for the bridge
itself to topics with an object id of their own. So a discovery topic of a device
is reached by the messages for this device only.

Results:
1. `discoveryMessages_one`: the one message for a device.
2. `configTopic_of_device`, `not_configTopic_of_bridge`: the device a message is
   about, from its topic.
3. `bridgeDiagnosticMessages_ok_iff`: the messages for the bridge can be generated
   exactly if the prefix is valid.
-/

namespace MochadBridge

open Py

/-- A device discovery topic of the address, for a component of any device type. -/
def ConfigTopic (discoveryPrefix a topic : String) : Prop :=
  ∃ d, normalize d.address = a ∧ Topics.discovery d discoveryPrefix = .ok topic

theorem ConfigTopic.ends {pre a topic : String} (h : ConfigTopic pre a topic) :
    ∃ rest, Topics.ends topic = "config" :: ("x10_" ++ a) :: rest := by
  obtain ⟨d, rfl, htopic⟩ := h
  obtain ⟨_, rest, hends⟩ := Topics.ends_discovery htopic
  exact ⟨_, hends⟩

namespace DiscoveryManager

variable {m : DiscoveryManager} {diag : MochadDiagnostics}

/-- The one message for a device. -/
theorem discoveryMessages_one {d : DeviceConfig} {ms : List DiscoveryMessage}
    (h : m.discoveryMessages d diag = .ok ms) : ∃ topic fields,
      Topics.discovery d m.discoveryPrefix = .ok topic ∧ m.payload d diag = .ok fields ∧
      ms = [{ topic := topic, payload := .obj fields, retain := true }] := by
  obtain ⟨_, _, h⟩ := bind_ok h
  obtain ⟨fields, hfields, h⟩ := bind_ok h
  obtain ⟨topic, htopic, h⟩ := bind_ok h
  obtain ⟨_, _, h⟩ := bind_ok h
  exact ⟨topic, fields, htopic, hfields, (Except.ok.inj h).symm⟩

/-- The messages for a device go to its discovery topic. -/
theorem configTopic_of_device {d : DeviceConfig} {ms : List DiscoveryMessage}
    (h : m.discoveryMessages d diag = .ok ms) {msg : DiscoveryMessage} (hmsg : msg ∈ ms)
    {a : String} : ConfigTopic m.discoveryPrefix a msg.topic ↔ normalize d.address = a := by
  obtain ⟨topic, fields, htopic, _, rfl⟩ := discoveryMessages_one h
  rw [List.mem_singleton.mp hmsg]
  constructor
  · rintro ⟨d', rfl, htopic'⟩
    exact Topics.discovery_address htopic htopic'
  · rintro rfl
    exact ⟨d, rfl, htopic⟩

/-- The object ids of the bridge's own entities. -/
def bridgeObjectIds : List String :=
  ["mqtt_mochad_bridge_status", "mqtt_mochad_bridge_mochad_connected",
   "mqtt_mochad_bridge_usb_connected", "mqtt_mochad_bridge_controller",
   "mqtt_mochad_bridge_mochad_version", "mqtt_mochad_bridge_sync",
   "mqtt_mochad_bridge_rediscover", "mqtt_mochad_bridge_prune_discovery",
   "mqtt_mochad_bridge_reset_discovery"]

theorem plain_of_bridgeObjectIds : ∀ objectId ∈ bridgeObjectIds, Topics.Plain objectId := by
  intro objectId h
  simp only [bridgeObjectIds, List.mem_cons, List.not_mem_nil, or_false] at h
  rcases h with rfl | rfl | rfl | rfl | rfl | rfl | rfl | rfl | rfl <;>
    exact Topics.plain_of_letters (by decide) (by decide)

/-- No object id of the bridge is the unique id of a device. -/
theorem ne_uid_of_bridgeObjectIds {objectId k : String} (h : objectId ∈ bridgeObjectIds) :
    objectId ≠ "x10_" ++ k := by
  have hhead : objectId.toList.head? = some 'm' := by
    simp only [bridgeObjectIds, List.mem_cons, List.not_mem_nil, or_false] at h
    rcases h with rfl | rfl | rfl | rfl | rfl | rfl | rfl | rfl | rfl <;> decide
  rintro rfl
  rw [String.toList_append] at hhead
  exact absurd hhead (by simp)

/-- Every bridge entity has one of the components and one of the object ids. -/
theorem mem_bridgeMessages {x : Except PyError DiscoveryMessage} (h : x ∈ m.bridgeMessages diag) :
    ∃ component objectId name own, x = m.bridgeMessage component objectId name diag own ∧
      component ∈ ["sensor", "binary_sensor", "button"] ∧ objectId ∈ bridgeObjectIds := by
  have hshape : ∀ {component objectId name own},
      component ∈ ["sensor", "binary_sensor", "button"] → objectId ∈ bridgeObjectIds →
      x = m.bridgeMessage component objectId name diag own →
      ∃ component objectId name own, x = m.bridgeMessage component objectId name diag own ∧
        component ∈ ["sensor", "binary_sensor", "button"] ∧ objectId ∈ bridgeObjectIds :=
    fun hc ho hx => ⟨_, _, _, _, hx, hc, ho⟩
  rw [bridgeMessages, List.mem_append] at h
  rcases h with h | h
  · simp only [List.mem_cons, List.not_mem_nil, or_false] at h
    rcases h with h | h | h | h | h | h | h <;>
      exact hshape (by simp) (by simp [bridgeObjectIds]) h
  · split at h
    · simp only [List.mem_cons, List.not_mem_nil, or_false] at h
      rcases h with h | h <;> exact hshape (by simp) (by simp [bridgeObjectIds]) h
    · exact absurd h List.not_mem_nil

theorem bridgeMessage_ok {component objectId name : String}
    {own : Except PyError (List (String × Json))} {msg : DiscoveryMessage}
    (h : m.bridgeMessage component objectId name diag own = .ok msg) :
    Topics.bridgeDiscovery component objectId m.discoveryPrefix = .ok msg.topic ∧
      ∃ fields, msg.payload = .obj fields := by
  rw [bridgeMessage] at h
  obtain ⟨topic, htopic, h⟩ := bind_ok h
  obtain ⟨_, _, h⟩ := bind_ok h
  obtain ⟨fields, _, h⟩ := bind_ok h
  rw [← Except.ok.inj h]
  exact ⟨htopic, fields, rfl⟩

/-- The topic and the payload of a message for the bridge. -/
theorem bridgeEntity_of_mem {ms : List DiscoveryMessage}
    (h : m.bridgeDiagnosticMessages diag = .ok ms) {msg : DiscoveryMessage} (hmsg : msg ∈ ms) :
    (∃ component objectId, component ∈ ["sensor", "binary_sensor", "button"] ∧
      objectId ∈ bridgeObjectIds ∧
      Topics.bridgeDiscovery component objectId m.discoveryPrefix = .ok msg.topic) ∧
      ∃ fields, msg.payload = .obj fields := by
  rw [bridgeDiagnosticMessages] at h
  obtain ⟨messages, hmessages, h⟩ := bind_ok h
  obtain ⟨_, _, h⟩ := bind_ok h
  obtain rfl := Except.ok.inj h
  obtain ⟨x, hx, hxm⟩ := exists_of_mapM_ok hmessages hmsg
  obtain ⟨component, objectId, name, own, hentity, hc, ho⟩ := mem_bridgeMessages hx
  rw [id, hentity] at hxm
  obtain ⟨htopic, hfields⟩ := bridgeMessage_ok hxm
  exact ⟨⟨component, objectId, hc, ho, htopic⟩, hfields⟩

/-- The first of the messages for the bridge is that of its status. -/
theorem exists_mem_of_bridge {ms : List DiscoveryMessage}
    (h : m.bridgeDiagnosticMessages diag = .ok ms) : ∃ msg ∈ ms,
      m.bridgeStatusSensorMessage diag = .ok msg := by
  obtain ⟨messages, hmessages, h⟩ := bind_ok h
  obtain ⟨_, _, h⟩ := bind_ok h
  obtain rfl := Except.ok.inj h
  exact mem_of_mapM_ok hmessages List.mem_cons_self

/-- No message for the bridge goes to a discovery topic of a device. -/
theorem not_configTopic_of_bridge {ms : List DiscoveryMessage}
    (h : m.bridgeDiagnosticMessages diag = .ok ms) {msg : DiscoveryMessage} (hmsg : msg ∈ ms)
    {pre a : String} : ¬ ConfigTopic pre a msg.topic := by
  intro hconfig
  obtain ⟨component, objectId, hc, ho, htopic⟩ := (bridgeEntity_of_mem h hmsg).1
  have hplain : Topics.Plain component := by
    simp only [List.mem_cons, List.not_mem_nil, or_false] at hc
    rcases hc with rfl | rfl | rfl <;> exact Topics.plain_of_letters (by decide) (by decide)
  obtain ⟨_, hends⟩ := Topics.ends_bridgeDiscovery hplain (plain_of_bridgeObjectIds _ ho) htopic
  obtain ⟨_, hends'⟩ := hconfig.ends
  rw [hends] at hends'
  exact ne_uid_of_bridgeObjectIds ho (List.cons.inj (List.cons.inj hends').2).1

theorem hasField_append (l l' : List (String × Json)) (name : String) :
    hasField (l ++ l') name = (hasField l name || hasField l' name) := by
  simp only [hasField, Json.field?, List.lookup_append]
  cases List.lookup name l <;> rfl

/-! ## Which messages for the bridge can be generated -/

/-- The message is generated, and passes its check. -/
def Generated (x : Except PyError DiscoveryMessage) : Prop :=
  ∃ msg, x = .ok msg ∧ validateBridgeMessage msg = .ok ()

section Generated
variable {pre base : String} (hpre : Topics.cleanSegment m.discoveryPrefix = .ok pre)
  (hbase : Topics.cleanSegment m.baseTopic = .ok base)
include hpre hbase

/-- So is that of an entity with a status or a command topic. -/
theorem bridgeMessage_generated {component objectId : String} (name : String)
    {own : List (String × Json)} (hc : component ∈ ["sensor", "binary_sensor", "button"])
    (ho : objectId ∈ bridgeObjectIds)
    (hown : hasField own "state_topic" = true ∨ hasField own "command_topic" = true) :
    Generated (m.bridgeMessage component objectId name diag (.ok own)) := by
  have hplain : Topics.Plain component := by
    simp only [List.mem_cons, List.not_mem_nil, or_false] at hc
    rcases hc with rfl | rfl | rfl <;> exact Topics.plain_of_letters (by decide) (by decide)
  have hav : Topics.cleanSegment "availability" = .ok "availability" :=
    Topics.cleanSegment_fixed _ (by simp)
  set front : List (String × Json) := [("name", .str name), ("unique_id", .str objectId),
    ("default_entity_id", .str (defaultEntityId component objectId))] with hfront
  set back : List (String × Json) :=
    [("availability_topic", .str ("/".intercalate [base, "bridge", "availability"])),
     ("entity_category", .str "diagnostic"), ("device", .obj (m.deviceBlock diag)),
     ("origin", .obj (m.originBlock diag))] with hback
  have hmessage : m.bridgeMessage component objectId name diag (.ok own) =
      .ok { topic := "/".intercalate [pre, component, objectId, "config"]
            payload := .obj (front ++ own ++ back)
            retain := true } := by
    simp only [bridgeMessage, bridgeFields, Topics.bridgeDiscovery, Topics.availability,
      Topics.bridgeTopic, hpre, hplain.1, (plain_of_bridgeObjectIds _ ho).1, hbase, hav]
    rfl
  have htopic : "/".intercalate [pre, component, objectId, "config"] ≠ "" :=
    intercalate_ne_empty pre component [objectId, "config"]
  have hrequired : ["name", "unique_id", "availability_topic", "device", "origin"].find? (fun key =>
      !hasField (front ++ own ++ back) key) = none := by
    simp [hfront, hback, hasField, Json.field?, List.lookup_cons]
  have hlinked : ¬ (!hasField (front ++ own ++ back) "state_topic" ∧
      !hasField (front ++ own ++ back) "command_topic") := by
    rcases hown with h | h <;> simp [hasField_append, h]
  refine ⟨_, hmessage, ?_⟩
  simp only [validateBridgeMessage, if_neg htopic, hrequired, if_neg hlinked]

theorem valueSensor_generated {objectId : String} (ho : objectId ∈ bridgeObjectIds)
    (name valueTemplate : String) :
    Generated (m.bridgeValueSensorMessage objectId name valueTemplate diag) := by
  have hs : Topics.cleanSegment "status" = .ok "status" := Topics.cleanSegment_fixed _ (by simp)
  simp only [bridgeValueSensorMessage, Topics.status, Topics.bridgeTopic, hbase, hs]
  exact bridgeMessage_generated hpre hbase name (by simp) ho (.inl rfl)

theorem connectivitySensor_generated {objectId : String} (ho : objectId ∈ bridgeObjectIds)
    (name valueKey : String) :
    Generated (m.connectivitySensorMessage objectId name valueKey diag) := by
  have hs : Topics.cleanSegment "status" = .ok "status" := Topics.cleanSegment_fixed _ (by simp)
  simp only [connectivitySensorMessage, Topics.status, Topics.bridgeTopic, hbase, hs]
  exact bridgeMessage_generated hpre hbase name (by simp) ho (.inl rfl)

theorem commandButton_generated (command : BridgeCommand) {objectId : String}
    (ho : objectId ∈ bridgeObjectIds) (name : String) :
    Generated (m.bridgeCommandButtonMessage command objectId name diag) := by
  simp only [bridgeCommandButtonMessage, Topics.bridgeCommand, hbase]
  exact bridgeMessage_generated hpre hbase name (by simp) ho (.inr rfl)

theorem bridgeMessages_generated {x : Except PyError DiscoveryMessage}
    (hx : x ∈ m.bridgeMessages diag) : Generated x := by
  rw [bridgeMessages, List.mem_append] at hx
  rcases hx with hx | hx
  · simp only [List.mem_cons, List.not_mem_nil, or_false] at hx
    rcases hx with hx | hx | hx | hx | hx | hx | hx <;> rw [hx]
    · exact valueSensor_generated hpre hbase (by simp [bridgeObjectIds]) _ _
    · exact connectivitySensor_generated hpre hbase (by simp [bridgeObjectIds]) _ _
    · exact connectivitySensor_generated hpre hbase (by simp [bridgeObjectIds]) _ _
    · exact valueSensor_generated hpre hbase (by simp [bridgeObjectIds]) _ _
    · exact valueSensor_generated hpre hbase (by simp [bridgeObjectIds]) _ _
    · exact commandButton_generated hpre hbase _ (by simp [bridgeObjectIds]) _
    · exact commandButton_generated hpre hbase _ (by simp [bridgeObjectIds]) _
  · split at hx
    · simp only [List.mem_cons, List.not_mem_nil, or_false] at hx
      rcases hx with hx | hx <;> rw [hx] <;>
        exact commandButton_generated hpre hbase _ (by simp [bridgeObjectIds]) _
    · exact absurd hx List.not_mem_nil

end Generated

/-- The messages for the bridge can be generated exactly if the prefix is valid. -/
theorem bridgeDiagnosticMessages_ok_iff {base : String}
    (hbase : Topics.cleanSegment m.baseTopic = .ok base) :
    (∃ ms, m.bridgeDiagnosticMessages diag = .ok ms) ↔
      ∃ pre, Topics.cleanSegment m.discoveryPrefix = .ok pre := by
  constructor
  · rintro ⟨ms, h⟩
    obtain ⟨msg, _, hmsg⟩ := exists_mem_of_bridge h
    obtain ⟨pre, hpre, _⟩ := bind_ok (bridgeMessage_ok hmsg).1
    exact ⟨pre, hpre⟩
  · rintro ⟨pre, hpre⟩
    have hall : ∀ x ∈ m.bridgeMessages diag, Generated x := fun x =>
      bridgeMessages_generated hpre hbase
    obtain ⟨messages, hmessages⟩ := (mapM_ok_iff (f := id)).mpr fun x hx =>
      (hall x hx).imp fun _ h => h.1
    have hvalid : ∀ msg ∈ messages, validateBridgeMessage msg = .ok () := by
      intro msg hmsg
      obtain ⟨x, hx, hxm⟩ := exists_of_mapM_ok hmessages hmsg
      obtain ⟨msg', hmsg', hv⟩ := hall x hx
      rw [id, hmsg', Except.ok.injEq] at hxm
      rw [← hxm]
      exact hv
    have hchecks : ∀ ms : List DiscoveryMessage,
        (∀ msg ∈ ms, validateBridgeMessage msg = .ok ()) →
        ms.forM validateBridgeMessage = .ok ⟨⟩ := by
      intro ms h
      induction ms with
      | nil => rfl
      | cons msg ms ih =>
        have hrest := ih fun msg' h' => h msg' (List.mem_cons_of_mem _ h')
        show (validateBridgeMessage msg >>= fun _ => ms.forM validateBridgeMessage) = _
        rw [h msg List.mem_cons_self]
        exact hrest
    refine ⟨messages, ?_⟩
    rw [bridgeDiagnosticMessages, hmessages]
    show (messages.forM validateBridgeMessage >>= fun _ => _) = _
    rw [hchecks messages hvalid]
    rfl

end DiscoveryManager

end MochadBridge
