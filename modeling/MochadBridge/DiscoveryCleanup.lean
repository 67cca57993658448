import MochadBridge.DiscoveryTopics

/-!
# The cleanup tool

`tools/ha_mqtt_discovery_cleanup.py` tells the discovery configs of the bridge from
others by their topics and payloads. It takes a topic apart at its slashes, where the
bridge has joined it from a prefix it cleaned in another way and may hold slashes.

Results:
1. `isDiscoveryConfigTopic_iff`: when a topic of the bridge is a config topic to the
   tool.
2. `recognises_iff`: the tool recognises what the bridge publishes exactly if the
   cleaned prefix is one segment, and the prefix differs from it in slashes only.
-/

namespace MochadBridge

open Py

namespace Cleanup

/-! ## The tool -/

def bridgeUniqueIdPrefix : String := "mqtt_mochad_bridge_"

/-- `X10_UNIQUE_ID_RE.fullmatch`. -/
def isX10UniqueId (s : String) : Bool :=
  startsWith s "x10_" && matchesAddress isHouse (s.toList.drop 4)

/-- The id is one of a device or of the bridge. -/
def isOwnedId (id : String) : Bool := isX10UniqueId id || startsWith id bridgeUniqueIdPrefix

/-- `is_discovery_config_topic`. -/
def isDiscoveryConfigTopic (topic discoveryPrefix : String) : Bool :=
  let parts := split (stripChars ['/'] topic) '/'
  parts.length == 4 && parts.head? == some (stripChars ['/'] discoveryPrefix) &&
    parts.getLast? == some "config"

/-- `topic_has_bridge_owned_object_id`. -/
def topicHasBridgeOwnedObjectId (topic discoveryPrefix : String) : Bool :=
  if !isDiscoveryConfigTopic topic discoveryPrefix then false
  else
    match (split (stripChars ['/'] topic) '/')[2]? with
    | some objectId => isOwnedId objectId
    | none => false

/-- `payload_has_bridge_identifier`. -/
def payloadHasBridgeIdentifier (payload : List (String × Json)) : Bool :=
  match Json.field? payload "device" with
  | some (.obj device) =>
    match Json.field? device "identifiers" with
    | some (.str identifiers) => identifiers == bridgeDeviceIdentifier
    | some (.arr identifiers) => identifiers.contains (.str bridgeDeviceIdentifier)
    | _ => false
  | _ => false

/-- `is_bridge_owned_discovery`. -/
def isBridgeOwnedDiscovery (topic : String) (payload : List (String × Json))
    (discoveryPrefix : String) : Bool :=
  if !isDiscoveryConfigTopic topic discoveryPrefix then false
  else
    let ownedId : Bool :=
      match Json.field? payload "unique_id" with
      | some (.str uniqueId) => isOwnedId uniqueId
      | _ => false
    ownedId || topicHasBridgeOwnedObjectId topic discoveryPrefix ||
      payloadHasBridgeIdentifier payload

/-! ## What the bridge publishes -/

/-- The message is one of `discovery_messages` or of `bridge_diagnostic_messages`. -/
def Publishes (m : DiscoveryManager) (message : DiscoveryMessage) : Prop :=
  ∃ diag messages, message ∈ messages ∧
    ((∃ device, m.discoveryMessages device diag = .ok messages) ∨
      m.bridgeDiagnosticMessages diag = .ok messages)

/-- Under the prefix, the tool recognises whatever the bridge publishes. -/
def Recognises (discoveryPrefix : String) : Prop :=
  ∀ m : DiscoveryManager, m.discoveryPrefix = discoveryPrefix → ∀ message, Publishes m message →
    ∃ fields, message.payload = .obj fields ∧
      isBridgeOwnedDiscovery message.topic fields discoveryPrefix = true

/-- The cleaned prefix is one segment, which the tool has too. -/
def FitsTool (discoveryPrefix p : String) : Prop :=
  '/' ∉ p.toList ∧ stripChars ['/'] discoveryPrefix = p

section Topic
variable {discoveryPrefix p component objectId : String}

theorem length_split_eq_one_iff : (split p '/').length = 1 ↔ '/' ∉ p.toList := by
  constructor
  · intro h
    obtain ⟨segment, hsplit⟩ := List.length_eq_one_iff.mp h
    have hmem : segment ∈ split p '/' := by
      rw [hsplit]
      exact List.mem_singleton.mpr rfl
    have hjoin := intercalate_split p '/'
    rw [hsplit] at hjoin
    have hself : segment = p := by simpa using hjoin
    exact hself ▸ not_mem_of_mem_split hmem
  · intro h
    rw [split_eq_singleton h]
    rfl

theorem split_configTopic (p : String) (hc : '/' ∉ component.toList)
    (ho : '/' ∉ objectId.toList) :
    split ("/".intercalate [p, component, objectId, "config"]) '/' =
      split p '/' ++ [component, objectId, "config"] := by
  refine split_intercalate p fun t ht => ?_
  simp only [List.mem_cons, List.not_mem_nil, or_false] at ht
  rcases ht with rfl | rfl | rfl
  · exact hc
  · exact ho
  · decide

/-- The segments of a discovery topic, as the tool gets them. -/
theorem split_topic (hp : Topics.cleanSegment discoveryPrefix = .ok p)
    (hc : '/' ∉ component.toList) (ho : '/' ∉ objectId.toList) :
    split (stripChars ['/'] ("/".intercalate [p, component, objectId, "config"])) '/' =
      split p '/' ++ [component, objectId, "config"] := by
  have htext : ("/".intercalate [p, component, objectId, "config"]).toList =
      p.toList ++ ('/' :: (component.toList ++ '/' :: (objectId.toList ++ ['/']))) ++
        "config".toList := by
    simp
  have hlast : ∀ c ∈ "config".toList.getLast?, c ≠ '/' := by
    rintro c hc rfl
    exact absurd (List.mem_of_getLast? hc) (by decide)
  rw [Topics.stripChars_slash htext (Topics.cleanSegment_ok hp).2.1 (by decide)
    (Topics.ends_of_cleanSegment hp).1 hlast]
  exact split_configTopic p hc ho

/-- A discovery topic is a config topic to the tool exactly if the prefix fits. -/
theorem isDiscoveryConfigTopic_iff (hp : Topics.cleanSegment discoveryPrefix = .ok p)
    (hc : '/' ∉ component.toList) (ho : '/' ∉ objectId.toList) :
    isDiscoveryConfigTopic ("/".intercalate [p, component, objectId, "config"]) discoveryPrefix =
      true ↔ FitsTool discoveryPrefix p := by
  have hlast : (split p '/' ++ [component, objectId, "config"]).getLast? = some "config" := by simp
  simp only [isDiscoveryConfigTopic, split_topic hp hc ho, hlast, Bool.and_eq_true, beq_iff_eq,
    List.length_append, List.length_cons, List.length_nil, and_true, FitsTool]
  rw [show (split p '/').length + (0 + 1 + 1 + 1) = 4 ↔ (split p '/').length = 1 by omega,
    length_split_eq_one_iff]
  refine and_congr_right fun hslash => ?_
  rw [split_eq_singleton hslash]
  simp [eq_comm]

/-- The tool knows the object id of such a topic. -/
theorem hasOwnedObjectId (hp : Topics.cleanSegment discoveryPrefix = .ok p)
    (hc : '/' ∉ component.toList) (ho : '/' ∉ objectId.toList) (howned : isOwnedId objectId = true)
    (hfits : FitsTool discoveryPrefix p) : topicHasBridgeOwnedObjectId
      ("/".intercalate [p, component, objectId, "config"]) discoveryPrefix = true := by
  rw [topicHasBridgeOwnedObjectId, (isDiscoveryConfigTopic_iff hp hc ho).mpr hfits,
    split_topic hp hc ho, split_eq_singleton hfits.1]
  exact howned

end Topic

/-- It then takes the config for one of the bridge, whatever its fields. -/
theorem owned_of_objectId {topic discoveryPrefix : String}
    (h : topicHasBridgeOwnedObjectId topic discoveryPrefix = true) (fields : List (String × Json)) :
    isBridgeOwnedDiscovery topic fields discoveryPrefix = true := by
  have hconfig : isDiscoveryConfigTopic topic discoveryPrefix = true := by
    by_contra hnot
    rw [topicHasBridgeOwnedObjectId, Bool.eq_false_iff.mpr hnot] at h
    cases h
  simp only [isBridgeOwnedDiscovery, hconfig, h, Bool.not_true, Bool.false_eq_true, if_false,
    Bool.or_true, Bool.true_or]

/-! ## Recognition -/

section Messages
variable {m : DiscoveryManager} {message : DiscoveryMessage} {p : String}

theorem isOwnedId_device {a : String} (h : IsAddress a) : isOwnedId ("x10_" ++ a) = true := by
  have hmatch : matchesAddress isHouse (("x10_" ++ a).toList.drop 4) = true := by
    rw [String.toList_append]
    exact h
  have hstart : startsWith ("x10_" ++ a) "x10_" = true := by
    rw [startsWith, String.toList_append, List.isPrefixOf_iff_prefix]
    exact List.prefix_append _ _
  rw [isOwnedId, isX10UniqueId, hstart, hmatch]
  rfl

theorem isOwnedId_bridge : ∀ objectId ∈ DiscoveryManager.bridgeObjectIds,
    isOwnedId objectId = true := by
  decide

/-- The topic of what the bridge publishes has an object id that the tool knows. -/
theorem topic_of_publishes (hp : Topics.cleanSegment m.discoveryPrefix = .ok p)
    (h : Publishes m message) : ∃ component objectId fields,
      message.topic = "/".intercalate [p, component, objectId, "config"] ∧
        '/' ∉ component.toList ∧ '/' ∉ objectId.toList ∧ isOwnedId objectId = true ∧
          message.payload = .obj fields := by
  obtain ⟨diag, messages, hmem, ⟨device, hmessages⟩ | hmessages⟩ := h
  · obtain ⟨topic, fields, htopic, _, rfl⟩ := DiscoveryManager.discoveryMessages_one hmessages
    obtain rfl := List.mem_singleton.mp hmem
    obtain ⟨p', hp', htopic⟩ := bind_ok htopic
    obtain ⟨uid, huid, htopic⟩ := bind_ok htopic
    obtain ⟨a, ha, huid⟩ := bind_ok huid
    cases hp.symm.trans hp'
    cases huid
    cases htopic
    obtain ⟨rfl, haddr⟩ := Topics.address_ok.mp ha
    exact ⟨_, _, fields, rfl, Topics.slash_not_mem_entityType device,
      Topics.slash_not_mem_uid haddr, isOwnedId_device haddr, rfl⟩
  · obtain ⟨⟨component, objectId, hc, ho, htopic⟩, fields, hfields⟩ :=
      DiscoveryManager.bridgeEntity_of_mem hmessages hmem
    have hcomponent : Topics.Plain component := by
      simp only [List.mem_cons, List.not_mem_nil, or_false] at hc
      rcases hc with rfl | rfl | rfl <;> exact Topics.plain_of_letters (by decide) (by decide)
    have hobject := DiscoveryManager.plain_of_bridgeObjectIds objectId ho
    rw [Topics.bridgeDiscovery, hp, hcomponent.1, hobject.1] at htopic
    exact ⟨component, objectId, fields, (Except.ok.inj htopic).symm, hcomponent.2, hobject.2,
      isOwnedId_bridge objectId ho, hfields⟩

/-- The tool recognises a message of the bridge exactly if the prefix fits. -/
theorem owned_iff (hp : Topics.cleanSegment m.discoveryPrefix = .ok p) (h : Publishes m message) :
    (∃ fields, message.payload = .obj fields ∧
      isBridgeOwnedDiscovery message.topic fields m.discoveryPrefix = true) ↔
      FitsTool m.discoveryPrefix p := by
  obtain ⟨component, objectId, fields, htopic, hc, ho, howned, hfields⟩ := topic_of_publishes hp h
  rw [htopic, hfields, ← isDiscoveryConfigTopic_iff hp hc ho]
  constructor
  · rintro ⟨_, _, hrecognised⟩
    by_contra hnot
    rw [isBridgeOwnedDiscovery, Bool.eq_false_iff.mpr hnot] at hrecognised
    cases hrecognised
  · intro hconfig
    have hfits := (isDiscoveryConfigTopic_iff hp hc ho).mp hconfig
    exact ⟨fields, rfl, owned_of_objectId (hasOwnedObjectId hp hc ho howned hfits) fields⟩

end Messages

/-- Under every valid prefix something is published. -/
theorem exists_published {discoveryPrefix p : String}
    (hp : Topics.cleanSegment discoveryPrefix = .ok p) :
    ∃ m : DiscoveryManager, ∃ message, m.discoveryPrefix = discoveryPrefix ∧ Publishes m message := by
  obtain ⟨m, rfl, hbase⟩ : ∃ m : DiscoveryManager, m.discoveryPrefix = discoveryPrefix ∧
      Topics.cleanSegment m.baseTopic = .ok "x10" :=
    ⟨{ discoveryPrefix }, rfl, Topics.cleanSegment_fixed _ (by simp)⟩
  obtain ⟨messages, hmessages⟩ : ∃ messages, m.bridgeDiagnosticMessages {} = .ok messages :=
    (DiscoveryManager.bridgeDiagnosticMessages_ok_iff hbase).mpr ⟨p, hp⟩
  obtain ⟨message, hmem, _⟩ := DiscoveryManager.exists_mem_of_bridge hmessages
  exact ⟨m, message, rfl, {}, messages, hmem, .inr hmessages⟩

theorem fitsTool_of_recognises {discoveryPrefix p : String}
    (hp : Topics.cleanSegment discoveryPrefix = .ok p) (h : Recognises discoveryPrefix) :
    FitsTool discoveryPrefix p := by
  obtain ⟨m, message, rfl, hpublished⟩ := exists_published hp
  exact (owned_iff hp hpublished).mp (h m rfl message hpublished)

/-- The tool recognises what the bridge publishes under a prefix exactly if the prefix
is one segment and the tool cleans it to the same text. -/
theorem recognises_iff {discoveryPrefix p : String}
    (hp : Topics.cleanSegment discoveryPrefix = .ok p) :
    Recognises discoveryPrefix ↔ FitsTool discoveryPrefix p := by
  constructor
  · exact fitsTool_of_recognises hp
  · rintro hfits m rfl message hpublished
    exact (owned_iff hp hpublished).mpr hfits

theorem recognises_homeassistant : Topics.cleanSegment "/homeassistant/" = .ok "homeassistant" ∧
    Recognises "/homeassistant/" := by
  have hp : Topics.cleanSegment "/homeassistant/" = .ok "homeassistant" := by decide
  exact ⟨hp, (recognises_iff hp).mpr ⟨by decide, by decide⟩⟩

/-- A prefix with a slash or with white space hides the messages from the tool. -/
theorem nested_unrecognised :
    (Topics.cleanSegment "home/assistant" = .ok "home/assistant" ∧
      isBridgeOwnedDiscovery "home/assistant/light/x10_A1/config" [("unique_id", .str "x10_A1")]
        "home/assistant" = false ∧ ¬ Recognises "home/assistant") ∧
    Topics.cleanSegment " homeassistant" = .ok "homeassistant" ∧ ¬ Recognises " homeassistant" := by
  have hslash : Topics.cleanSegment "home/assistant" = .ok "home/assistant" := by decide
  have hspace : Topics.cleanSegment " homeassistant" = .ok "homeassistant" := by decide
  exact ⟨⟨hslash, by decide, fun h => absurd (fitsTool_of_recognises hslash h).1 (by decide)⟩, hspace,
    fun h => absurd (fitsTool_of_recognises hspace h).2 (by decide)⟩

end Cleanup

end MochadBridge
