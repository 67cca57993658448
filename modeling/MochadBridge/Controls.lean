import MochadBridge.StatePayloads
import MochadBridge.Lib.TopicFilter

/-!
# The controls of the entities

Home Assistant sends what a discovery payload tells it to: a payload of the entity to its
command topic. The broker delivers it if the subscription of the bridge matches, and the
bridge has to understand it.

Results:
1. `hears_iff`: the topics that reach the bridge.
2. `control_of_device`, `control_of_bridge`: the controls that discovery announces.
3. `controls_understood`: in every run each announced control reaches the bridge, and it
   is understood exactly if the base topic is one segment.
-/

namespace MochadBridge

open Py

/-- A control of the entity: a payload, and the topic it is sent to. -/
def DiscoveryMessage.Control (m : DiscoveryMessage) (topic payload : String) : Prop :=
  ∃ fields, m.payload = .obj fields ∧ Json.field? fields "command_topic" = some (.str topic) ∧
    ∃ name ∈ ["payload_on", "payload_off", "payload_press"],
      Json.field? fields name = some (.str payload)

/-- The device accepts what its discovery payload offers. -/
structure DeviceConfig.Controllable (d : DeviceConfig) : Prop where
  on : Command.on ∈ d.supportedCommands
  off : ¬ IsButton d → Command.off ∈ d.supportedCommands

/-! ## What discovery offers -/

namespace DiscoveryManager

section Controls
variable {m : DiscoveryManager} {d : DeviceConfig} {diag : MochadDiagnostics}
  {fields : List (String × Json)} {topic payload name : String}

/-- The controls of a device. -/
theorem control_of_device {ms : List DiscoveryMessage} (h : m.discoveryMessages d diag = .ok ms)
    {msg : DiscoveryMessage} (hmsg : msg ∈ ms) (hc : msg.Control topic payload) :
    Topics.command d.address m.baseTopic = .ok topic ∧
      (payload = "ON" ∨ payload = "OFF" ∧ ¬ IsButton d) := by
  obtain ⟨_, fields, _, hfields, rfl⟩ := discoveryMessages_one h
  obtain rfl := List.mem_singleton.mp hmsg
  obtain ⟨_, hpayload, htopic, name, hname, hvalue⟩ := hc
  obtain rfl := Json.obj.inj hpayload
  rw [DiscoveryManager.payload] at hfields
  split at hfields
  · obtain ⟨_, _, hfields⟩ := bind_ok hfields
    obtain ⟨command, hcommand, hfields⟩ := bind_ok hfields
    obtain ⟨_, _, hfields⟩ := bind_ok hfields
    obtain rfl := Except.ok.inj hfields
    simp only [List.mem_cons, List.not_mem_nil, or_false] at hname
    rcases hname with rfl | rfl | rfl
    · simp [Json.field?, List.lookup_cons] at hvalue
    · simp [Json.field?, List.lookup_cons] at hvalue
    · simp only [Json.field?, List.lookup_cons] at htopic hvalue
      simp at htopic hvalue
      exact ⟨htopic ▸ hcommand, .inl hvalue.symm⟩
  · next hbutton =>
    obtain ⟨_, _, hfields⟩ := bind_ok hfields
    obtain ⟨_, _, hfields⟩ := bind_ok hfields
    obtain ⟨command, hcommand, hfields⟩ := bind_ok hfields
    obtain ⟨_, _, hfields⟩ := bind_ok hfields
    obtain rfl := Except.ok.inj hfields
    simp only [List.mem_cons, List.not_mem_nil, or_false] at hname
    simp [Json.field?, List.lookup_cons] at htopic
    refine ⟨htopic ▸ hcommand, ?_⟩
    rcases hname with rfl | rfl | rfl
    · simp [Json.field?, List.lookup_cons] at hvalue
      exact .inl hvalue.symm
    · simp [Json.field?, List.lookup_cons] at hvalue
      exact .inr ⟨hvalue.symm, hbutton⟩
    · simp [Json.field?, List.lookup_cons] at hvalue

/-- The control fields of a bridge entity are its own. -/
theorem control_of_bridgeMessage {component objectId label : String}
    {own : Except PyError (List (String × Json))} {msg : DiscoveryMessage}
    (h : m.bridgeMessage component objectId label diag own = .ok msg)
    (hc : msg.Control topic payload) : ∃ fields, own = .ok fields ∧
      Json.field? fields "command_topic" = some (.str topic) ∧
      ∃ name ∈ ["payload_on", "payload_off", "payload_press"],
        Json.field? fields name = some (.str payload) := by
  obtain ⟨_, _, h⟩ := bind_ok h
  obtain ⟨fields, hown, h⟩ := bind_ok h
  obtain ⟨all, hall, h⟩ := bind_ok h
  obtain ⟨_, _, hall⟩ := bind_ok hall
  obtain rfl := Except.ok.inj h
  obtain rfl := Except.ok.inj hall
  obtain ⟨_, hpayload, htopic, name, hname, hvalue⟩ := hc
  obtain rfl := Json.obj.inj hpayload
  have hfield : ∀ key ∈ ["command_topic", "payload_on", "payload_off", "payload_press"],
      ∀ front back : List (String × Json), front.lookup key = none → back.lookup key = none →
        Json.field? (front ++ fields ++ back) key = Json.field? fields key := by
    intro key _ front back hfront hback
    simp [Json.field?, List.lookup_append, hfront, hback]
  refine ⟨fields, hown, ?_, name, hname, ?_⟩
  · rw [hfield "command_topic" (by simp) _ _ (by simp [List.lookup_cons])
      (by simp [List.lookup_cons])] at htopic
    exact htopic
  · simp only [List.mem_cons, List.not_mem_nil, or_false] at hname
    rw [hfield name (by rcases hname with rfl | rfl | rfl <;> simp) _ _
      (by rcases hname with rfl | rfl | rfl <;> simp [List.lookup_cons])
      (by rcases hname with rfl | rfl | rfl <;> simp [List.lookup_cons])] at hvalue
    exact hvalue

theorem control_of_valueSensor {objectId label template : String} {msg : DiscoveryMessage}
    (h : m.bridgeValueSensorMessage objectId label template diag = .ok msg) :
    ¬ msg.Control topic payload := by
  intro hc
  obtain ⟨fields, hfields, htopic, _⟩ := control_of_bridgeMessage h hc
  obtain ⟨_, _, hfields⟩ := bind_ok hfields
  obtain rfl := Except.ok.inj hfields
  simp [Json.field?, List.lookup_cons] at htopic

theorem control_of_connectivitySensor {objectId label key : String} {msg : DiscoveryMessage}
    (h : m.connectivitySensorMessage objectId label key diag = .ok msg) :
    ¬ msg.Control topic payload := by
  intro hc
  obtain ⟨fields, hfields, htopic, _⟩ := control_of_bridgeMessage h hc
  obtain ⟨_, _, hfields⟩ := bind_ok hfields
  obtain rfl := Except.ok.inj hfields
  simp [Json.field?, List.lookup_cons] at htopic

theorem control_of_commandButton {command : BridgeCommand} {objectId label : String}
    {msg : DiscoveryMessage}
    (h : m.bridgeCommandButtonMessage command objectId label diag = .ok msg)
    (hc : msg.Control topic payload) :
    Topics.bridgeCommand m.baseTopic = .ok topic ∧ command.name = payload := by
  obtain ⟨fields, hfields, htopic, name, hname, hvalue⟩ := control_of_bridgeMessage h hc
  obtain ⟨command, hcommand, hfields⟩ := bind_ok hfields
  obtain rfl := Except.ok.inj hfields
  simp [Json.field?] at htopic
  refine ⟨htopic ▸ hcommand, ?_⟩
  simp only [List.mem_cons, List.not_mem_nil, or_false] at hname
  rcases hname with rfl | rfl | rfl
  · simp [Json.field?, List.lookup_cons] at hvalue
  · simp [Json.field?, List.lookup_cons] at hvalue
  · simpa [Json.field?, List.lookup_cons] using hvalue

/-- The controls of the bridge. -/
theorem control_of_bridge {ms : List DiscoveryMessage}
    (h : m.bridgeDiagnosticMessages diag = .ok ms) {msg : DiscoveryMessage} (hmsg : msg ∈ ms)
    (hc : msg.Control topic payload) : Topics.bridgeCommand m.baseTopic = .ok topic ∧
      ∃ command : BridgeCommand, command.name = payload ∧
        (command = .pruneDiscovery ∨ command = .resetDiscovery →
          m.enableMaintenanceButtons = true) := by
  obtain ⟨messages, hmessages, h⟩ := bind_ok h
  obtain ⟨_, _, h⟩ := bind_ok h
  obtain rfl := Except.ok.inj h
  obtain ⟨x, hx, hxm⟩ := exists_of_mapM_ok hmessages hmsg
  rw [id] at hxm
  subst hxm
  rw [bridgeMessages, List.mem_append] at hx
  rcases hx with hx | hx
  · simp only [List.mem_cons, List.not_mem_nil, or_false] at hx
    rcases hx with hx | hx | hx | hx | hx | hx | hx
    · exact absurd hc (control_of_valueSensor hx.symm)
    · exact absurd hc (control_of_connectivitySensor hx.symm)
    · exact absurd hc (control_of_connectivitySensor hx.symm)
    · exact absurd hc (control_of_valueSensor hx.symm)
    · exact absurd hc (control_of_valueSensor hx.symm)
    · obtain ⟨htopic, hname⟩ := control_of_commandButton hx.symm hc
      exact ⟨htopic, .sync, hname, by simp⟩
    · obtain ⟨htopic, hname⟩ := control_of_commandButton hx.symm hc
      exact ⟨htopic, .rediscover, hname, by simp⟩
  · split at hx
    · next henabled =>
      simp only [List.mem_cons, List.not_mem_nil, or_false] at hx
      rcases hx with hx | hx
      · obtain ⟨htopic, hname⟩ := control_of_commandButton hx.symm hc
        exact ⟨htopic, _, hname, fun _ => henabled⟩
      · obtain ⟨htopic, hname⟩ := control_of_commandButton hx.symm hc
        exact ⟨htopic, _, hname, fun _ => henabled⟩
    · exact absurd hx List.not_mem_nil

end Controls

end DiscoveryManager

/-! ## What the devices accept -/

theorem DeviceConfig.controllable_unlisted (a : String) : (unlisted a).Controllable := by
  have hcommands : (unlisted a).supportedCommands = {.on, .off} := rfl
  exact ⟨by rw [hcommands]; decide, fun _ => by rw [hcommands]; decide⟩

theorem apply_supportedCommands {p : DeviceProfile} (hp : p ∈ deviceProfiles) (d : DeviceConfig) :
    (p.apply d).supportedCommands = p.supportedCommands := by
  have hc := deviceProfiles_commands p hp
  simp only [DeviceProfile.apply, DeviceConfig.postInit, hc, and_false, if_false, ne_eq,
    not_false_eq_true, if_true]

/-- The devices that the parsers make accept what is offered. -/
theorem Config.Made.controllable {b : Bool} {k : String} {d : DeviceConfig} (h : Made b k d) :
    d.Controllable := by
  have hprofiles : ∀ p ∈ deviceProfiles, Command.on ∈ p.supportedCommands ∧
      (p.stateful = true → Command.off ∈ p.supportedCommands) := by
    decide
  obtain ⟨_, name, entityType, _, _, _, -, hd⟩ := h
  obtain ⟨n, m, -, -, ⟨-, rfl⟩ | ⟨id, p, -, hp, rfl⟩⟩ := deviceConfig_cases hd
  · cases entityType with
    | chime =>
      have hcommands : (bareDevice k (displayName k name b) .chime n m).supportedCommands =
        {.on} := rfl
      exact ⟨by rw [hcommands]; decide, fun hbutton => absurd (.inl rfl) hbutton⟩
    | light =>
      have hcommands : (bareDevice k (displayName k name b) .light n m).supportedCommands =
        {.on, .off, .dim, .bright} := rfl
      exact ⟨by rw [hcommands]; decide, fun _ => by rw [hcommands]; decide⟩
    | switch =>
      have hcommands : (bareDevice k (displayName k name b) .switch n m).supportedCommands =
        {.on, .off} := rfl
      exact ⟨by rw [hcommands]; decide, fun _ => by rw [hcommands]; decide⟩
  · have hmem := getProfile_mem hp
    constructor
    · rw [apply_supportedCommands hmem]
      exact (hprofiles p hmem).1
    · intro hbutton
      rw [apply_supportedCommands hmem]
      refine (hprofiles p hmem).2 ?_
      rw [← apply_stateful hmem (bareDevice _ _ entityType n m)]
      exact (Bool.not_eq_false _).mp fun hnone => hbutton (.inr hnone)

/-! ## What reaches the bridge -/

namespace Bridge

/-- The topic matches the subscription, `subscribe_commands`. -/
def Hears (s : Bridge) (topic : String) : Prop :=
  ∃ filter, Topics.commandFilter s.mqtt.baseTopic = .ok filter ∧
    TopicFilter.isMatch filter topic = true

/-- The bridge takes the message for a command that the device of the entity supports,
or for a bridge command that is not disabled. -/
def Understands (s : Bridge) (m : DiscoveryMessage) (topic payload : String) : Prop :=
  (∃ a c, ConfigTopic s.discovery.discoveryPrefix a m.topic ∧
      s.messageCommand topic payload = some (a, c) ∧ c.name = payload ∧
        c ∈ (s.deviceAt a).supportedCommands) ∨
    ∃ command : BridgeCommand, s.messageBridgeCommand topic payload = some command ∧
      command.name = payload ∧ (command = .pruneDiscovery ∨ command = .resetDiscovery →
        s.config.enableMaintenanceButtons = true)

section Topics
variable {s : Bridge} {m : DiscoveryMessage} {b topic payload segment : String}

theorem split_command (hb : Topics.cleanSegment s.mqtt.baseTopic = .ok b)
    (hsegment : '/' ∉ segment.toList) :
    split (stripChars ['/'] ("/".intercalate [b, segment, "command"])) '/' =
      split b '/' ++ [segment, "command"] := by
  have hlast : ∀ c ∈ "command".toList.getLast?, c ≠ '/' := by
    rintro c hc rfl
    exact absurd (List.mem_of_getLast? hc) (by decide)
  rw [Topics.stripChars_slash (Topics.toList_join b segment "command") (Topics.cleanSegment_ok hb).2.1
    (by decide) (Topics.ends_of_cleanSegment hb).1 hlast]
  refine split_intercalate b fun t ht => ?_
  rcases List.mem_pair.mp ht with rfl | rfl
  · exact hsegment
  · decide

/-- What reaches the bridge has one segment between the base topic and `command`. -/
theorem hears_iff (hb : Topics.cleanSegment s.mqtt.baseTopic = .ok b) : s.Hears topic ↔
    ∃ segment, '/' ∉ segment.toList ∧ topic = "/".intercalate [b, segment, "command"] := by
  have hfilter : Topics.commandFilter s.mqtt.baseTopic =
      .ok ("/".intercalate [b, "+", "command"]) := by
    rw [Topics.commandFilter, hb]
    rfl
  have hplain : TopicFilter.Plain b :=
    ⟨(Topics.cleanSegment_ok hb).2.2.2, (Topics.cleanSegment_ok hb).2.2.1⟩
  have hcommand : ∀ part ∈ ["command"], TopicFilter.Plain part := by
    simp [TopicFilter.Plain]
  have hlevels : (split ("/".intercalate [b, "+", "command"]) '/').map TopicFilter.level =
      (split b '/').map .text ++ .one :: ["command"].map .text := by
    have hsplit : split ("/".intercalate [b, "+", "command"]) '/' =
        split b '/' ++ ["+", "command"] := split_intercalate b (by decide)
    rw [hsplit, List.map_append, TopicFilter.levels_of_plain (TopicFilter.plain_of_split hplain),
      List.map_cons, TopicFilter.levels_of_plain hcommand]
    rfl
  have hmatch : s.Hears topic ↔ ∃ t, split topic '/' = split b '/' ++ t :: ["command"] := by
    rw [← TopicFilter.accepts_one, ← hlevels]
    constructor
    · rintro ⟨filter, hok, h⟩
      rw [hfilter, Except.ok.injEq] at hok
      rw [← hok] at h
      exact h
    · exact fun h => ⟨_, hfilter, h⟩
  rw [hmatch]
  constructor
  · rintro ⟨t, hsplit⟩
    have ht : '/' ∉ t.toList := not_mem_of_mem_split (by rw [hsplit]; simp)
    refine ⟨t, ht, ?_⟩
    have hjoin : split ("/".intercalate [b, t, "command"]) '/' = split b '/' ++ [t, "command"] :=
      split_intercalate b fun u hu => by
        rcases List.mem_pair.mp hu with rfl | rfl
        · exact ht
        · decide
    rw [← intercalate_split topic '/', hsplit, ← hjoin, intercalate_split]
  · rintro ⟨t, ht, rfl⟩
    refine ⟨t, split_intercalate b fun u hu => ?_⟩
    rcases List.mem_pair.mp hu with rfl | rfl
    · exact ht
    · decide

/-- With a slash in the base topic nothing is understood. -/
theorem not_understands (hb : Topics.cleanSegment s.mqtt.baseTopic = .ok b)
    (hslash : '/' ∈ b.toList) : ¬ s.Understands m topic payload := by
  rintro (⟨a, c, _, hm, _⟩ | ⟨command, hm, _⟩)
  · exact Topics.parseCommandTopic_slash hb hslash (messageCommand_some hm).2.1
  · rw [messageBridgeCommand, Topics.parseBridgeCommandTopic, hb] at hm
    simp only [Bind.bind, Except.bind] at hm
    by_cases hsplit : split (stripChars ['/'] topic) '/' = [b, "bridge", "command"]
    · have hmem : b ∈ split (stripChars ['/'] topic) '/' := by
        rw [hsplit]
        exact List.mem_cons_self
      exact not_mem_of_mem_split hmem hslash
    · rw [if_neg hsplit] at hm
      cases hm

/-- A message on the command topic of a device. -/
theorem messageCommand_command {a : String} (payload : String)
    (hb : Topics.cleanSegment s.mqtt.baseTopic = .ok b)
    (hslash : '/' ∉ b.toList) (hc : Topics.command a s.mqtt.baseTopic = .ok topic) :
    s.messageCommand topic payload =
      (parseCommandPayload (strip payload)).map fun c => (normalize a, c) := by
  obtain ⟨b', hb', haddr, rfl⟩ := Topics.deviceTopic_ok Topics.cleanSegment_command hc
  obtain rfl := Except.ok.inj (hb.symm.trans hb')
  have hbridge : Topics.parseBridgeCommandTopic ("/".intercalate [b, normalize a, "command"])
      s.mqtt.baseTopic = .error (.topicError
        ("Invalid bridge command topic '" ++ "/".intercalate [b, normalize a, "command"] ++ "'.")) := by
    rw [Topics.parseBridgeCommandTopic, hb]
    simp only [Bind.bind, Except.bind]
    rw [split_command hb haddr.slash_not_mem, split_eq_singleton hslash, if_neg]
    · rfl
    · intro hsplit
      have hname : normalize a = "bridge" := by simpa using hsplit
      rw [hname] at haddr
      exact absurd haddr (by decide)
  have hparse : Topics.parseCommandTopic ("/".intercalate [b, normalize a, "command"])
      s.mqtt.baseTopic = .ok (normalize a) :=
    (Topics.parseCommandTopic_iff hb hslash).mpr (Topics.isCommandTopic_command hb hc)
  rw [messageCommand, hbridge]
  dsimp only
  rw [hparse]

/-- A message on the command topic of the bridge. -/
theorem messageBridgeCommand_command (hb : Topics.cleanSegment s.mqtt.baseTopic = .ok b)
    (hslash : '/' ∉ b.toList) (hc : Topics.bridgeCommand s.mqtt.baseTopic = .ok topic) :
    s.messageBridgeCommand topic payload = parseBridgeCommandPayload (strip payload) := by
  obtain ⟨b', hb', hc⟩ := bind_ok hc
  obtain rfl := Except.ok.inj (hb.symm.trans hb')
  obtain rfl := Except.ok.inj hc
  have hparse : Topics.parseBridgeCommandTopic ("/".intercalate [b, "bridge", "command"])
      s.mqtt.baseTopic = .ok () := by
    rw [Topics.parseBridgeCommandTopic, hb]
    simp only [Bind.bind, Except.bind]
    rw [split_command hb (by decide), split_eq_singleton hslash, if_pos (by simp)]
    rfl
  rw [messageBridgeCommand, hparse]

end Topics

/-! ## Runs -/

/-- What the controls rest on, in every state of a run. -/
structure Offering (config : Config) (s : Bridge) : Prop where
  sound : Sound s
  base : s.mqtt.baseTopic = config.mqttBaseTopic
  controllable : ∀ a, (s.deviceAt a).Controllable
  buttons : s.discovery.enableMaintenanceButtons = s.config.enableMaintenanceButtons

section Runs
variable {E : Env} {config : Config} {signature : Option (Int × Nat)} {monotonic : Nat}
  {registry : RegistryFile} {journal : Journal} {s₀ s : Bridge} {m : DiscoveryMessage}
  {b topic payload : String}

theorem apply_buttons (l : Label) (s : Bridge) :
    (l.apply s).config.enableMaintenanceButtons = s.config.enableMaintenanceButtons := by
  cases l with
  | mqtt connected => cases connected <;> rfl
  | enqueue a c =>
    simp only [Label.apply, Bridge.enqueue]
    split
    · split <;> rfl
    · rfl
  | resume sent =>
    simp only [Label.apply, Bridge.resume]
    split <;> rfl
  | _ => rfl

/-- The allowed part of a table that the parsers made. -/
theorem controllable_of_parsed (hparsed : config.Parsed) (allowed : String → Bool) (a : String) :
    (((config.devices.filterKeys allowed).get? a).getD (.unlisted a)).Controllable := by
  rw [Dict.get?_filterKeys]
  split
  · cases hd : config.devices.get? a with
    | none => exact DeviceConfig.controllable_unlisted a
    | some d => exact (hparsed.made a d hd).controllable
  · exact DeviceConfig.controllable_unlisted a

theorem Offering.step (h : Offering config s) {i : Timestamp × Input}
    (hi : ∀ newConfig, s.loads i = some newConfig → newConfig.Parsed) :
    Offering config (Bridge.step E s i) := by
  have hpath := step_path (E := E) h.sound i
  refine ⟨step_sound h.sound i, ?_, fun a => ?_, ?_⟩
  · rw [← h.base]
    exact hpath.frame (fun u => u.mqtt.baseTopic) fun l u _ _ => apply_base l u
  · rw [step_deviceAt h.sound]
    cases hl : s.loads i with
    | none => exact h.controllable a
    | some newConfig => exact controllable_of_parsed (hi newConfig hl) _ _
  · have hdiscovery := hpath.frame Bridge.discovery fun l u _ _ => apply_discovery l u
    have hbuttons := hpath.frame (fun u => u.config.enableMaintenanceButtons)
      fun l u _ _ => apply_buttons l u
    rw [hdiscovery, h.buttons]
    exact hbuttons.symm

theorem init_offering (hparsed : config.Parsed)
    (h : init E config signature monotonic registry journal = .ok s) : Offering config s := by
  have hsound := init_sound h
  obtain ⟨_, file, rfl⟩ := init_ok h
  exact ⟨hsound, rfl, fun a => controllable_of_parsed hparsed _ _, rfl⟩

/-- What discovery announces is understood. -/
theorem Offering.understands (h : Offering config s)
    (hb : Topics.cleanSegment s.mqtt.baseTopic = .ok b) (hslash : '/' ∉ b.toList)
    (hm : s.Announces m) (hc : m.Control topic payload) : s.Understands m topic payload := by
  rcases hm with ⟨k, d, ms, hget, hms, hm⟩ | ⟨ms, hms, hm⟩
  · obtain ⟨htopic, hpayload⟩ := DiscoveryManager.control_of_device hms hm hc
    obtain ⟨haddress, hnormal⟩ := h.sound.table k d hget
    have hat : s.deviceAt k = d := by
      rw [deviceAt, hnormal, hget]
      rfl
    have hd := h.controllable k
    rw [hat] at hd
    rw [haddress, h.sound.discoveryBase] at htopic
    have hcommand := messageCommand_command payload hb hslash htopic
    have hconfig : ConfigTopic s.discovery.discoveryPrefix k m.topic :=
      (DiscoveryManager.configTopic_of_device hms hm).mpr (by rw [haddress, hnormal])
    rw [hnormal] at hcommand
    rcases hpayload with rfl | ⟨rfl, hbutton⟩
    · exact .inl ⟨k, .on, hconfig, hcommand, rfl, by rw [hat]; exact hd.on⟩
    · exact .inl ⟨k, .off, hconfig, hcommand, rfl, by rw [hat]; exact hd.off hbutton⟩
  · obtain ⟨htopic, command, rfl, henabled⟩ := DiscoveryManager.control_of_bridge hms hm hc
    rw [h.sound.discoveryBase] at htopic
    refine .inr ⟨command, ?_, rfl, fun hmaintain => ?_⟩
    · rw [messageBridgeCommand_command hb hslash htopic]
      cases command <;> decide
    · rw [← h.buttons]
      exact henabled hmaintain

theorem Offering.hears (h : Offering config s)
    (hb : Topics.cleanSegment s.mqtt.baseTopic = .ok b) (hm : s.Announces m)
    (hc : m.Control topic payload) : s.Hears topic := by
  rw [hears_iff hb]
  rcases hm with ⟨k, d, ms, hget, hms, hm⟩ | ⟨ms, hms, hm⟩
  · obtain ⟨htopic, _⟩ := DiscoveryManager.control_of_device hms hm hc
    rw [h.sound.discoveryBase] at htopic
    obtain ⟨b', hb', haddr, rfl⟩ := Topics.deviceTopic_ok Topics.cleanSegment_command htopic
    obtain rfl := Except.ok.inj (hb.symm.trans hb')
    exact ⟨_, haddr.slash_not_mem, rfl⟩
  · obtain ⟨htopic, _⟩ := DiscoveryManager.control_of_bridge hms hm hc
    rw [h.sound.discoveryBase] at htopic
    obtain ⟨b', hb', htopic⟩ := bind_ok htopic
    obtain rfl := Except.ok.inj (hb.symm.trans hb')
    obtain rfl := Except.ok.inj htopic
    exact ⟨"bridge", by decide, rfl⟩

/-- In every run whose device tables come from the parsers, each control that discovery
announces reaches the bridge, and it is understood exactly if the base topic is one
segment. -/
theorem controls_understood (hparsed : config.Parsed)
    (h₀ : init E config signature monotonic registry journal = .ok s₀)
    (hr : Run.Reaches (step E)
      (fun s i => ∀ newConfig, s.loads i = some newConfig → newConfig.Parsed) s₀ s)
    (hb : Topics.cleanSegment config.mqttBaseTopic = .ok b) (hm : s.Announces m)
    (hc : m.Control topic payload) :
    s.Hears topic ∧ (s.Understands m topic payload ↔ '/' ∉ b.toList) := by
  have hoffering : Offering config s :=
    hr.invariant (init_offering hparsed h₀) fun _ _ h hi => h.step hi
  rw [← hoffering.base] at hb
  refine ⟨hoffering.hears hb hm hc, fun h hslash => not_understands hb hslash h, fun hslash => ?_⟩
  exact hoffering.understands hb hslash hm hc

end Runs

/-! ## The controls of a lamp -/

/-- The discovery message of the device has the control. -/
def offers (s : Bridge) (a topic payload : String) : Bool :=
  (s.devices.get? a).any fun d =>
    (s.discovery.discoveryMessages d s.mochadDiagnostics).toOption.any fun ms => ms.any fun m =>
      match m.payload with
      | .obj fields => decide (Json.field? fields "command_topic" = some (.str topic)) &&
          ["payload_on", "payload_off", "payload_press"].any fun name =>
            decide (Json.field? fields name = some (.str payload))
      | _ => false

theorem exists_control_of_offers {s : Bridge} {a topic payload : String}
    (h : s.offers a topic payload = true) : ∃ m, s.Announces m ∧ m.Control topic payload := by
  obtain ⟨d, hd, h⟩ := (Option.any_eq_true _ _).mp h
  obtain ⟨ms, hms, h⟩ := (Option.any_eq_true _ _).mp h
  obtain ⟨m, hm, h⟩ := List.any_eq_true.mp h
  refine ⟨m, .inl ⟨a, d, ms, hd, ?_, hm⟩, ?_⟩
  · cases hr : s.discovery.discoveryMessages d s.mochadDiagnostics with
    | error e =>
      rw [hr] at hms
      cases hms
    | ok ms' =>
      rw [hr] at hms
      rw [Option.some.inj hms]
  · cases hp : m.payload with
    | obj fields =>
      rw [hp] at h
      obtain ⟨htopic, hnames⟩ := (Bool.and_eq_true _ _).mp h
      obtain ⟨name, hname, hvalue⟩ := List.any_eq_true.mp hnames
      exact ⟨fields, hp, of_decide_eq_true htopic, name, hname, of_decide_eq_true hvalue⟩
    | _ =>
      rw [hp] at h
      exact absurd h Bool.noConfusion

theorem controls_understood_lamp : ∃ s₀, init {} (.plain "A1:Lamp:light") none 0 .absent = .ok s₀ ∧
    ∃ m, (step {} s₀ (1, .mqttConnected)).Announces m ∧ m.Control "x10/A1/command" "OFF" ∧
      (step {} s₀ (1, .mqttConnected)).Understands m "x10/A1/command" "OFF" := by
  have hrun : (init {} (.plain "A1:Lamp:light") none 0 .absent).map (fun s₀ =>
      (step {} s₀ (1, .mqttConnected)).offers "A1" "x10/A1/command" "OFF") = .ok true := by
    decide +kernel
  obtain ⟨s₀, h₀, hoffers⟩ := map_ok hrun
  obtain ⟨m, hm, hc⟩ := exists_control_of_offers hoffers
  have hparsed : (Config.plain "A1:Lamp:light").Parsed := Config.plain_parsed (by decide +kernel)
  have hloads : ∀ newConfig, s₀.loads (1, .mqttConnected) = some newConfig → newConfig.Parsed := by
    intro newConfig h
    rw [loads] at h
    split at h <;> cases h
  have hb : Topics.cleanSegment "x10" = .ok "x10" := Topics.cleanSegment_fixed _ (by simp)
  exact ⟨s₀, h₀, m, hm, hc,
    (controls_understood hparsed h₀ (.next .start hloads) hb hm hc).2.mpr (by decide)⟩

end Bridge

end MochadBridge
