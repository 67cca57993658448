import MochadBridge.DiscoveryTopics
import MochadBridge.LastWriterWins

/-!
# Names of devices

The friendly name of a device is shown in the payload of its discovery message. Two
devices that differ in their name only (`SameDevice`) are treated alike otherwise; with
`fixed` they do not differ at all.

Results:
1. `discoveryMessages_named`: the name of a device is seen in one field of its payload.
2. `call_withConfigs`: the state manager does not look at names.
3. `init_withConfigs`: nor does its construction.
-/

namespace MochadBridge

open Py

/-! ## Devices -/

/-- Two devices that differ in their name, which is blank for both or for none, and not
at all if names are `fixed`. -/
structure SameDevice (fixed : Prop) (d d' : DeviceConfig) : Prop where
  renamed : d' = { d with name := d'.name }
  blank : strip d'.name = "" ↔ strip d.name = ""
  name : fixed → d'.name = d.name

/-- Two tables of such devices. -/
abbrev SameTable (fixed : Prop) (t t' : Dict String DeviceConfig) : Prop :=
  t.Paired (SameDevice fixed) t'

section Devices
variable {fixed : Prop} {d d' : DeviceConfig} {t t' : Dict String DeviceConfig}

theorem SameDevice.refl (d : DeviceConfig) : SameDevice fixed d d := ⟨rfl, Iff.rfl, fun _ => rfl⟩

theorem SameDevice.eq (h : SameDevice fixed d d') (hfixed : fixed) : d' = d := by
  rw [h.renamed, h.name hfixed]

/-- What does not look at the name is the same. -/
theorem SameDevice.frame {ρ : Type} (f : DeviceConfig → ρ)
    (hf : ∀ d n, f { d with name := n } = f d) (h : SameDevice fixed d d') : f d' = f d := by
  rw [h.renamed]
  exact hf d _

theorem SameTable.refl (t : Dict String DeviceConfig) : SameTable fixed t t :=
  Dict.Paired.refl SameDevice.refl t

theorem SameTable.eq (h : SameTable fixed t t') (hfixed : fixed) : t' = t := by
  have hentries : List.Forall₂ Eq t.entries t'.entries := h.imp fun x y hxy =>
    Prod.ext hxy.1 (hxy.2.eq hfixed).symm
  exact Dict.ext (List.forall₂_eq_eq_eq ▸ hentries : t.entries = t'.entries).symm

/-- The device of an address, with the default one for an address that is not listed. -/
theorem SameTable.getD (h : SameTable fixed t t') (k : String) (d : DeviceConfig) :
    SameDevice fixed ((t.get? k).getD d) ((t'.get? k).getD d) := by
  have hget := h.get? k
  cases ht : t.get? k <;> cases ht' : t'.get? k <;> rw [ht, ht'] at hget <;> cases hget
  · exact .refl d
  · next hd => exact hd

end Devices

/-! ## Discovery -/

namespace DiscoveryManager

variable {m : DiscoveryManager} {d : DeviceConfig} {diag : MochadDiagnostics}

/-- The payload with another name in its first field. -/
def named (n : String) : List (String × Json) → List (String × Json)
  | (key, _) :: rest => (key, .str n) :: rest
  | [] => []

/-- The payload of a device starts with its name. -/
theorem payload_name {fields : List (String × Json)} (h : m.payload d diag = .ok fields) :
    ∃ rest, fields = ("name", .str d.name) :: rest := by
  unfold payload at h
  split at h
  · obtain ⟨uid, _, h⟩ := bind_ok h
    obtain ⟨command, _, h⟩ := bind_ok h
    obtain ⟨availability, _, h⟩ := bind_ok h
    exact ⟨_, (Except.ok.inj h).symm⟩
  · obtain ⟨uid, _, h⟩ := bind_ok h
    obtain ⟨state, _, h⟩ := bind_ok h
    obtain ⟨command, _, h⟩ := bind_ok h
    obtain ⟨availability, _, h⟩ := bind_ok h
    exact ⟨_, (Except.ok.inj h).symm⟩

theorem payload_named (n : String) :
    m.payload { d with name := n } diag = (m.payload d diag).map (named n) := by
  have huid : Topics.uniqueId { d with name := n } = Topics.uniqueId d := rfl
  have hentity : Topics.entityType { d with name := n } = Topics.entityType d := rfl
  unfold payload buttonPayload statefulPayload
  dsimp only
  rw [huid, hentity]
  cases Topics.uniqueId d with
  | error e => split <;> rfl
  | ok uid =>
    cases Topics.state d.address m.baseTopic <;> cases Topics.command d.address m.baseTopic <;>
      cases Topics.availability m.baseTopic <;> split <;> rfl

theorem validateMessage_named (topic : String) (x y : Json) (rest : List (String × Json)) :
    validateMessage topic (("name", x) :: rest) = validateMessage topic (("name", y) :: rest) := by
  have hfield : ∀ key, key ≠ "name" →
      Json.field? (("name", x) :: rest) key = Json.field? (("name", y) :: rest) key := by
    intro key hkey
    simp only [Json.field?, List.lookup_cons, beq_false_of_ne hkey]
  have hhas : ∀ key, hasField (("name", x) :: rest) key = hasField (("name", y) :: rest) key := by
    intro key
    by_cases hkey : key = "name"
    · subst hkey
      simp only [hasField, Json.field?, List.lookup_cons, beq_self_eq_true, Option.isSome_some]
    · rw [hasField, hasField, hfield key hkey]
  have hblank : ∀ key, key ≠ "name" →
      isBlankField (("name", x) :: rest) key = isBlankField (("name", y) :: rest) key := by
    intro key hkey
    rw [isBlankField, isBlankField, hfield key hkey]
  have hobject : objectField (("name", x) :: rest) "device" =
      objectField (("name", y) :: rest) "device" := by
    rw [objectField, objectField, hfield "device" (by decide)]
  unfold validateMessage
  rw [hblank "unique_id" (by decide), hblank "state_topic" (by decide),
    hblank "command_topic" (by decide), hblank "availability_topic" (by decide), hobject]
  simp only [hhas]

/-- The message with another name in the first field of its payload. -/
def renamed (n : String) (msg : DiscoveryMessage) : DiscoveryMessage :=
  { msg with payload := match msg.payload with
    | .obj fields => .obj (named n fields)
    | payload => payload }

/-- What `discovery_messages` does with a payload. -/
def checked (topic : Except PyError String) (fields : List (String × Json)) :
    Except PyError (List DiscoveryMessage) := do
  let topic ← topic
  validateMessage topic fields
  return [{ topic := topic, payload := .obj fields, retain := true }]

theorem discoveryMessages_eq : m.discoveryMessages d diag = (do
    validateDevice d
    let fields ← m.payload d diag
    checked (Topics.discovery d m.discoveryPrefix) fields) := rfl

theorem checked_named (topic : Except PyError String) (n : String) (x : Json)
    (rest : List (String × Json)) :
    checked topic (("name", .str n) :: rest) =
      (checked topic (("name", x) :: rest)).map (List.map (renamed n)) := by
  cases topic with
  | error e => rfl
  | ok topic =>
    have hvalid := validateMessage_named topic (.str n) x rest
    unfold checked
    dsimp only [bind, Except.bind]
    rw [hvalid]
    generalize validateMessage topic (("name", x) :: rest) = valid
    cases valid <;> rfl

/-- The message of a device with another name: the name is seen in one field. -/
theorem discoveryMessages_named {n : String} (hn : strip n = "" ↔ strip d.name = "") :
    m.discoveryMessages { d with name := n } diag =
      (m.discoveryMessages d diag).map (List.map (renamed n)) := by
  have huid : Topics.uniqueId { d with name := n } = Topics.uniqueId d := rfl
  have hvalid : validateDevice { d with name := n } = validateDevice d := by
    rw [validateDevice, validateDevice, huid]
    simp only [hn]
  have htopic : Topics.discovery { d with name := n } m.discoveryPrefix =
    Topics.discovery d m.discoveryPrefix := rfl
  rw [discoveryMessages_eq, discoveryMessages_eq, hvalid, payload_named, htopic]
  generalize Topics.discovery d m.discoveryPrefix = topic
  cases validateDevice d with
  | error e => rfl
  | ok u =>
    cases hp : m.payload d diag with
    | error e => rfl
    | ok fields =>
      obtain ⟨rest, hrest⟩ := payload_name hp
      show checked topic (named n fields) = (checked topic fields).map (List.map (renamed n))
      rw [hrest]
      exact checked_named topic n _ rest

end DiscoveryManager

/-! ## The state manager -/

namespace StateManager

/-- The manager with other device configurations. -/
def withConfigs (sm : StateManager) (configs : Dict String DeviceConfig) : StateManager :=
  { sm with deviceConfigs := configs }

section WithConfigs
variable {fixed : Prop} {sm : StateManager} {configs : Dict String DeviceConfig}

theorem deviceConfig_withConfigs (h : SameTable fixed sm.deviceConfigs configs) (a : String) :
    SameDevice fixed (sm.deviceConfig a) ((sm.withConfigs configs).deviceConfig a) :=
  h.getD (normalize a) _

theorem stateful_withConfigs (h : SameTable fixed sm.deviceConfigs configs) (a : String) :
    ((sm.withConfigs configs).deviceConfig a).stateful = (sm.deviceConfig a).stateful :=
  (deviceConfig_withConfigs h a).frame DeviceConfig.stateful fun _ _ => rfl

theorem supportedCommands_withConfigs (h : SameTable fixed sm.deviceConfigs configs) (a : String) :
    ((sm.withConfigs configs).deviceConfig a).supportedCommands =
      (sm.deviceConfig a).supportedCommands :=
  (deviceConfig_withConfigs h a).frame DeviceConfig.supportedCommands fun _ _ => rfl

theorem responds_withConfigs (h : SameTable fixed sm.deviceConfigs configs) (a : String)
    (c : Command) : deviceRespondsToHouseCommand ((sm.withConfigs configs).deviceConfig a) c =
      deviceRespondsToHouseCommand (sm.deviceConfig a) c :=
  (deviceConfig_withConfigs h a).frame (deviceRespondsToHouseCommand · c) fun _ _ => by
    cases c <;> rfl

theorem addressAllowed_withConfigs (a : String) :
    (sm.withConfigs configs).addressAllowed a = sm.addressAllowed a := by
  simp only [addressAllowed, houseAllowed, withConfigs]

/-- The outcome of a method with other device configurations: the method does not look at
them, nor change them. -/
def Wears (configs : Dict String DeviceConfig) {ρ : Type} (sm : StateManager)
    (result result' : StateManager × ρ) : Prop :=
  result.1.deviceConfigs = sm.deviceConfigs ∧ result' = (result.1.withConfigs configs, result.2)

theorem ensureDevice_withConfigs (sm : StateManager) (configs : Dict String DeviceConfig)
    (a : String) :
    Wears configs sm (sm.ensureDevice a) ((sm.withConfigs configs).ensureDevice a) := by
  have hdevices : (sm.withConfigs configs).devices = sm.devices := rfl
  unfold Wears ensureDevice
  dsimp only
  rw [hdevices]
  cases sm.devices.get? (normalize a) <;> exact ⟨rfl, rfl⟩

theorem setDeviceState_withConfigs (sm : StateManager) (configs : Dict String DeviceConfig)
    (st : DeviceState) (c : Command) (now : Timestamp) (retain clearPending : Bool) :
    Wears configs sm (sm.setDeviceState st c now retain clearPending)
      ((sm.withConfigs configs).setDeviceState st c now retain clearPending) := by
  unfold Wears setDeviceState
  dsimp only
  split <;> exact ⟨rfl, rfl⟩

theorem discoveryActions_withConfigs (sm : StateManager) (configs : Dict String DeviceConfig)
    (st : DeviceState) :
    Wears configs sm (sm.discoveryActions st) ((sm.withConfigs configs).discoveryActions st) := by
  unfold Wears discoveryActions
  show _ ∧ (if !sm.mqttConnected ∨ st.discovered then _ else _) = _
  split <;> exact ⟨rfl, rfl⟩

/-- What one method does after another one. -/
theorem Wears.trans {ρ τ : Type} {r r' : StateManager × ρ} {q q' : StateManager × τ}
    (h : Wears configs sm r r') (h' : Wears configs r.1 q q') : Wears configs sm q q' :=
  ⟨h'.1.trans h.1, h'.2⟩

theorem Wears.table {ρ : Type} {r r' : StateManager × ρ} (h : Wears configs sm r r')
    (htable : SameTable fixed sm.deviceConfigs configs) :
    SameTable fixed r.1.deviceConfigs configs := by
  rw [h.1]
  exact htable

/-! ### Device events -/

/-- The event is counted. -/
def counted (sm : StateManager) : StateManager :=
  { sm with statistics :=
    { sm.statistics with eventsReceived := sm.statistics.eventsReceived + 1 } }

/-- What `_apply_device_event` does after the discovery of the device. -/
def settle (event : DeviceEvent) (stateful : Bool)
    (r : StateManager × DeviceState × List BridgeAction) : StateManager × List BridgeAction :=
  if !stateful ∨ event.command ∉ stateCommands then (r.1, r.2.2 ++ [.publishEvent event])
  else
    let changed := r.1.setDeviceState r.2.1 event.command event.timestamp true true
    (changed.1, r.2.2 ++ [.publishEvent event] ++ changed.2)

/-- What `_apply_device_event` does with the state of the device. -/
def receive (event : DeviceEvent) (stateful : Bool) (r : StateManager × DeviceState) :
    StateManager × List BridgeAction :=
  let st := { r.2 with available := true, lastSeen := some event.timestamp }
  settle event stateful ((r.1.store st).discoveryActions st)

theorem applyDeviceEvent_eq (event : DeviceEvent) : sm.applyDeviceEvent event =
    if !sm.addressAllowed event.address then (sm, [])
    else
      let r := sm.counted.ensureDevice event.address
      receive event (r.1.deviceConfig r.2.address).stateful r := rfl

theorem settle_withConfigs (event : DeviceEvent) (stateful : Bool)
    (r : StateManager × DeviceState × List BridgeAction) :
    Wears configs r.1 (settle event stateful r)
      (settle event stateful (r.1.withConfigs configs, r.2)) := by
  unfold settle
  split
  · exact ⟨rfl, rfl⟩
  · have hset := setDeviceState_withConfigs r.1 configs r.2.1 event.command
      event.timestamp true true
    dsimp only
    rw [hset.2]
    exact ⟨hset.1, rfl⟩

theorem receive_withConfigs (event : DeviceEvent) (stateful : Bool)
    (r : StateManager × DeviceState) :
    Wears configs r.1 (receive event stateful r)
      (receive event stateful (r.1.withConfigs configs, r.2)) := by
  have hdisc := discoveryActions_withConfigs
    (r.1.store { r.2 with available := true, lastSeen := some event.timestamp }) configs
    { r.2 with available := true, lastSeen := some event.timestamp }
  have hrun : receive event stateful (r.1.withConfigs configs, r.2) = settle event stateful
      (((r.1.store { r.2 with available := true, lastSeen := some event.timestamp }).withConfigs
        configs).discoveryActions
          { r.2 with available := true, lastSeen := some event.timestamp }) := rfl
  rw [hrun, hdisc.2]
  exact hdisc.trans (settle_withConfigs event stateful _)

theorem applyDeviceEvent_withConfigs (h : SameTable fixed sm.deviceConfigs configs)
    (event : DeviceEvent) :
    Wears configs sm (sm.applyDeviceEvent event)
      ((sm.withConfigs configs).applyDeviceEvent event) := by
  have hcounted : (sm.withConfigs configs).counted = sm.counted.withConfigs configs := rfl
  have hens := ensureDevice_withConfigs sm.counted configs event.address
  rw [applyDeviceEvent_eq, applyDeviceEvent_eq, addressAllowed_withConfigs]
  split
  · exact ⟨rfl, rfl⟩
  · dsimp only
    rw [hcounted, hens.2]
    dsimp only
    rw [stateful_withConfigs (hens.table h)]
    exact hens.trans (receive_withConfigs event _ _)

/-! ### House events and snapshots -/

/-- A loop whose turns do not look at device configurations. -/
theorem foldl_withConfigs {ρ : Type}
    {f : StateManager × List BridgeAction → ρ → StateManager × List BridgeAction}
    (hf : ∀ (r : StateManager × List BridgeAction) x,
      SameTable fixed r.1.deviceConfigs configs →
        Wears configs r.1 (f r x) (f (r.1.withConfigs configs, r.2) x))
    (xs : List ρ) (r : StateManager × List BridgeAction)
    (h : SameTable fixed r.1.deviceConfigs configs) :
    Wears configs r.1 (xs.foldl f r) (xs.foldl f (r.1.withConfigs configs, r.2)) := by
  induction xs generalizing r with
  | nil => exact ⟨rfl, rfl⟩
  | cons x xs ih =>
    have hx := hf r x h
    rw [List.foldl_cons, List.foldl_cons, hx.2]
    exact hx.trans (ih (f r x) (hx.table h))

theorem applyHouseCommand_withConfigs (c : Command) (t : Timestamp)
    (r : StateManager × List BridgeAction) (st : DeviceState)
    (h : SameTable fixed r.1.deviceConfigs configs) :
    Wears configs r.1 (applyHouseCommand c t r st)
      (applyHouseCommand c t (r.1.withConfigs configs, r.2) st) := by
  have hset := setDeviceState_withConfigs r.1 configs
    { st with available := true, lastSeen := some t } (houseState c) t true true
  unfold applyHouseCommand
  dsimp only
  rw [stateful_withConfigs h, responds_withConfigs h, hset.2]
  split
  · exact ⟨rfl, rfl⟩
  · split
    · exact ⟨rfl, rfl⟩
    · exact ⟨hset.1, rfl⟩

theorem applyHouseEvent_eq (event : HouseEvent) : sm.applyHouseEvent event =
    if !sm.houseAllowed event.house then (sm, [])
    else if event.command ∉ houseCommands then (sm.counted, [])
    else (sm.counted.devicesForHouse event.house).foldl
      (applyHouseCommand event.command event.timestamp) (sm.counted, []) := rfl

theorem applyHouseEvent_withConfigs (h : SameTable fixed sm.deviceConfigs configs)
    (event : HouseEvent) :
    Wears configs sm (sm.applyHouseEvent event) ((sm.withConfigs configs).applyHouseEvent event) := by
  have hallowed : (sm.withConfigs configs).houseAllowed event.house =
    sm.houseAllowed event.house := rfl
  rw [applyHouseEvent_eq, applyHouseEvent_eq, hallowed]
  split
  · exact ⟨rfl, rfl⟩
  · split
    · exact ⟨rfl, rfl⟩
    · exact foldl_withConfigs (fun r st hr => applyHouseCommand_withConfigs _ _ r st hr)
        (sm.devicesForHouse event.house) (sm.counted, []) h

/-- What `_apply_status_snapshot` does with the state of a device. -/
def enter (now : Timestamp) (c : Command) (stateful : Bool) (actions : List BridgeAction)
    (r : StateManager × DeviceState) : StateManager × List BridgeAction :=
  if !stateful then (r.1, actions)
  else
    let changed := r.1.setDeviceState { r.2 with available := true, lastSeen := some now } c now
      true true
    (changed.1, actions ++ changed.2)

theorem applySnapshotEntry_eq (now : Timestamp) (actions : List BridgeAction)
    (entry : String × Command) : applySnapshotEntry now (sm, actions) entry =
    if !sm.addressAllowed entry.1 then (sm, actions)
    else
      let r := sm.ensureDevice entry.1
      enter now entry.2 (r.1.deviceConfig r.2.address).stateful actions r := rfl

theorem enter_withConfigs (now : Timestamp) (c : Command) (stateful : Bool)
    (actions : List BridgeAction) (r : StateManager × DeviceState) :
    Wears configs r.1 (enter now c stateful actions r)
      (enter now c stateful actions (r.1.withConfigs configs, r.2)) := by
  have hset := setDeviceState_withConfigs r.1 configs
    { r.2 with available := true, lastSeen := some now } c now true true
  unfold enter
  dsimp only
  rw [hset.2]
  split
  · exact ⟨rfl, rfl⟩
  · exact ⟨hset.1, rfl⟩

theorem applySnapshotEntry_withConfigs (now : Timestamp) (r : StateManager × List BridgeAction)
    (entry : String × Command) (h : SameTable fixed r.1.deviceConfigs configs) :
    Wears configs r.1 (applySnapshotEntry now r entry)
      (applySnapshotEntry now (r.1.withConfigs configs, r.2) entry) := by
  obtain ⟨sm, actions⟩ := r
  have hens := ensureDevice_withConfigs sm configs entry.1
  rw [applySnapshotEntry_eq, applySnapshotEntry_eq, addressAllowed_withConfigs]
  split
  · exact ⟨rfl, rfl⟩
  · dsimp only
    rw [hens.2]
    dsimp only
    rw [stateful_withConfigs (hens.table h)]
    exact hens.trans (enter_withConfigs now _ _ _ _)

theorem apply_withConfigs (h : SameTable fixed sm.deviceConfigs configs) (now : Timestamp)
    (event : Option Event) :
    Wears configs sm (sm.apply now event) ((sm.withConfigs configs).apply now event) := by
  cases event with
  | none => exact ⟨rfl, rfl⟩
  | some event =>
    cases event with
    | device event => exact applyDeviceEvent_withConfigs h event
    | house event => exact applyHouseEvent_withConfigs h event
    | snapshot snap =>
      exact foldl_withConfigs (fun r entry hr => applySnapshotEntry_withConfigs now r entry hr)
        snap.devices.entries (_, []) h
    | unknown event => exact ⟨rfl, rfl⟩

/-! ### Commands -/

/-- What `optimistic_update` does after the discovery of the device. -/
def request (now : Timestamp) (c : Command) (stateful : Bool)
    (r : StateManager × DeviceState × List BridgeAction) : StateManager × List BridgeAction :=
  let actions := r.2.2 ++ [.sendDeviceCommand r.2.1.address c]
  if !stateful then
    (r.1, actions ++
      [.publishCommandEvent r.2.1.address (commandEventPayload r.2.1.address c now) false])
  else
    let actions := actions ++
      [.publishAttributes r.2.1.address (attributesPayload c r.1.optimisticUpdates) true]
    if r.1.optimisticUpdates then
      let changed := r.1.setDeviceState r.2.1 c now true false
      (changed.1, actions ++ changed.2)
    else (r.1, actions)

/-- What `optimistic_update` does with the state of the device. -/
def pend (now : Timestamp) (c : Command) (supported : Finset Command) (stateful : Bool)
    (r : StateManager × DeviceState) : StateManager × List BridgeAction :=
  if c ∉ supported then (r.1, [])
  else
    let st := { r.2 with pendingCommand := some c }
    let sm := { r.1 with statistics :=
      { r.1.statistics with commandsSent := r.1.statistics.commandsSent + 1 } }
    request now c stateful ((sm.store st).discoveryActions st)

theorem optimisticUpdate_eq (now : Timestamp) (a : String) (c : Command) :
    sm.optimisticUpdate now a c =
      if !sm.addressAllowed a then (sm, [])
      else
        let r := sm.ensureDevice a
        let device := r.1.deviceConfig r.2.address
        pend now c device.supportedCommands device.stateful r := rfl

theorem request_withConfigs (now : Timestamp) (c : Command) (stateful : Bool)
    (r : StateManager × DeviceState × List BridgeAction) :
    Wears configs r.1 (request now c stateful r)
      (request now c stateful (r.1.withConfigs configs, r.2)) := by
  have hset := setDeviceState_withConfigs r.1 configs r.2.1 c now true false
  have hoptimistic : (r.1.withConfigs configs).optimisticUpdates = r.1.optimisticUpdates := rfl
  unfold request
  dsimp only
  rw [hset.2, hoptimistic]
  split
  · exact ⟨rfl, rfl⟩
  · split
    · exact ⟨hset.1, rfl⟩
    · exact ⟨rfl, rfl⟩

theorem pend_withConfigs (now : Timestamp) (c : Command) (supported : Finset Command)
    (stateful : Bool) (r : StateManager × DeviceState) :
    Wears configs r.1 (pend now c supported stateful r)
      (pend now c supported stateful (r.1.withConfigs configs, r.2)) := by
  unfold pend
  split
  · exact ⟨rfl, rfl⟩
  · dsimp only
    generalize hsm : ({ r.1 with statistics :=
      { r.1.statistics with commandsSent := r.1.statistics.commandsSent + 1 } } :
        StateManager) = sm
    have hconfigs : sm.deviceConfigs = r.1.deviceConfigs := by rw [← hsm]
    have hdisc := discoveryActions_withConfigs
      (sm.store { r.2 with pendingCommand := some c }) configs { r.2 with pendingCommand := some c }
    have hrun : (StateManager.store { r.1.withConfigs configs with statistics :=
        { (r.1.withConfigs configs).statistics with
          commandsSent := (r.1.withConfigs configs).statistics.commandsSent + 1 } }
        { r.2 with pendingCommand := some c }) =
      (sm.store { r.2 with pendingCommand := some c }).withConfigs configs := by
      rw [← hsm]
      rfl
    rw [hrun, hdisc.2]
    have hwears := hdisc.trans (request_withConfigs now c stateful _)
    exact ⟨hwears.1.trans hconfigs, hwears.2⟩

theorem optimisticUpdate_withConfigs (h : SameTable fixed sm.deviceConfigs configs)
    (now : Timestamp) (a : String) (c : Command) :
    Wears configs sm (sm.optimisticUpdate now a c)
      ((sm.withConfigs configs).optimisticUpdate now a c) := by
  have hens := ensureDevice_withConfigs sm configs a
  rw [optimisticUpdate_eq, optimisticUpdate_eq, addressAllowed_withConfigs]
  split
  · exact ⟨rfl, rfl⟩
  · dsimp only
    rw [hens.2]
    dsimp only
    rw [stateful_withConfigs (hens.table h), supportedCommands_withConfigs (hens.table h)]
    exact hens.trans (pend_withConfigs now c _ _ _)

/-! ### Calls and the start -/

/-- A call of the state manager does not look at names. -/
theorem call_withConfigs (h : SameTable fixed sm.deviceConfigs configs) (c : Call) :
    Wears configs sm (sm.call c) ((sm.withConfigs configs).call c) := by
  cases c with
  | apply now event => exact apply_withConfigs h now event
  | optimisticUpdate now a c => exact optimisticUpdate_withConfigs h now a c
  | mqttConnected | mqttDisconnected | mochadConnected | mochadDisconnected => exact ⟨rfl, rfl⟩

theorem addDevice_withConfigs (h : SameTable fixed sm.deviceConfigs configs) {d d' : DeviceConfig}
    (hd : SameDevice fixed d d') : ∃ configs',
      (sm.withConfigs configs).addDevice d' = (sm.addDevice d).withConfigs configs' ∧
        SameTable fixed (sm.addDevice d).deviceConfigs configs' := by
  have haddress : d'.address = d.address := hd.frame DeviceConfig.address fun _ _ => rfl
  unfold addDevice
  rw [haddress, addressAllowed_withConfigs]
  split
  · dsimp only
    have hens := ensureDevice_withConfigs
      { sm with deviceConfigs := sm.deviceConfigs.insert (normalize d.address) d }
      (configs.insert (normalize d.address) d') d.address
    refine ⟨configs.insert (normalize d.address) d', congrArg Prod.fst hens.2, ?_⟩
    rw [hens.1]
    exact h.insert _ hd
  · exact ⟨configs, rfl, h⟩

theorem foldl_addDevice_withConfigs {devices devices' : List DeviceConfig}
    (hdevices : List.Forall₂ (SameDevice fixed) devices devices')
    (h : SameTable fixed sm.deviceConfigs configs) : ∃ configs',
      devices'.foldl addDevice (sm.withConfigs configs) =
        (devices.foldl addDevice sm).withConfigs configs' ∧
          SameTable fixed (devices.foldl addDevice sm).deviceConfigs configs' := by
  induction hdevices generalizing sm configs with
  | nil => exact ⟨configs, rfl, h⟩
  | cons hd _ ih =>
    obtain ⟨configs', heq, htable⟩ := addDevice_withConfigs h hd
    rw [List.foldl_cons, List.foldl_cons, heq]
    exact ih htable

/-- Two state managers made from devices that differ in names. -/
theorem init_withConfigs {devices devices' : List DeviceConfig}
    (h : List.Forall₂ (SameDevice fixed) devices devices') (optimistic : Bool)
    (housecodes : Option (List String)) : ∃ configs,
      init devices' optimistic housecodes =
        (init devices optimistic housecodes).withConfigs configs ∧
          SameTable fixed (init devices optimistic housecodes).deviceConfigs configs :=
  @foldl_addDevice_withConfigs _ (empty optimistic housecodes) _ _ _ h (.refl _)

end WithConfigs

end StateManager

end MochadBridge
