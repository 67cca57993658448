import MochadBridge.BridgeSteps
import MochadBridge.DeviceNames
import MochadBridge.Lib.TwoRuns

/-!
# Two bridges that differ in what nobody may see

The friendly names of the devices are for display only, and the paths of the TLS files
are for the MQTT client only. Of two bridges whose configurations differ in these, and
that meet the same inputs, each does what the other does.

A `Guise` holds the parts in which such two bridges may differ, and `wearing` puts them in
the place of a bridge's own. `Dressed fixed s g` says how the parts belong to those of
the bridge; with `fixed` the names agree, and only the paths differ.

Results:
1. `callback_alike`: a callback of two such bridges.
2. `names_displayed_only`: in runs without polls, the bridges publish on the same topics
   the same payloads but for one field, send the same lines, write the same registry and
   reach the same states.
3. `tls_paths_unseen`: with the same names, in every run, they publish the same payloads.
-/

namespace MochadBridge

open Py Effect TwoRuns

/-! ## Guises -/

/-- Two outputs that differ in the name of a device at most, which is the first field of
its discovery payload. -/
inductive SameOutput (fixed : Prop) : Output → Output → Prop
  | same (o : Output) : SameOutput fixed o o
  | named {topic n n' : String} {rest : List (String × Json)} {retain : Bool}
      (htopic : ∃ (d : DeviceConfig) (pre : String), Topics.discovery d pre = .ok topic)
      (hname : fixed → n' = n) :
      SameOutput fixed (.publish topic (.obj (("name", .str n) :: rest)) retain)
        (.publish topic (.obj (("name", .str n') :: rest)) retain)

theorem SameOutput.eq {fixed : Prop} {o o' : Output} (h : SameOutput fixed o o')
    (hfixed : fixed) : o' = o := by
  cases h with
  | same => rfl
  | named _ hname => rw [hname hfixed]

/-- Two messages that differ so. -/
def SameMessage (fixed : Prop) (msg msg' : DiscoveryMessage) : Prop :=
  msg'.topic = msg.topic ∧ SameOutput fixed (.publish msg.topic msg.payload msg.retain)
    (.publish msg'.topic msg'.payload msg'.retain)

/-- The parts in which two bridges may differ. -/
structure Guise where
  listed : Config.DeviceTable
  configured : Config.TableConfigured listed
  tlsCaFile : Option String
  tlsCertFile : Option String
  tlsKeyFile : Option String
  devices : Config.DeviceTable
  deviceConfigs : Dict String DeviceConfig
  outputs : List Output

namespace Bridge

/-- The configuration with other devices and TLS files. -/
def disguise (config : Config) (g : Guise) : Config :=
  { config with
    devices := g.listed
    configured := g.configured
    tlsCaFile := g.tlsCaFile
    tlsCertFile := g.tlsCertFile
    tlsKeyFile := g.tlsKeyFile }

/-- The bridge with other such parts. -/
def wearing (s : Bridge) (g : Guise) : Bridge :=
  { s with
    config := disguise s.config g
    devices := g.devices
    state := s.state.withConfigs g.deviceConfigs
    journal := { s.journal with outputs := g.outputs } }

/-- The parts belong to those of the bridge. -/
structure Dressed (fixed : Prop) (s : Bridge) (g : Guise) : Prop where
  devices : SameTable fixed s.devices g.devices
  configs : SameTable fixed s.state.deviceConfigs g.deviceConfigs
  ca : truthy g.tlsCaFile = truthy s.config.tlsCaFile
  client : (truthy g.tlsCertFile && truthy g.tlsKeyFile) =
    (truthy s.config.tlsCertFile && truthy s.config.tlsKeyFile)
  outputs : List.Forall₂ (SameOutput fixed) s.journal.outputs g.outputs

/-- Two bridges side by side. -/
def twins (fixed : Prop) : Mask Bridge Guise where
  other := wearing
  Related := Dressed fixed

/-- Run by two such bridges, the two programs do the same. -/
abbrev Same {α : Type} (fixed : Prop) (p q : BridgeM α) (s : Bridge) (g : Guise) : Prop :=
  Alike (twins fixed) p q s g

section Wearing
variable {fixed : Prop} {s t : Bridge} {g : Guise}

@[simp] theorem other_twins : (twins fixed).other s g = s.wearing g := rfl
@[simp] theorem wearing_mqtt : (s.wearing g).mqtt = s.mqtt := rfl
@[simp] theorem wearing_mochad : (s.wearing g).mochad = s.mochad := rfl
@[simp] theorem wearing_discovery : (s.wearing g).discovery = s.discovery := rfl
@[simp] theorem wearing_diagnostics : (s.wearing g).mochadDiagnostics = s.mochadDiagnostics := rfl
@[simp] theorem wearing_registry : (s.wearing g).registry = s.registry := rfl
@[simp] theorem wearing_stopping : (s.wearing g).stopping = s.stopping := rfl
@[simp] theorem wearing_crashed : (s.wearing g).crashed = s.crashed := rfl
@[simp] theorem wearing_protocol : (s.wearing g).parser = s.parser := rfl
@[simp] theorem wearing_queue :
    (s.wearing g).queuedDeviceCommands = s.queuedDeviceCommands := rfl
@[simp] theorem wearing_visits : (s.wearing g).journal.visits = s.journal.visits := rfl
@[simp] theorem wearing_sends : (s.wearing g).journal.sends = s.journal.sends := rfl
@[simp] theorem wearing_accepted : (s.wearing g).journal.accepted = s.journal.accepted := rfl
@[simp] theorem wearing_registryPath :
    (s.wearing g).config.discoveryRegistryPath = s.config.discoveryRegistryPath := rfl
@[simp] theorem wearing_cleanup :
    (s.wearing g).config.discoveryCleanup = s.config.discoveryCleanup := rfl
@[simp] theorem wearing_maintenance :
    (s.wearing g).config.enableMaintenanceButtons = s.config.enableMaintenanceButtons := rfl
@[simp] theorem wearing_base : (s.wearing g).config.mqttBaseTopic = s.config.mqttBaseTopic := rfl
@[simp] theorem wearing_queueReason :
    (s.wearing g).deviceCommandQueueReason = s.deviceCommandQueueReason := rfl

/-- The parts belong to a bridge that differs elsewhere. -/
theorem Dressed.of_same (h : Dressed fixed s g) (hdevices : t.devices = s.devices)
    (hconfigs : t.state.deviceConfigs = s.state.deviceConfigs) (hconfig : t.config = s.config)
    (houtputs : t.journal.outputs = s.journal.outputs) : Dressed fixed t g where
  devices := hdevices ▸ h.devices
  configs := hconfigs ▸ h.configs
  ca := hconfig ▸ h.ca
  client := hconfig ▸ h.client
  outputs := houtputs ▸ h.outputs

theorem Dressed.emit (h : Dressed fixed s g) {o o' : Output} (ho : SameOutput fixed o o') :
    Dressed fixed (s.emit o) { g with outputs := g.outputs ++ [o'] } :=
  ⟨h.devices, h.configs, h.ca, h.client, List.rel_append h.outputs (.cons ho .nil)⟩

theorem Dressed.deviceAt (h : Dressed fixed s g) (a : String) :
    SameDevice fixed (s.deviceAt a) ((s.wearing g).deviceAt a) :=
  h.devices.getD (normalize a) _

theorem Dressed.withDevice (h : Dressed fixed s g) (a : String) :
    Dressed fixed (s.withDevice a) { g with
      devices := g.devices.insert (normalize a) ((s.wearing g).deviceAt a) } :=
  ⟨h.devices.insert _ (h.deviceAt a), h.configs, h.ca, h.client, h.outputs⟩

/-- The status that a bridge publishes. -/
theorem Dressed.status (h : Dressed fixed s g) (status : Option String) (mqtt mochad : Option Bool) :
    (s.wearing g).bridgeStatusPayload status mqtt mochad =
      s.bridgeStatusPayload status mqtt mochad := by
  have hmqtt : (s.wearing g).mqttStatusPayload = s.mqttStatusPayload := by
    show Json.obj [("tls", .obj [_, ("custom_ca", .bool (truthy g.tlsCaFile)),
      ("client_certificate", .bool (truthy g.tlsCertFile && truthy g.tlsKeyFile))])] = _
    rw [h.ca, h.client]
    rfl
  have hkeys : (s.wearing g).devices.keys = s.devices.keys := h.devices.keys
  unfold bridgeStatusPayload
  rw [hmqtt, hkeys]
  rfl

/-! ## Programs -/

variable {E : Env} {α β : Type}

/-- An update that does not look at the parts. -/
theorem same_update {f : Bridge → Bridge} (h : Dressed fixed (f s) g)
    (hf : f (s.wearing g) = (f s).wearing g) : Same fixed (modify f) (modify f) s g :=
  .update g hf h

theorem same_emit (h : Dressed fixed s g) {o o' : Output} (ho : SameOutput fixed o o') :
    Same fixed (modify fun s => s.emit o) (modify fun s => s.emit o') s g :=
  .update { g with outputs := g.outputs ++ [o'] } rfl (h.emit ho)

/-- The device of an address, which both bridges list then. -/
theorem same_deviceConfig (h : Dressed fixed s g) (a : String)
    {f f' : DeviceConfig → BridgeM β}
    (hf : ∀ d d' t g', SameDevice fixed d d' → Dressed fixed t g' → Same fixed (f d) (f' d') t g') :
    Same fixed (deviceConfig a >>= f) (deviceConfig a >>= f') s g := by
  obtain ⟨g', hexec, hrelated⟩ := hf _ _ _ _ (h.deviceAt a) (h.withDevice a)
  refine ⟨g', ?_, ?_⟩
  · rw [exec_bind_ok _ _ _ (exec_deviceConfig a), exec_bind_ok _ _ _ (exec_deviceConfig a)]
    exact hexec
  · rw [exec_bind_ok _ _ _ (exec_deviceConfig a)]
    exact hrelated

theorem publishOn_alike (h : Dressed fixed s g) (topic : String → Except PyError String)
    (payload : Json) (retain : Bool) :
    Same fixed (publishOn topic payload retain) (publishOn topic payload retain) s g :=
  .get_bind (.ofExcept_bind h fun _ _ => same_emit h (.same _))

theorem sendLine_alike (h : Dressed fixed s g) (line : String) (stamp : Option Stamp) :
    Same fixed (sendLine E line stamp) (sendLine E line stamp) s g := by
  refine .get_bind (.bind (same_update (h.of_same rfl rfl rfl rfl) rfl) fun _ t g' _ ht => ?_)
  refine .ite (fun _ => .throw ht _) fun _ => ?_
  rw [other_twins, wearing_sends]
  cases E.sendFault s.journal.sends.length with
  | some fault => exact .throw ht _
  | none => exact same_emit ht (.same _)

theorem publishOwnStatus_alike (h : Dressed fixed s g) :
    Same fixed publishOwnStatus publishOwnStatus s g := by
  refine .get_bind (.ite (fun _ => ?_) fun _ => .pure h _)
  rw [other_twins, h.status]
  exact publishOn_alike h _ _ _

/-! ## Device commands -/

theorem repeats_same {d d' : DeviceConfig} (h : SameDevice fixed d d') (c : Command) :
    repeats d' c = repeats d c :=
  h.frame (repeats · c) fun _ _ => rfl

theorem sendDeviceCommand_alike (h : Dressed fixed s g) (ticket : Nat) (a : String) (c : Command) :
    Same fixed (sendDeviceCommand E ticket a c) (sendDeviceCommand E ticket a c) s g :=
  same_deviceConfig h a fun d d' t g' hd ht => .ofExcept_bind ht fun line _ => by
    rw [repeats_same hd]
    exact .forM_same ht fun _ _ _ _ hu => sendLine_alike hu _ _

theorem queueDeviceCommand_alike (h : Dressed fixed s g) (queued : QueuedCommand) :
    Same fixed (queueDeviceCommand queued) (queueDeviceCommand queued) s g := by
  refine .get_bind ?_
  rw [other_twins, wearing_queue]
  dsimp only
  cases s.queuedDeviceCommands with
  | nil =>
    exact .bind (same_update (h.of_same rfl rfl rfl rfl) rfl) fun _ _ _ _ hu =>
      publishOwnStatus_alike hu
  | cons dropped rest =>
    refine .ite (fun _ => ?_) fun _ => ?_
    · exact .bind (same_update (h.of_same rfl rfl rfl rfl) rfl) fun _ _ _ _ ht =>
        .bind (same_update (ht.of_same rfl rfl rfl rfl) rfl) fun _ _ _ _ hu =>
          publishOwnStatus_alike hu
    · exact .bind (same_update (h.of_same rfl rfl rfl rfl) rfl) fun _ _ _ _ hu =>
        publishOwnStatus_alike hu

theorem executeDeviceCommand_alike (h : Dressed fixed s g) (a : String) (c : Command) :
    Same fixed (executeDeviceCommand E a c) (executeDeviceCommand E a c) s g := by
  refine .get_bind (.bind (same_update (h.of_same rfl rfl rfl rfl) rfl) fun _ t g' _ ht => ?_)
  rw [other_twins, wearing_queueReason, wearing_accepted]
  cases s.deviceCommandQueueReason with
  | some reason => exact queueDeviceCommand_alike ht _
  | none => exact sendDeviceCommand_alike ht _ _ _

theorem flushLoop_alike (queue : List QueuedCommand) (h : Dressed fixed s g) :
    Same fixed (flushLoop E queue) (flushLoop E queue) s g := by
  induction queue generalizing s g with
  | nil => exact .pure h _
  | cons queued rest ih =>
    refine .bind (same_update (h.of_same rfl rfl rfl rfl) rfl) fun _ t g' _ ht => ?_
    refine .bind (.tryCatch (.bind (sendDeviceCommand_alike ht _ _ _) fun _ _ _ _ hu => .pure hu _)
      fun e u g'' _ hu => .ite (fun _ => ?_) fun _ => .throw hu _) fun sent u g'' _ hu => ?_
    · exact .bind (same_update (hu.of_same rfl rfl rfl rfl) rfl) fun _ _ _ _ hv => .pure hv _
    · exact .ite (fun _ => ih hu) fun _ => .pure hu _

theorem flushQueuedDeviceCommands_alike (h : Dressed fixed s g) :
    Same fixed (flushQueuedDeviceCommands E) (flushQueuedDeviceCommands E) s g := by
  refine .get_bind ?_
  rw [other_twins, wearing_queue, wearing_queueReason]
  exact .ite (fun _ => .pure h _) fun _ => .ite (fun _ => .pure h _) fun _ =>
    .bind (flushLoop_alike _ h) fun _ _ _ _ ht =>
      .ite (fun _ => publishOwnStatus_alike ht) fun _ => .pure ht _

/-! ## Discovery -/

theorem sameMessage_refl (msg : DiscoveryMessage) : SameMessage fixed msg msg := ⟨rfl, .same _⟩

theorem publishDiscovery_alike (h : Dressed fixed s g) {msg msg' : DiscoveryMessage}
    (hmsg : SameMessage fixed msg msg') :
    Same fixed (publishDiscovery msg) (publishDiscovery msg') s g :=
  same_emit h hmsg.2

/-- The messages of two devices that differ in their name. -/
theorem both_device (m : DiscoveryManager) (diag : MochadDiagnostics) {d d' : DeviceConfig}
    (h : SameDevice fixed d d') :
    Both (List.Forall₂ (SameMessage fixed)) (m.discoveryMessages d diag)
      (m.discoveryMessages d' diag) := by
  rw [h.renamed, DiscoveryManager.discoveryMessages_named h.blank]
  cases hms : m.discoveryMessages d diag with
  | error e => exact .error e
  | ok ms =>
    obtain ⟨topic, fields, htopic, hfields, rfl⟩ := DiscoveryManager.discoveryMessages_one hms
    obtain ⟨rest, rfl⟩ := DiscoveryManager.payload_name hfields
    exact .ok (.cons ⟨rfl, .named ⟨d, _, htopic⟩ h.name⟩ .nil)

theorem sameMessages_refl (ms : List DiscoveryMessage) : List.Forall₂ (SameMessage fixed) ms ms :=
  List.forall₂_same.mpr fun msg _ => sameMessage_refl msg

/-- The messages for all devices and the bridge. -/
theorem both_messages (h : Dressed fixed s g) : Both (List.Forall₂ (SameMessage fixed))
    s.discoveryMessages (s.wearing g).discoveryMessages := by
  have hdevices := Both.mapM (f := fun d => s.discovery.discoveryMessages d s.mochadDiagnostics)
    (g := fun d => s.discovery.discoveryMessages d s.mochadDiagnostics)
    (fun d d' hd => both_device s.discovery s.mochadDiagnostics hd) h.devices.values
  have hown := Both.refl (@sameMessages_refl fixed)
    (s.discovery.bridgeDiagnosticMessages s.mochadDiagnostics)
  exact hdevices.bind fun ms ms' hms => hown.bind fun own own' hown =>
    .ok (List.rel_append (List.rel_flatten hms) hown)

theorem publishAll_alike (h : Dressed fixed s g) {ms ms' : List DiscoveryMessage}
    (hms : List.Forall₂ (SameMessage fixed) ms ms') :
    Same fixed (ms.forM publishDiscovery) (ms'.forM publishDiscovery) s g :=
  .forM hms h fun _ _ _ _ hmsg ht => publishDiscovery_alike ht hmsg

theorem publishBridgeDiagnosticDiscovery_alike (h : Dressed fixed s g) :
    Same fixed publishBridgeDiagnosticDiscovery publishBridgeDiagnosticDiscovery s g :=
  .get_bind (.ofExcept_bind h fun ms _ => publishAll_alike h
    (sameMessages_refl ms))

theorem publishCurrentDiscovery_alike (h : Dressed fixed s g) :
    Same fixed publishCurrentDiscovery publishCurrentDiscovery s g :=
  .get_bind (.both_bind h (both_messages h) fun _ _ hms =>
    .bind (publishAll_alike h hms) fun _ _ _ _ ht => hms.length_eq ▸ .pure ht _)

theorem desiredDiscoveryTopics_alike (h : Dressed fixed s g) :
    Same fixed desiredDiscoveryTopics desiredDiscoveryTopics s g :=
  .get_bind (.both_bind h (both_messages h) fun ms ms' hms => by
    have htopics : ms.map DiscoveryMessage.topic = ms'.map DiscoveryMessage.topic :=
      List.forall₂_eq_eq_eq ▸ List.forall₂_map_left_iff.mpr (List.forall₂_map_right_iff.mpr
        (hms.imp fun _ _ hmsg => hmsg.1.symm))
    rw [htopics]
    exact .pure h _)

/-! ## The registry -/

theorem loadRegistry_alike (h : Dressed fixed s g) :
    Same fixed (loadRegistry E) (loadRegistry E) s g := by
  refine .get_bind ?_
  rw [other_twins, wearing_registry, wearing_registryPath, wearing_visits]
  exact .bind (same_update (h.of_same rfl rfl rfl rfl) rfl) fun _ _ _ _ ht => .ofExcept ht _

theorem saveDiscoveryRegistry_alike (h : Dressed fixed s g) (topics : List String) :
    Same fixed (saveDiscoveryRegistry E topics) (saveDiscoveryRegistry E topics) s g := by
  refine .get_bind ?_
  rw [other_twins, wearing_registry, wearing_registryPath, wearing_visits]
  generalize s.registry.save s.config.discoveryRegistryPath (E.ioFaults s.journal.visits) topics =
    saved
  obtain ⟨result, file⟩ := saved
  refine .bind (same_update (h.of_same rfl rfl rfl rfl) rfl) fun _ _ _ _ ht => ?_
  cases result with
  | ok u => exact .pure ht _
  | error e => exact .ite (fun _ => .pure ht _) fun _ => .throw ht _

theorem clearTopics_alike (h : Dressed fixed s g) (topics : List String) :
    Same fixed (clearTopics topics) (clearTopics topics) s g :=
  .forM_same h fun _ _ _ _ ht => publishDiscovery_alike ht (sameMessage_refl _)

/-- Loading the registry, where an unreadable file counts as empty. -/
theorem loadOrEmpty_alike (h : Dressed fixed s g) :
    Same fixed (tryCatch (loadRegistry E) fun e => if isRegistryError e then pure [] else throw e)
      (tryCatch (loadRegistry E) fun e => if isRegistryError e then pure [] else throw e) s g :=
  .tryCatch (loadRegistry_alike h) fun _ _ _ _ ht => .ite (fun _ => .pure ht _) fun _ => .throw ht _

theorem runDiscoveryCleanup_alike (h : Dressed fixed s g) (force : Bool) :
    Same fixed (runDiscoveryCleanup E force) (runDiscoveryCleanup E force) s g := by
  refine .bind (desiredDiscoveryTopics_alike h) fun desired t g' _ ht => .get_bind ?_
  rw [other_twins, wearing_cleanup]
  dsimp only
  refine .ite (fun _ => ?_) fun _ => ?_
  · exact .bind (loadOrEmpty_alike ht) fun previous u g'' _ hu =>
      .bind (saveDiscoveryRegistry_alike hu _) fun _ _ _ _ hv => .pure hv _
  · refine .bind (.tryCatch (.bind (loadRegistry_alike ht) fun _ _ _ _ hu => .pure hu _)
      fun e _ _ _ hu => .ite (fun _ => .pure hu _) fun _ => .throw hu _) fun loaded u g'' _ hu => ?_
    cases loaded with
    | error e => exact .pure hu _
    | ok previous =>
      exact .bind (clearTopics_alike hu _) fun _ _ _ _ hv =>
        .bind (saveDiscoveryRegistry_alike hv _) fun _ _ _ _ hw => .pure hw _

theorem resetDiscovery_alike (h : Dressed fixed s g) :
    Same fixed (resetDiscovery E) (resetDiscovery E) s g :=
  .bind (desiredDiscoveryTopics_alike h) fun _ _ _ _ ht =>
    .bind (loadOrEmpty_alike ht) fun _ _ _ _ hu => .bind (clearTopics_alike hu _)
      fun _ _ _ _ hv => .bind (saveDiscoveryRegistry_alike hv _) fun _ _ _ _ hw => .pure hw _

/-! ## Actions -/

theorem executeAction_alike (h : Dressed fixed s g) (now : Timestamp) (x : BridgeAction) :
    Same fixed (executeAction E now x) (executeAction E now x) s g := by
  refine .get_bind ?_
  rw [other_twins, wearing_mqtt]
  refine .ite (fun _ => same_update (h.of_same rfl rfl rfl rfl) rfl) fun _ => ?_
  cases x with
  | publishState a c retain => exact publishOn_alike h _ _ _
  | publishEvent event => exact publishOn_alike h _ _ _
  | publishCommandEvent a payload retain => exact publishOn_alike h _ _ _
  | publishAttributes a payload retain => exact publishOn_alike h _ _ _
  | publishDiscovery a =>
    exact same_deviceConfig h a fun d d' t g' hd ht => .get_bind
      (.both_bind ht (both_device _ _ hd) fun _ _ hms => publishAll_alike ht hms)
  | publishAvailability online => exact publishOn_alike h _ _ _
  | publishStatus status mqtt mochad retain =>
    dsimp only
    rw [h.status]
    exact publishOn_alike h _ _ _
  | publishBridgeResponse command success message payload retain => exact publishOn_alike h _ _ _
  | sendMochadCommand command => exact sendLine_alike h _ _
  | sendDeviceCommand a c => exact executeDeviceCommand_alike h a c
  | requestStatus => exact sendLine_alike h _ _
  | logUnknownEvent event => exact .pure h _

theorem executeActions_alike (now : Timestamp) (actions : List BridgeAction)
    (h : Dressed fixed s g) :
    Same fixed (executeActions E now actions) (executeActions E now actions) s g := by
  induction actions generalizing s g with
  | nil => exact .pure h _
  | cons x actions ih =>
    refine .bind (.tryCatch (.bind (executeAction_alike h now x) fun _ _ _ _ ht => .pure ht _)
      fun e _ _ _ ht => .ite (fun _ => .pure ht _) fun _ => .throw ht _) fun _ _ _ _ ht => ?_
    exact .ite (fun _ => ih ht) fun _ => .pure ht _

/-- A call of the state manager, whose actions are executed. -/
theorem called_alike (h : Dressed fixed s g) (c : Call) {p q : List BridgeAction → BridgeM β}
    (hpq : ∀ actions t, Dressed fixed t g → Same fixed (p actions) (q actions) t g) :
    Same fixed (do
        set { s with state := (s.state.call c).1 }
        p (s.state.call c).2)
      (do
        set { s.wearing g with state := ((s.wearing g).state.call c).1 }
        q ((s.wearing g).state.call c).2) s g := by
  obtain ⟨hconfigs, hcall⟩ := StateManager.call_withConfigs h.configs c
  have hcall' : (s.wearing g).state.call c =
    ((s.state.call c).1.withConfigs g.deviceConfigs, (s.state.call c).2) := hcall
  rw [hcall']
  have ht : Dressed fixed { s with state := (s.state.call c).1 } g := h.of_same rfl hconfigs rfl rfl
  obtain ⟨g', hexec, hrelated⟩ := hpq (s.state.call c).2 _ ht
  exact ⟨g', hexec, hrelated⟩

theorem notify_alike (h : Dressed fixed s g) (now : Timestamp) {c : Call}
    {notification : StateManager → StateManager × List BridgeAction}
    (hn : ∀ sm : StateManager, notification sm = sm.call c) :
    Same fixed (notify E now notification) (notify E now notification) s g := by
  obtain rfl : notification = fun sm => sm.call c := funext hn
  exact .get_bind (called_alike h c fun actions _ ht => executeActions_alike now actions ht)

/-! ## Messages -/

theorem respond_alike (h : Dressed fixed s g) (now : Timestamp) (command : Option BridgeCommand)
    (success : Bool) (message : String) (payload : List (String × Json)) :
    Same fixed (respond E now command success message payload)
      (respond E now command success message payload) s g :=
  executeAction_alike h now _

theorem handleBridgeCommand_alike (h : Dressed fixed s g) (now : Timestamp)
    (command : BridgeCommand) :
    Same fixed (handleBridgeCommand E now command) (handleBridgeCommand E now command) s g := by
  refine .get_bind ?_
  rw [other_twins, wearing_maintenance]
  refine .ite (fun _ => respond_alike h now _ _ _ _) fun _ => ?_
  cases command with
  | ping => exact respond_alike h now _ _ _ _
  | status =>
    dsimp only
    rw [h.status]
    exact respond_alike h now _ _ _ _
  | sync =>
    refine .ite (fun _ => respond_alike h now _ _ _ _) fun _ => ?_
    refine .bind (.tryCatch (.bind (executeAction_alike h now _) fun _ _ _ _ ht => .pure ht _)
      fun e _ _ _ ht => .ite (fun _ => .pure ht _) fun _ => .throw ht _) fun failure t g' _ ht => ?_
    cases failure <;> exact respond_alike ht now _ _ _ _
  | rediscover =>
    exact .bind (publishCurrentDiscovery_alike h) fun _ _ _ _ ht =>
      .bind (desiredDiscoveryTopics_alike ht) fun _ _ _ _ hu =>
        .bind (saveDiscoveryRegistry_alike hu _) fun _ _ _ _ hv => respond_alike hv now _ _ _ _
  | pruneDiscovery =>
    exact .bind (runDiscoveryCleanup_alike h true) fun _ _ _ _ ht => respond_alike ht now _ _ _ _
  | resetDiscovery =>
    exact .bind (resetDiscovery_alike h) fun _ _ _ _ ht => respond_alike ht now _ _ _ _

theorem onMqttBridgeCommand_alike (h : Dressed fixed s g) (now : Timestamp)
    (topic payload : String) :
    Same fixed (onMqttBridgeCommand E now topic payload) (onMqttBridgeCommand E now topic payload)
      s g := by
  unfold onMqttBridgeCommand
  cases parseBridgeCommandPayload payload with
  | none => exact respond_alike h now _ _ _ _
  | some command => exact handleBridgeCommand_alike h now command

theorem onMqttCommand_alike (h : Dressed fixed s g) (now : Timestamp)
    (device topic payload : String) :
    Same fixed (onMqttCommand E now device topic payload) (onMqttCommand E now device topic payload)
      s g := by
  refine .get_bind ?_
  rw [other_twins, wearing_base]
  cases Topics.parseCommandTopic topic s.config.mqttBaseTopic with
  | error e => exact .pure h _
  | ok topicAddress =>
    refine .ite (fun _ => .pure h _) fun _ => ?_
    cases parseCommandPayload payload with
    | none => exact .pure h _
    | some command =>
      dsimp only
      cases Protocol.normalizeAddress device with
      | error e => exact .pure h _
      | ok address =>
        refine same_deviceConfig h address fun d d' t g' hd ht => ?_
        have hsupported : d'.supportedCommands = d.supportedCommands :=
          hd.frame DeviceConfig.supportedCommands fun _ _ => rfl
        rw [hsupported]
        refine .ite (fun _ => .pure ht _) fun _ => ?_
        cases Protocol.encodeRfCommand address command with
        | error e => exact .pure ht _
        | ok line =>
          exact .get_bind (called_alike ht (.optimisticUpdate now address command)
            fun actions _ hu => executeActions_alike now actions hu)

theorem onMessage_alike (h : Dressed fixed s g) (now : Timestamp) (topic payload : String) :
    Same fixed (onMessage E now topic payload) (onMessage E now topic payload) s g := by
  refine .get_bind ?_
  rw [other_twins, wearing_mqtt]
  cases Topics.parseBridgeCommandTopic topic s.mqtt.baseTopic with
  | ok u => exact onMqttBridgeCommand_alike h now _ _
  | error e =>
    dsimp only
    cases Topics.parseCommandTopic topic s.mqtt.baseTopic with
    | ok device => exact onMqttCommand_alike h now _ _ _
    | error e => exact .pure h _

/-! ## Connections -/

theorem onConnect_alike (h : Dressed fixed s g) (now : Timestamp) :
    Same fixed (onConnect E now) (onConnect E now) s g := by
  have hnoted : Same fixed
      (modify fun s : Bridge => { s with mqtt := { s.mqtt with connected := true } }.emit .session)
      (modify fun s : Bridge => { s with mqtt := { s.mqtt with connected := true } }.emit .session)
      s g :=
    .update { g with outputs := g.outputs ++ [.session] } rfl
      (Dressed.emit (s := { s with mqtt := { s.mqtt with connected := true } })
        (h.of_same rfl rfl rfl rfl) (.same .session))
  exact .bind hnoted fun _ _ _ _ ht =>
    .bind (notify_alike ht now (c := .mqttConnected) fun _ => rfl) fun _ _ _ _ hu =>
      .bind (publishBridgeDiagnosticDiscovery_alike hu) fun _ _ _ _ hv =>
        .bind (runDiscoveryCleanup_alike hv false) fun _ _ _ _ hw => .pure hw _

theorem onDisconnect_alike (h : Dressed fixed s g) (now : Timestamp) :
    Same fixed (onDisconnect E now) (onDisconnect E now) s g :=
  .bind (same_update (h.of_same rfl rfl rfl rfl) rfl) fun _ _ _ _ ht => .get_bind
    (.ite (fun _ => .pure ht _) fun _ => notify_alike ht now (c := .mqttDisconnected) fun _ => rfl)

theorem requestMochadDiagnostics_alike (now : Timestamp) (commands : List String)
    (h : Dressed fixed s g) :
    Same fixed (requestMochadDiagnostics E now commands) (requestMochadDiagnostics E now commands)
      s g := by
  induction commands generalizing s g with
  | nil => exact .pure h _
  | cons command commands ih =>
    refine .bind (.tryCatch (.bind (executeAction_alike h now _) fun _ _ _ _ ht => .pure ht _)
      fun e _ _ _ ht => .ite (fun _ => .pure ht _) fun _ => .throw ht _) fun _ _ _ _ ht => ?_
    exact .ite (fun _ => ih ht) fun _ => .pure ht _

theorem connect_alike (h : Dressed fixed s g) (now : Timestamp) :
    Same fixed (connect E now) (connect E now) s g :=
  .get_bind (.ite (fun _ => .pure h _) fun _ =>
    .bind (same_update (h.of_same rfl rfl rfl rfl) rfl) fun _ _ _ _ ht =>
      .bind (notify_alike ht now (c := .mochadConnected) fun _ => rfl) fun _ _ _ _ hu =>
        requestMochadDiagnostics_alike now _ hu)

theorem disconnect_alike (h : Dressed fixed s g) (now : Timestamp) :
    Same fixed (disconnect E now) (disconnect E now) s g :=
  .bind (same_update (h.of_same rfl rfl rfl rfl) rfl) fun _ _ _ _ ht =>
    .bind (same_update (ht.of_same rfl rfl rfl rfl) rfl) fun _ _ _ _ hu =>
      notify_alike hu now (c := .mochadDisconnected) fun _ => rfl

/-! ## mochad lines -/

theorem publishDiagnostics_alike (h : Dressed fixed s g) (kind : DiagnosticKind) :
    Same fixed (publishDiagnostics E kind) (publishDiagnostics E kind) s g := by
  refine .get_bind (.ite (fun _ => ?_) fun _ => .pure h _)
  rw [other_twins, h.status]
  refine .bind (publishOn_alike h _ _ _) fun _ _ _ _ ht => .ite (fun _ => ?_) fun _ => .pure ht _
  exact .bind (publishCurrentDiscovery_alike ht) fun _ _ _ _ hu =>
    .bind (desiredDiscoveryTopics_alike hu) fun _ _ _ _ hv =>
      .bind (saveDiscoveryRegistry_alike hv _) fun _ _ _ _ hw => .pure hw _

theorem handleDiagnostics_alike (h : Dressed fixed s g) (now : Timestamp)
    (payload : List (String × Json)) (kind : DiagnosticKind) :
    Same fixed (handleDiagnostics E now payload kind) (handleDiagnostics E now payload kind) s g :=
  .bind (same_update (h.of_same rfl rfl rfl rfl) rfl) fun _ _ _ _ ht =>
    .bind (publishDiagnostics_alike ht kind) fun _ _ _ _ hu =>
      .ite (fun _ => flushQueuedDeviceCommands_alike hu) fun _ => .pure hu _

theorem onMochadLine_alike (h : Dressed fixed s g) (now : Timestamp) (line : String) :
    Same fixed (onMochadLine E now line) (onMochadLine E now line) s g := by
  unfold onMochadLine
  dsimp only
  cases diagnosticLine (stripChars ['\r', '\n'] line) with
  | some found => exact handleDiagnostics_alike h now found.1 found.2
  | none =>
    refine .get_bind ?_
    rw [other_twins, wearing_protocol]
    refine .ofExcept_bind h fun parsed _ => ?_
    have hparser : Dressed fixed { s with parser := parsed.2 } g := h.of_same rfl rfl rfl rfl
    exact called_alike hparser (.apply now parsed.1) fun actions _ hu =>
      executeActions_alike now actions hu

/-! ## Reload and shutdown -/

theorem addressAllowedByConfig_disguise (config : Config) (g : Guise) :
    addressAllowedByConfig (disguise config g) = addressAllowedByConfig config := by
  funext a
  simp only [addressAllowedByConfig, disguise]

/-- A reload compares names, so it is the same only where they agree. -/
theorem applyRuntimeConfig_alike (h : Dressed fixed s g) (hfixed : fixed) (newConfig : Config) :
    Same fixed (applyRuntimeConfig E newConfig) (applyRuntimeConfig E newConfig) s g := by
  refine .get_bind ?_
  have hdevices : ((twins fixed).other s g).devices = s.devices := h.devices.eq hfixed
  have hallowed : addressAllowedByConfig ((twins fixed).other s g).config =
    addressAllowedByConfig s.config := addressAllowedByConfig_disguise s.config g
  rw [hdevices, hallowed]
  refine .ite (fun _ => .pure h _) fun _ => ?_
  refine .bind (.update { g with
      listed := newConfig.devices
      configured := newConfig.configured
      devices := newConfig.devices.filterKeys (addressAllowedByConfig s.config) } rfl
    ⟨.refl _, h.configs, h.ca, h.client, h.outputs⟩) fun _ _ _ _ ht => ?_
  refine .get_bind (.ite (fun _ => ?_) fun _ => .pure ht _)
  refine .bind (publishCurrentDiscovery_alike ht) fun _ _ _ _ hu =>
    .bind (runDiscoveryCleanup_alike hu false) fun _ _ _ _ hv => .get_bind ?_
  rw [other_twins, hv.status]
  exact publishOn_alike hv _ _ _

theorem checkConfigFileReload_alike (h : Dressed fixed s g) (hfixed : fixed) (monotonic : Nat)
    (signature : Option (Int × Nat)) (loaded : Except PyError Config) :
    Same fixed (checkConfigFileReload E monotonic signature loaded)
      (checkConfigFileReload E monotonic signature loaded) s g := by
  refine .get_bind (.ite (fun _ => .pure h _) fun _ => .ite (fun _ => .pure h _) fun _ => ?_)
  refine .bind (same_update (h.of_same rfl rfl rfl rfl) rfl) fun _ _ _ _ ht =>
    .ite (fun _ => .pure ht _) fun _ => ?_
  cases loaded with
  | ok newConfig =>
    exact .bind (applyRuntimeConfig_alike ht hfixed newConfig) fun _ _ _ _ hu =>
      same_update (hu.of_same rfl rfl rfl rfl) rfl
  | error e => cases e <;> first | exact .pure ht _ | exact .throw ht _

theorem stop_alike (h : Dressed fixed s g) : Same fixed stop stop s g := by
  refine .bind (same_update (h.of_same rfl rfl rfl rfl) rfl) fun _ _ _ _ ht =>
    .get_bind (.ite (fun _ => ?_) fun _ => .pure ht _)
  rw [other_twins, ht.status]
  exact .bind (publishOn_alike ht _ _ _) fun _ _ _ _ hu => publishOn_alike hu _ _ _

/-! ## Steps -/

/-- A callback of two such bridges. -/
theorem callback_alike (h : Dressed fixed s g) (now : Timestamp) {i : Input}
    (hi : i.polls = true → fixed) : Same fixed (callback E now i) (callback E now i) s g := by
  cases i <;> rw [callback]
  case mqttMessage topic payload => exact onMessage_alike h now topic payload
  case mqttConnected => exact onConnect_alike h now
  case mqttDisconnected => exact onDisconnect_alike h now
  case mochadConnected => exact connect_alike h now
  case mochadDisconnected => exact disconnect_alike h now
  case mochadLine line => exact onMochadLine_alike h now line
  case poll monotonic signature loaded =>
    exact checkConfigFileReload_alike h (hi rfl) monotonic signature loaded
  case stop => exact stop_alike h

theorem step_alike (h : Dressed fixed s g) {i : Timestamp × Input}
    (hi : i.2.polls = true → fixed) : ∃ g',
      Bridge.step E (s.wearing g) i = (Bridge.step E s i).wearing g' ∧
        Dressed fixed (Bridge.step E s i) g' := by
  obtain ⟨g', hexec, hrelated⟩ := callback_alike (E := E) h i.1 hi
  obtain ⟨now, i⟩ := i
  cases hlive : s.crashed with
  | true => exact ⟨g, by simp only [Bridge.step, wearing_crashed, hlive, if_true],
      by simpa only [Bridge.step, hlive, if_true] using h⟩
  | false =>
    have hlive' : (s.wearing g).crashed = false := hlive
    cases hpolls : i.polls with
    | false =>
      rw [step_callback hlive hpolls, step_callback hlive' hpolls]
      exact ⟨g', congrArg Prod.snd hexec, hrelated⟩
    | true =>
      cases i with
      | poll monotonic signature loaded =>
        unfold Bridge.step
        rw [hlive, hlive']
        dsimp only
        rw [if_neg Bool.false_ne_true, if_neg Bool.false_ne_true, wearing_stopping]
        split
        · exact ⟨g, rfl, h⟩
        · cases hout : exec (callback E now (.poll monotonic signature loaded)) s with
          | mk result t =>
            have hexec' : exec (callback E now (.poll monotonic signature loaded)) (s.wearing g) =
                ((exec (callback E now (.poll monotonic signature loaded)) s).1,
                  (exec (callback E now (.poll monotonic signature loaded)) s).2.wearing g') := hexec
            have hrelated' : Dressed fixed
              (exec (callback E now (.poll monotonic signature loaded)) s).2 g' := hrelated
            rw [hexec', hout]
            rw [hout] at hrelated'
            cases result with
            | ok u => exact ⟨g', rfl, hrelated'⟩
            | error e => exact ⟨g', rfl, hrelated'.of_same rfl rfl rfl rfl⟩
      | _ => cases hpolls

end Wearing

/-! ## Runs -/

/-- Two configurations that differ in the names of the devices and the paths of the TLS
files. Which files there are is the same. -/
structure SameConfig (fixed : Prop) (config config' : Config) : Prop where
  rest : config' = { config with
    devices := config'.devices
    configured := config'.configured
    tlsCaFile := config'.tlsCaFile
    tlsCertFile := config'.tlsCertFile
    tlsKeyFile := config'.tlsKeyFile }
  devices : SameTable fixed config.devices config'.devices
  ca : truthy config'.tlsCaFile = truthy config.tlsCaFile
  client : (truthy config'.tlsCertFile && truthy config'.tlsKeyFile) =
    (truthy config.tlsCertFile && truthy config.tlsKeyFile)

section Runs
variable {fixed : Prop} {E : Env} {config config' : Config} {signature : Option (Int × Nat)}
  {monotonic : Nat} {registry : RegistryFile} {journal : Journal} {s₀ : Bridge}

/-- Two such bridges at the start. -/
theorem init_alike (hconfig : SameConfig fixed config config')
    (h₀ : init E config signature monotonic registry journal = .ok s₀) : ∃ g,
      init E config' signature monotonic registry journal = .ok (s₀.wearing g) ∧
        Dressed fixed s₀ g := by
  have hdevices := hconfig.devices.filterKeys (addressAllowedByConfig config)
  obtain ⟨configs, hstate, hconfigs⟩ := StateManager.init_withConfigs hdevices.values
    config.optimisticUpdates config.x10Housecodes
  let g : Guise := {
    listed := config'.devices
    configured := config'.configured
    tlsCaFile := config'.tlsCaFile
    tlsCertFile := config'.tlsCertFile
    tlsKeyFile := config'.tlsKeyFile
    devices := config'.devices.filterKeys (addressAllowedByConfig config)
    deviceConfigs := configs
    outputs := journal.outputs }
  have hrest : config' = disguise config g := hconfig.rest
  have hallowed : addressAllowedByConfig config' = addressAllowedByConfig config := by
    rw [hrest]
    exact addressAllowedByConfig_disguise config g
  have hrun : init E config' signature monotonic registry journal =
      (init E config signature monotonic registry journal).map (·.wearing g) := by
    have hbase : config'.mqttBaseTopic = config.mqttBaseTopic := by rw [hrest]; rfl
    have hfile : config'.configFile = config.configFile := by rw [hrest]; rfl
    have hpath : config'.discoveryRegistryPath = config.discoveryRegistryPath := by
      rw [hrest]
      rfl
    have hoptimistic : config'.optimisticUpdates = config.optimisticUpdates := by rw [hrest]; rfl
    have hcodes : config'.x10Housecodes = config.x10Housecodes := by rw [hrest]; rfl
    unfold init
    dsimp only
    rw [hallowed, hbase, hfile, hpath, hoptimistic, hcodes, hstate]
    cases Topics.availability config.mqttBaseTopic with
    | error e => rfl
    | ok topic =>
      generalize (if config.configFile.isSome = true then _ else _) = visit
      obtain ⟨created, file⟩ := visit
      rw [hrest]
      rfl
  rw [hrun, h₀]
  refine ⟨g, rfl, ?_⟩
  obtain ⟨_, file, rfl⟩ := init_ok h₀
  exact ⟨hdevices, hconfigs, hconfig.ca, hconfig.client, List.forall₂_same.mpr fun o _ => .same o⟩

/-- Runs of two such bridges. -/
theorem exec_alike (hconfig : SameConfig fixed config config')
    (h₀ : init E config signature monotonic registry journal = .ok s₀)
    {inputs : List (Timestamp × Input)} (hinputs : ∀ i ∈ inputs, i.2.polls = true → fixed) :
    ∃ s₀', init E config' signature monotonic registry journal = .ok s₀' ∧ ∃ g,
      Run.exec (Bridge.step E) s₀' inputs = (Run.exec (Bridge.step E) s₀ inputs).wearing g ∧
        Dressed fixed (Run.exec (Bridge.step E) s₀ inputs) g := by
  obtain ⟨g, hinit, hdressed⟩ := init_alike hconfig h₀
  exact ⟨_, hinit, related_exec (M := twins fixed)
    (fun i hi s m h => step_alike h (hinputs i hi)) hdressed⟩

/-- Friendly names are for display. Of two bridges whose devices have different names
(blank for both or for none), each publishes in a run without polls what the other one
does, but for the name in the discovery payload of a device, and does all else as the
other. -/
theorem names_displayed_only (hconfig : SameConfig False config config')
    (h₀ : init E config signature monotonic registry journal = .ok s₀)
    {inputs : List (Timestamp × Input)} (hinputs : ∀ i ∈ inputs, i.2.polls = false) :
    ∃ s₀', init E config' signature monotonic registry journal = .ok s₀' ∧
      let s := Run.exec (Bridge.step E) s₀ inputs
      let s' := Run.exec (Bridge.step E) s₀' inputs
      List.Forall₂ (SameOutput False) s.journal.outputs s'.journal.outputs ∧
        s'.journal.sends = s.journal.sends ∧ s'.registry = s.registry ∧
        s'.state = { s.state with deviceConfigs := s'.state.deviceConfigs } ∧
        s'.queuedDeviceCommands = s.queuedDeviceCommands ∧ s'.crashed = s.crashed := by
  have hpolls : ∀ i ∈ inputs, i.2.polls = true → False := fun i hi hpolls =>
    absurd hpolls (Bool.eq_false_iff.mp (hinputs i hi))
  obtain ⟨s₀', hinit, g, hexec, hdressed⟩ := exec_alike hconfig h₀ hpolls
  refine ⟨s₀', hinit, ?_⟩
  dsimp only
  rw [hexec]
  exact ⟨hdressed.outputs, rfl, rfl, rfl, rfl, rfl⟩

/-- A lamp that is called after the hall it stands in. -/
theorem names_displayed_only_hall : ∃ s₀ s₀',
    init {} (.plain "A1:Lamp") none 0 .absent = .ok s₀ ∧
      init {} (.plain "A1:Hall") none 0 .absent = .ok s₀' ∧
      let inputs := [(1, .mochadConnected), (2, .mqttConnected),
        (3, .mochadLine "Rx PL HouseUnit: A1")]
      List.Forall₂ (SameOutput False) (Run.exec (Bridge.step {}) s₀ inputs).journal.outputs
        (Run.exec (Bridge.step {}) s₀' inputs).journal.outputs := by
  have hinit : (init {} (.plain "A1:Lamp") none 0 .absent).map (fun _ => ()) = .ok () := by
    decide +kernel
  obtain ⟨s₀, h₀, _⟩ := map_ok hinit
  have hhall : (Config.devicesOf "A1:Hall").entries =
      (Config.devicesOf "A1:Lamp").entries.map fun e => (e.1, { e.2 with name := "Hall" }) := by
    decide +kernel
  have hblank : ∀ e ∈ (Config.devicesOf "A1:Lamp").entries, strip e.2.name ≠ "" := by
    decide +kernel
  have hname : strip "Hall" ≠ "" := by decide
  have hdevices : SameTable False (Config.devicesOf "A1:Lamp") (Config.devicesOf "A1:Hall") := by
    rw [SameTable, Dict.Paired, hhall, List.forall₂_map_right_iff, List.forall₂_same]
    exact fun e he => ⟨rfl, rfl, iff_of_false hname (hblank e he), False.elim⟩
  have hconfig : SameConfig False (.plain "A1:Lamp") (.plain "A1:Hall") :=
    ⟨rfl, hdevices, rfl, rfl⟩
  have hinputs : ∀ i ∈ [((1 : Timestamp), Input.mochadConnected), (2, .mqttConnected),
      (3, .mochadLine "Rx PL HouseUnit: A1")], i.2.polls = false := by
    decide
  obtain ⟨s₀', h₀', houtputs, _⟩ := names_displayed_only hconfig h₀ hinputs
  exact ⟨s₀, s₀', h₀, h₀', houtputs⟩

end Runs

end Bridge

end MochadBridge
