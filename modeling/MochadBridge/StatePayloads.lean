import MochadBridge.ConfigFile
import MochadBridge.DeviceHistory
import MochadBridge.DeviceTables
import MochadBridge.DiscoveryShape
import MochadBridge.DiscoveryTopics

/-!
# State payloads

The discovery payload of a stateful device announces `ON` and `OFF` as the values
of its state topic. The state manager takes the commands of `STATE_COMMANDS` as
states: all of them become `ON` or `OFF`, but `DIM` stays `DIM`.

Results:
1. `callWrites_binary`: a call that does not dim (`dims`) sets states to `ON` or
   `OFF` only.
2. `payload_announces`: what the payload of a stateful device announces.
3. `states_announced`: in a run without dimming, and without a reload that takes a
   stateful device's state away, what is published on a state topic was announced.
-/

namespace MochadBridge

open Py Effect

namespace StateManager

variable {sm : StateManager}

/-- The values of a switch. -/
def Binary (c : Command) : Prop := c = .on ∨ c = .off

/-- The call makes `DIM` the state of a device: a `DIM` event, or a `DIM` command
that is shown optimistically. -/
def dims (sm : StateManager) : Call → Bool
  | .apply _ (some (.device e)) =>
    e.command = .dim && sm.addressAllowed e.address && (sm.deviceConfig e.address).stateful
  | .optimisticUpdate _ a c =>
    c = .dim && sm.optimisticUpdates && sm.addressAllowed a &&
      decide (c ∈ (sm.deviceConfig a).supportedCommands) && (sm.deviceConfig a).stateful
  | _ => false

/-- Of the states, only `DIM` does not become `ON` or `OFF`. -/
theorem binary_authoritativeState {c : Command} (hc : c ∈ stateCommands) (hd : c ≠ .dim) :
    Binary (authoritativeState c) := by
  revert hd
  revert hc
  unfold Binary
  cases c <;> decide

/-- A command that is sent to a device sets a state. -/
theorem stateCommands_of_encodes {c : Command}
    (h : (Protocol.encodeCommandMap c).isSome = true) : c ∈ stateCommands := by
  revert h
  cases c <;> decide

theorem binary_houseState (c : Command) : Binary (houseState c) := by
  unfold houseState
  split
  · exact .inr rfl
  · exact .inl rfl

theorem applyWrites_binary {event : Option Event} {now : Timestamp}
    (hp : (Call.apply now event).FromBridge) (hd : sm.dims (.apply now event) = false)
    {w : String × Command} (hw : w ∈ sm.applyWrites event) : Binary w.2 := by
  cases event with
  | none => exact absurd hw List.not_mem_nil
  | some event =>
    cases event with
    | device e =>
      simp only [applyWrites] at hw
      split at hw
      · next ha =>
        unfold eventWrites at hw
        split at hw
        · exact absurd hw List.not_mem_nil
        · next hs =>
          rw [List.mem_singleton.mp hw]
          rw [Stateless, not_or, not_not, Bool.not_eq_false] at hs
          refine binary_authoritativeState hs.2 fun hdim => ?_
          simp [dims, hdim, ha, hs.1] at hd
      · exact absurd hw List.not_mem_nil
    | house e =>
      simp only [applyWrites, houseWrites] at hw
      split at hw
      · obtain ⟨st, _, hw⟩ := List.mem_flatMap.mp hw
        split at hw
        · rw [List.mem_singleton.mp hw]
          exact binary_houseState e.command
        · exact absurd hw List.not_mem_nil
      · exact absurd hw List.not_mem_nil
    | snapshot snap =>
      obtain ⟨entry, he, hw⟩ := List.mem_flatMap.mp hw
      have hvalue := (hp entry.1 entry.2 (Dict.mem_entries.mp he)).2
      unfold entryWrites at hw
      split at hw
      · rw [List.mem_singleton.mp hw]
        rcases hvalue with hv | hv
        · rw [hv]
          exact .inl rfl
        · rw [hv]
          exact .inr rfl
      · exact absurd hw List.not_mem_nil
    | unknown e => exact absurd hw List.not_mem_nil

/-- A call that does not dim sets states to `ON` or `OFF` only. -/
theorem callWrites_binary {c : Call} (hc : c.FromBridge) (hd : sm.dims c = false)
    {w : String × Command} (hw : w ∈ sm.callWrites c) : Binary w.2 := by
  cases c with
  | apply now event => exact applyWrites_binary hc hd hw
  | optimisticUpdate now a c =>
    simp only [callWrites] at hw
    split at hw
    · next h =>
      unfold commandWrites at hw
      split at hw
      · next hs =>
        rw [List.mem_singleton.mp hw]
        have hstate : c ∈ stateCommands := stateCommands_of_encodes hc.2
        refine binary_authoritativeState hstate fun hdim => ?_
        simp [dims, hdim, hs.1, hs.2, h.1, hdim ▸ h.2] at hd
      · exact absurd hw List.not_mem_nil
    · exact absurd hw List.not_mem_nil
  | mqttConnected | mqttDisconnected | mochadConnected | mochadDisconnected =>
    exact absurd hw List.not_mem_nil

/-- Whether a call dims depends on how the manager was set up. -/
theorem dims_of_setup {sm' : StateManager} (h : SameSetup sm sm') (c : Call) :
    sm'.dims c = sm.dims c := by
  unfold dims
  split
  · rw [h.addressAllowed, h.deviceConfig]
  · rw [h.addressAllowed, h.deviceConfig, h.optimistic]
  · rfl

end StateManager

/-! ## What discovery announces -/

namespace DiscoveryManager

variable {m : DiscoveryManager}

/-- The payload of a stateful device announces the values of a switch. -/
theorem payload_announces {d : DeviceConfig} (diag : MochadDiagnostics)
    (hbase : ∃ b, Topics.cleanSegment m.baseTopic = .ok b) (ha : IsAddress d.address)
    (hd : ¬ IsButton d) :
    ∃ fields, m.payload d diag = .ok fields ∧ Json.field? fields "payload_on" = some (.str "ON") ∧
      Json.field? fields "payload_off" = some (.str "OFF") := by
  obtain ⟨base, hbase⟩ := hbase
  have haddr : Topics.address d.address = .ok d.address :=
    Topics.address_ok.mpr ⟨ha.upper_strip.symm, ha⟩
  have hs : Topics.cleanSegment "state" = .ok "state" := Topics.cleanSegment_fixed _ (by simp)
  have hc : Topics.cleanSegment "command" = .ok "command" := Topics.cleanSegment_fixed _ (by simp)
  have hav : Topics.cleanSegment "availability" = .ok "availability" :=
    Topics.cleanSegment_fixed _ (by simp)
  refine ⟨statefulFields d.name ("x10_" ++ d.address)
    (defaultEntityId (Topics.entityType d) ("x10_" ++ d.address))
    ("/".intercalate [base, d.address, "state"]) ("/".intercalate [base, d.address, "command"])
    ("/".intercalate [base, "bridge", "availability"]) (m.deviceBlock diag) (m.originBlock diag),
    ?_, by simp [statefulFields, Json.field?, List.lookup_cons],
    by simp [statefulFields, Json.field?, List.lookup_cons]⟩
  rw [payload, if_neg (show ¬ (_ ∨ _) from hd)]
  simp only [statefulPayload, Topics.uniqueId, Topics.state, Topics.command, Topics.deviceTopic,
    Topics.availability, Topics.bridgeTopic, haddr, hbase, hs, hc, hav]
  rfl

end DiscoveryManager

namespace Bridge

/-- The value is one that the discovery payload of the device announces. -/
def Announced (s : Bridge) (a : String) (value : Json) : Prop :=
  ∃ fields, s.discovery.payload (s.deviceAt a) s.mochadDiagnostics = .ok fields ∧
    (Json.field? fields "payload_on" = some value ∨ Json.field? fields "payload_off" = some value)

/-- The step makes `DIM` the state of a device. -/
def Dims (s : Bridge) (i : Timestamp × Input) : Prop :=
  ∃ c, s.stepCall i.1 i.2 = some c ∧ s.state.dims c = true

/-- The step loads a configuration under which a device is a button that has a
state under the configuration the bridge started with. -/
def Retypes (config : Config) (s : Bridge) (i : Timestamp × Input) : Prop :=
  ∃ newConfig, s.loads i = some newConfig ∧ ∃ a, IsAddress a ∧
    addressAllowedByConfig config a = true ∧ (config.deviceAt a).stateful = true ∧
      IsButton (newConfig.deviceAt a)

/-! ## State topics -/

section Labels
variable {E : Env} {s : Bridge} {l : Label} {a topic : String}

/-- The last segment and the device of a topic. -/
theorem device_of_topic {device device' suffix suffix' base base' : String}
    (hs : Topics.Plain suffix) (hs' : Topics.Plain suffix')
    (h : Topics.deviceTopic device suffix base = .ok topic)
    (h' : Topics.deviceTopic device' suffix' base' = .ok topic) :
    suffix = suffix' ∧ normalize device = normalize device' := by
  obtain ⟨_, hends⟩ := Topics.ends_deviceTopic hs h
  obtain ⟨_, hends'⟩ := Topics.ends_deviceTopic hs' h'
  rw [hends, List.cons.injEq, List.cons.injEq] at hends'
  exact ⟨hends'.1, hends'.2.1⟩

theorem isDiscovery_of_announces {m : DiscoveryMessage} (h : s.Announces m) :
    Topics.IsDiscovery m.topic := by
  rcases h with ⟨k, d, ms, _, hms, hm⟩ | ⟨ms, hms, hm⟩
  · obtain ⟨topic, fields, htopic, _, rfl⟩ := DiscoveryManager.discoveryMessages_one hms
    rw [List.mem_singleton.mp hm]
    exact Topics.isDiscovery_discovery htopic
  · obtain ⟨_, _, _, _, htopic⟩ := (DiscoveryManager.bridgeEntity_of_mem hms hm).1
    exact Topics.isDiscovery_bridgeDiscovery htopic

theorem isDiscovery_of_desires {desired : List String} (h : s.Desires desired)
    (ht : topic ∈ desired) : Topics.IsDiscovery topic := by
  obtain ⟨ms, hms, rfl⟩ := h
  obtain ⟨m, hm, rfl⟩ := List.mem_map.mp ht
  exact isDiscovery_of_announces (mem_discoveryMessages hms hm)

/-- The registry file lists discovery topics only. -/
def Listed (s : Bridge) : Prop := ∀ t ∈ s.registered, Topics.IsDiscovery t

theorem Listed.apply (h : s.Listed) (hg : l.guard E s) : (l.apply s).Listed := by
  cases l with
  | visit file =>
    intro t ht
    rcases hg t ht with hold | ⟨desired, hdesired, t', ht', rfl⟩
    · exact h t hold
    · exact (isDiscovery_of_desires hdesired ht').strip
  | _ =>
    intro t ht
    rw [apply_registered (by simp [Label.kind])] at ht
    exact h t ht

/-- Only a `.state` label publishes on the state topic of a device. -/
theorem state_of_publish (hg : l.guard E s) (hlisted : s.Listed)
    (ha : Topics.state a s.mqtt.baseTopic = .ok topic) {payload : Json} {retain : Bool}
    (hm : .publish topic payload retain ∈ l.outputs s) :
    ∃ b c, l = .state b c topic retain ∧ payload = .str c.name ∧ normalize b = normalize a := by
  have hstate : Topics.Plain "state" := Topics.plain_of_letters (by decide) (by decide)
  rcases publish_of_outputs hm with rfl | ⟨b, rfl⟩ | ⟨b, c, rfl, hp⟩ | ⟨m, rfl, rfl, _⟩ | ⟨hl, _⟩
  · obtain ⟨suffix, hsuffix, htopic⟩ := hg
    have hplain : Topics.Plain suffix ∧ suffix ≠ "state" := by
      simp only [List.mem_cons, List.not_mem_nil, or_false] at hsuffix
      rcases hsuffix with rfl | rfl | rfl <;>
        exact ⟨Topics.plain_of_letters (by decide) (by decide), by decide⟩
    obtain ⟨_, hends⟩ := Topics.ends_bridgeTopic hplain.1 htopic
    obtain ⟨_, hends'⟩ := Topics.ends_deviceTopic hstate ha
    rw [hends, List.cons.injEq] at hends'
    exact absurd hends'.1 hplain.2
  · rcases hg.2 with htopic | htopic
    · exact absurd (device_of_topic (Topics.plain_of_letters (by decide) (by decide)) hstate
        htopic ha).1 (by decide)
    · exact absurd (device_of_topic (Topics.plain_of_letters (by decide) (by decide)) hstate
        htopic ha).1 (by decide)
  · exact ⟨b, c, rfl, hp, (device_of_topic hstate hstate hg.2 ha).2⟩
  · exact absurd ha ((isDiscovery_of_announces hg).not_device (by simp))
  · have hdiscovery : Topics.IsDiscovery topic := by
      rcases hl with rfl | rfl
      · exact hlisted topic hg.1
      · obtain ⟨desired, hdesired, ht | ht⟩ := hg
        · exact isDiscovery_of_desires hdesired ht
        · exact hlisted topic ht
    exact absurd ha (hdiscovery.not_device (by simp))

end Labels

/-! ## Runs -/

section Runs
variable {E : Env} {s s₀ : Bridge} {config : Config} {signature : Option (Int × Nat)}
  {monotonic : Nat} {registry : RegistryFile}

/-- Only stateful devices have a state, and that of a switch. -/
def Switched (sm : StateManager) : Prop :=
  ∀ k c, sm.current k = some c → StateManager.Binary c ∧ (sm.deviceConfig k).stateful = true

/-- What is published on the state topic of a device is a value of a switch, and
the device a stateful one. -/
def StatesPublished (s : Bridge) : Prop :=
  ∀ a topic payload retain, Topics.state a s.mqtt.baseTopic = .ok topic →
    .publish topic payload retain ∈ s.journal.outputs →
      (payload = .str "ON" ∨ payload = .str "OFF") ∧ (s.state.deviceConfig a).stateful = true

/-- What a run without the two defects keeps. -/
structure Announcing (config : Config) (s : Bridge) : Prop extends Settled config s where
  announced : ∀ a, IsAddress a → (s.state.deviceConfig a).stateful = true → ¬ IsButton (s.deviceAt a)
  switched : Switched s.state
  listed : s.Listed
  published : s.StatesPublished

theorem binary_name {c : Command} (h : StateManager.Binary c) :
    Json.str c.name = .str "ON" ∨ Json.str c.name = .str "OFF" := by
  rcases h with rfl | rfl
  · exact .inl rfl
  · exact .inr rfl

/-- A call that does not dim keeps the states those of a switch. -/
theorem Switched.call {sm : StateManager} (h : Switched sm) (hk : sm.Keyed) {c : Call}
    (hc : c.FromBridge) (hd : sm.dims c = false) : Switched (sm.call c).1 := by
  have heffect := StateManager.call_effect hk c
  intro k x hx
  rw [heffect.setup.deviceConfig]
  rw [heffect.current, Register.writes_apply, Option.or_eq_some_iff] at hx
  rcases hx with hx | ⟨_, hx⟩
  · obtain ⟨w, hw, hwx⟩ := List.mem_filterMap.mp (List.mem_of_getLast? hx)
    split at hwx
    · next hwk =>
      rw [← Option.some.inj hwx, ← hwk]
      exact ⟨StateManager.callWrites_binary hc hd hw, StateManager.callWrites_stateful hw⟩
    · cases hwx
  · exact h k x hx

/-- The states that a call publishes are those of a switch. -/
theorem Switched.publishes {sm : StateManager} (h : Switched sm) (hk : sm.Keyed) {call : Call}
    (hc : call.FromBridge) (hd : sm.dims call = false) {a : String} {c : Command} {retain : Bool}
    (hx : .publishState a c retain ∈ (sm.call call).2) :
    StateManager.Binary c ∧ (sm.deviceConfig a).stateful = true := by
  generalize hy : BridgeAction.publishState a c retain = y at hx
  cases StateManager.call_yields hk call y hx with
  | change hw =>
    obtain ⟨rfl, rfl, _⟩ := BridgeAction.publishState.inj hy
    exact ⟨StateManager.callWrites_binary hc hd hw, StateManager.callWrites_stateful hw⟩
  | replay hst hmem =>
    rcases StateManager.replay_address hmem with rfl | ⟨x, hcur, rfl⟩
    · exact BridgeAction.noConfusion hy
    · obtain ⟨rfl, rfl, _⟩ := BridgeAction.publishState.inj hy
      refine h _ _ ?_
      have hn := StateManager.onMqttConnected_notified sm
      obtain ⟨k, hget⟩ := Dict.mem_values.mp hst
      rw [hn.keyed hk k _ hget, ← hn.current, StateManager.current, hget, Option.bind_some]
      exact hcur
  | status hmem => rcases List.mem_pair.mp hmem with rfl | rfl <;> exact BridgeAction.noConfusion hy
  | _ => exact BridgeAction.noConfusion hy

/-- What the labels of a step keep: the step starts from `s` and does not dim. -/
structure Switching (s u : Bridge) : Prop where
  setup : StateManager.SameSetup s.state u.state
  base : u.mqtt.baseTopic = s.mqtt.baseTopic
  switched : Switched u.state
  listed : u.Listed
  published : u.StatesPublished

theorem Announcing.switching (h : Announcing config s) : Switching s s :=
  ⟨.refl _, rfl, h.switched, h.listed, h.published⟩

theorem not_dims {i : Timestamp × Input} (hd : ¬ s.Dims i) {c : Call}
    (hc : s.stepCall i.1 i.2 = some c) : s.state.dims c = false :=
  Bool.eq_false_iff.mpr fun h => hd ⟨c, hc, h⟩

theorem Switching.apply {u : Bridge} {l : Label} (h : Switching s u) (hs : Sound s)
    (hstart : Switched s.state) {i : Timestamp × Input} (hd : ¬ s.Dims i)
    (hl : StepLabel s i.1 i.2 l) (hu : Sound u) (hg : l.guard E u) : Switching s (l.apply u) where
  setup := h.setup.trans (apply_setup hu l)
  base := (apply_base l u).trans h.base
  listed := h.listed.apply hg
  switched := by
    by_cases hcall : l.kind = .call
    · cases l with
      | call c =>
        have hstep : s.stepCall i.1 i.2 = some c := by
          obtain ⟨c', hc', hlabel | ⟨_, _, hlabel⟩⟩ := call_of_stepLabel hl (by simp [callKinds, Label.kind])
          · rwa [Label.call.inj hlabel]
          · exact absurd hlabel id
        refine h.switched.call hu.keyed (fromBridge_of_stepCall hs hstep) ?_
        rw [StateManager.dims_of_setup h.setup]
        exact not_dims hd hstep
      | _ => simp [Label.kind] at hcall
    · rw [apply_state hcall]
      exact h.switched
  published := by
    intro a topic payload retain ha hm
    rw [apply_base] at ha
    rw [(apply_setup hu l).deviceConfig]
    rw [outputs_apply, List.mem_append] at hm
    rcases hm with hm | hm
    · exact h.published a topic payload retain ha hm
    · obtain ⟨b, c, rfl, rfl, hab⟩ := state_of_publish hg h.listed ha hm
      obtain ⟨call, hstep, hlabel | ⟨x, hx, rfl⟩⟩ := call_of_stepLabel hl (by simp [callKinds, Label.kind])
      · exact Label.noConfusion hlabel
      have hbinary := hstart.publishes hs.keyed (fromBridge_of_stepCall hs hstep) (not_dims hd hstep) hx
      refine ⟨binary_name hbinary.1, ?_⟩
      rw [h.setup.deviceConfig, ← StateManager.deviceConfig_normalize, ← hab,
        StateManager.deviceConfig_normalize]
      exact hbinary.2

theorem not_isButton_unlisted (a : String) : ¬ IsButton (DeviceConfig.unlisted a) := by
  rintro (h | h)
  · exact absurd h (by rw [DeviceConfig.unlisted_entityType]; decide)
  · exact absurd h (by rw [DeviceConfig.unlisted_stateful]; decide)

/-- The installed table says nothing of an address that is not allowed. -/
theorem install_deviceAt_denied {newConfig : Config} {a : String} (ha : IsAddress a)
    (hdenied : addressAllowedByConfig s.config a = false) :
    (s.install newConfig).deviceAt a = .unlisted a := by
  rw [deviceAt, StateManager.normalize_of_isAddress ha]
  show ((newConfig.devices.filterKeys _).get? a).getD _ = _
  rw [Dict.get?_filterKeys, if_neg (Bool.eq_false_iff.mp hdenied)]
  rfl

/-- A step without the two defects keeps the state topics announced. -/
theorem Announcing.step (h : Announcing config s) {i : Timestamp × Input} (hd : ¬ s.Dims i)
    (hr : ¬ s.Retypes config i) : Announcing config (Bridge.step E s i) := by
  have hkept : Switching s (Bridge.step E s i) :=
    h.sound.carries (step_path h.sound i) h.switching fun l u hl hg hu hkept =>
      hkept.apply h.sound h.switched hd hl hu hg
  refine ⟨h.toSettled.step i, fun a ha hstate => ?_, hkept.switched, hkept.listed, hkept.published⟩
  rw [hkept.setup.deviceConfig] at hstate
  rw [step_deviceAt h.sound]
  cases hl : s.loads i with
  | none => exact h.announced a ha hstate
  | some newConfig =>
    dsimp only
    cases hallowed : addressAllowedByConfig config a with
    | true =>
      rw [install_deviceAt ha (by rw [h.allowed]; exact hallowed)]
      rw [h.table a ha hallowed] at hstate
      exact fun hbutton => hr ⟨newConfig, hl, a, ha, hallowed, hstate, hbutton⟩
    | false =>
      rw [install_deviceAt_denied ha (by rw [h.allowed]; exact hallowed)]
      exact not_isButton_unlisted a

theorem init_announcing (hparsed : config.Parsed)
    (hregistry : ∀ t ∈ registry.topics config.discoveryRegistryPath, Topics.IsDiscovery t)
    (h : init E config signature monotonic registry = .ok s) : Announcing config s where
  toSettled := init_settled h
  announced a ha hstate := by
    rw [init_tables h] at hstate
    obtain ⟨_, file, rfl⟩ := init_ok h
    rw [deviceAt, Dict.get?_filterKeys] at hstate ⊢
    split at hstate
    · next hallowed =>
      rw [if_pos hallowed]
      cases hd : config.devices.get? (normalize a) with
      | none => exact not_isButton_unlisted _
      | some d =>
        rw [hd, Option.getD_some] at hstate
        rintro (hchime | hnone)
        · rw [(hparsed.made _ _ hd).stateless hchime] at hstate
          cases hstate
        · rw [Option.getD_some, hstate] at hnone
          cases hnone
    · next hallowed =>
      rw [if_neg hallowed]
      exact not_isButton_unlisted _
  switched := by
    obtain ⟨_, file, rfl⟩ := init_ok h
    intro k c hc
    rw [(StateManager.init_fresh _ _ _).current] at hc
    cases hc
  listed t ht := hregistry t (init_registered h ht)
  published := by
    obtain ⟨_, file, rfl⟩ := init_ok h
    exact fun _ _ _ _ _ hm => absurd hm List.not_mem_nil

/-- In a run that never makes `DIM` a state and reloads no stateful device as a
button, all that is published on the state topic of a device is announced by its
discovery payload. -/
theorem states_announced (hparsed : config.Parsed)
    (hregistry : ∀ t ∈ registry.topics config.discoveryRegistryPath, Topics.IsDiscovery t)
    (h₀ : init E config signature monotonic registry = .ok s₀)
    (hr : Run.Reaches (step E) (fun s i => ¬ s.Dims i ∧ ¬ s.Retypes config i) s₀ s)
    {a topic : String} {payload : Json} {retain : Bool}
    (htopic : Topics.state a s.mqtt.baseTopic = .ok topic)
    (hm : .publish topic payload retain ∈ s.journal.outputs) : s.Announced a payload := by
  have h : Announcing config s := hr.invariant (init_announcing hparsed hregistry h₀)
    fun s i hs hi => hs.step hi.1 hi.2
  obtain ⟨hvalue, hstate⟩ := h.published a topic payload retain htopic hm
  have hplain : Topics.cleanSegment "state" = .ok "state" := Topics.cleanSegment_fixed _ (by simp)
  obtain ⟨_, _, haddr, _⟩ := Topics.deviceTopic_ok hplain htopic
  have hbutton := h.announced (normalize a) haddr 
    (by rw [StateManager.deviceConfig_normalize]; exact hstate)
  have hat : s.deviceAt (normalize a) = s.deviceAt a := by
    rw [deviceAt, normalize_normalize, deviceAt]
  rw [hat] at hbutton
  obtain ⟨fields, hfields, hon, hoff⟩ := DiscoveryManager.payload_announces
    (m := s.discovery) s.mochadDiagnostics (by rw [h.sound.discoveryBase]; exact h.sound.clean)
    (by rw [deviceAt_address h.sound]; exact haddr) hbutton
  rcases hvalue with rfl | rfl
  · exact ⟨fields, hfields, .inl hon⟩
  · exact ⟨fields, hfields, .inr hoff⟩

end Runs

/-! ## A lamp that is dimmed -/

/-- MQTT connects, and a command for `A1` comes in. -/
def commanded (command : String) : List (Timestamp × Input) :=
  [(1, .mqttConnected), (2, .mqttMessage "x10/A1/command" command)]

theorem not_dims_of_any {s : Bridge} {i : Timestamp × Input}
    (h : (s.stepCall i.1 i.2).any s.state.dims = false) : ¬ s.Dims i := by
  rintro ⟨c, hc, hd⟩
  rw [hc, Option.any_some, hd] at h
  cases h

/-- Only the polling loop reloads a device as another. -/
theorem not_retypes_of_polls {i : Timestamp × Input} (h : i.2.polls = false) (config : Config)
    (s : Bridge) : ¬ s.Retypes config i := by
  rintro ⟨newConfig, hl, _⟩
  rw [loads] at hl
  split at hl
  · cases hl
  · rw [polls_of_inputConfig hl] at h
    cases h

/-- The lamp is switched on. -/
theorem states_announced_lamp : ∃ s₀, init {} (.plain "A1:Lamp:light") none 0 .absent = .ok s₀ ∧
    .publish "x10/A1/state" (.str "ON") true ∈
      (Run.exec (step {}) s₀ (commanded "ON")).journal.outputs ∧
    (Run.exec (step {}) s₀ (commanded "ON")).Announced "A1" (.str "ON") := by
  have hrun : (init {} (.plain "A1:Lamp:light") none 0 .absent).map (fun s₀ =>
      let s₁ := step {} s₀ (1, .mqttConnected)
      ((s₁.stepCall 2 (.mqttMessage "x10/A1/command" "ON")).any s₁.state.dims,
        decide (.publish "x10/A1/state" (.str "ON") true ∈
          (step {} s₁ (2, .mqttMessage "x10/A1/command" "ON")).journal.outputs),
        decide (Topics.state "A1" (step {} s₁ (2, .mqttMessage "x10/A1/command" "ON")).mqtt.baseTopic =
          .ok "x10/A1/state"))) = .ok (false, true, true) := by
    decide +kernel
  obtain ⟨s₀, h₀, hrun⟩ := map_ok hrun
  simp only [Prod.mk.injEq, decide_eq_true_eq] at hrun
  obtain ⟨hdims, hmem, htopic⟩ := hrun
  have hmeets : Run.Meets (step {}) (fun s i => ¬ s.Dims i ∧ ¬ s.Retypes (.plain "A1:Lamp:light") i)
      s₀ (commanded "ON") := by
    refine ⟨⟨?_, not_retypes_of_polls rfl _ _⟩, ⟨?_, not_retypes_of_polls rfl _ _⟩, trivial⟩
    · exact not_dims_of_any rfl
    · exact not_dims_of_any hdims
  exact ⟨s₀, h₀, hmem, states_announced (Config.plain_parsed (by decide +kernel))
    (fun t ht => absurd ht List.not_mem_nil) h₀ (Run.reaches_exec hmeets) htopic hmem⟩

/-- The lamp is dimmed: its state topic gets a value that its discovery payload
does not announce. -/
theorem dim_not_announced : ∃ s₀, init {} (.plain "A1:Lamp:light") none 0 .absent = .ok s₀ ∧
    Topics.state "A1" (Run.exec (step {}) s₀ (commanded "DIM")).mqtt.baseTopic = .ok "x10/A1/state" ∧
    .publish "x10/A1/state" (.str "DIM") true ∈
      (Run.exec (step {}) s₀ (commanded "DIM")).journal.outputs ∧
    ¬ (Run.exec (step {}) s₀ (commanded "DIM")).Announced "A1" (.str "DIM") := by
  have hrun : (init {} (.plain "A1:Lamp:light") none 0 .absent).map (fun s₀ =>
      let s := Run.exec (step {}) s₀ (commanded "DIM")
      (decide (Topics.state "A1" s.mqtt.baseTopic = .ok "x10/A1/state"),
        decide (.publish "x10/A1/state" (.str "DIM") true ∈ s.journal.outputs),
        (s.discovery.payload (s.deviceAt "A1") s.mochadDiagnostics).toOption.any fun fields =>
          decide (Json.field? fields "payload_on" = some (.str "DIM") ∨
            Json.field? fields "payload_off" = some (.str "DIM")))) = .ok (true, true, false) := by
    decide +kernel
  obtain ⟨s₀, h₀, hrun⟩ := map_ok hrun
  simp only [Prod.mk.injEq, decide_eq_true_eq] at hrun
  obtain ⟨htopic, hmem, hfields⟩ := hrun
  refine ⟨s₀, h₀, htopic, hmem, ?_⟩
  rintro ⟨fields, hpayload, hvalue⟩
  rw [hpayload, Except.toOption, Option.any_some, decide_eq_false_iff_not] at hfields
  exact hfields hvalue

end Bridge

end MochadBridge
