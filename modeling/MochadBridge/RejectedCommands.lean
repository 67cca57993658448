import MochadBridge.StateRefinement
import MochadBridge.TopicShape

/-!
# Rejected device commands

A device command is looked up in the device table before it is checked, and the
lookup lists the address. The state manager adds a device before it asks whether
the device supports the command. So a rejected command leaves both tables alone
only where both know its address already.

Results:
1. `StateManager.optimisticUpdate_unchanged_iff`: which calls without actions
   change nothing.
2. `rejected_unchanged_iff`: which messages change nothing.
-/

namespace MochadBridge

open Py Effect

namespace StateManager

variable {sm : StateManager} {now : Timestamp} {a : String} {c : Command}

/-! ## Calls without actions -/

theorem discoveryActions_commandsSent (state : DeviceState) :
    (sm.discoveryActions state).1.statistics.commandsSent = sm.statistics.commandsSent := by
  unfold discoveryActions
  split <;> rfl

theorem setDeviceState_commandsSent (state : DeviceState) (retain clearPending : Bool) :
    (sm.setDeviceState state c now retain clearPending).1.statistics.commandsSent =
      sm.statistics.commandsSent := by
  by_cases h : state.currentState = some (authoritativeState c)
  · simp only [setDeviceState, h, if_true]
    rfl
  · simp only [setDeviceState, h, if_false]
    rfl

/-- The device that a command finds or makes supports the command. -/
def Accepts (sm : StateManager) (a : String) (c : Command) : Prop :=
  sm.addressAllowed a = true ∧
    c ∈ ((sm.ensureDevice a).1.deviceConfig (sm.ensureDevice a).2.address).supportedCommands

/-- A command that is not accepted. -/
theorem optimisticUpdate_rejected (h : ¬ sm.Accepts a c) : sm.optimisticUpdate now a c =
    (if sm.addressAllowed a then (sm.ensureDevice a).1 else sm, []) := by
  unfold Accepts at h
  unfold optimisticUpdate
  cases ha : sm.addressAllowed a with
  | false => rfl
  | true =>
    have hc := not_and.mp h ha
    simp [hc]

/-- One that is accepted is counted, and sent. -/
theorem optimisticUpdate_accepts (h : sm.Accepts a c) :
    (sm.optimisticUpdate now a c).1.statistics.commandsSent = sm.statistics.commandsSent + 1 ∧
      (sm.optimisticUpdate now a c).2 ≠ [] := by
  have hstat : (sm.ensureDevice a).1.statistics = sm.statistics := by
    unfold ensureDevice
    split <;> rfl
  obtain ⟨ha, hc⟩ := h
  simp only [optimisticUpdate, ha, Bool.not_true, Bool.false_eq_true, if_false, not_not.mpr hc]
  split
  · refine ⟨?_, by simp⟩
    rw [discoveryActions_commandsSent]
    exact congrArg (fun st : BridgeStatistics => st.commandsSent + 1) hstat
  · split
    · refine ⟨?_, by simp⟩
      rw [setDeviceState_commandsSent, discoveryActions_commandsSent]
      exact congrArg (fun st : BridgeStatistics => st.commandsSent + 1) hstat
    · refine ⟨?_, by simp⟩
      rw [discoveryActions_commandsSent]
      exact congrArg (fun st : BridgeStatistics => st.commandsSent + 1) hstat

theorem ensureDevice_eq_self_iff : (sm.ensureDevice a).1 = sm ↔ normalize a ∈ sm.devices.keys := by
  constructor
  · intro h
    rw [← h, ensureDevice_devices, Dict.mem_keys_insert]
    exact .inl rfl
  · intro h
    obtain ⟨state, hget⟩ := Option.ne_none_iff_exists'.mp (Dict.mem_keys.mp h)
    rw [ensureDevice, hget]

/-- A call without actions changes nothing exactly where its address is not allowed,
or known already. -/
theorem optimisticUpdate_unchanged_iff (h : (sm.optimisticUpdate now a c).2 = []) :
    (sm.optimisticUpdate now a c).1 = sm ↔
      sm.addressAllowed a = false ∨ normalize a ∈ sm.devices.keys := by
  have hrejected : ¬ sm.Accepts a c := fun haccepts => (optimisticUpdate_accepts haccepts).2 h
  rw [optimisticUpdate_rejected hrejected]
  cases ha : sm.addressAllowed a with
  | false => simp
  | true => simp [ensureDevice_eq_self_iff]

end StateManager

namespace Bridge

variable {E : Env} {s t : Bridge} {now : Timestamp} {device topic payload : String} {c : Command}

/-! ## Messages -/

/-- The topic and the payload bring the device a command. -/
def Brings (s : Bridge) (device topic payload : String) (c : Command) : Prop :=
  Topics.parseCommandTopic topic s.config.mqttBaseTopic = .ok device ∧
    parseCommandPayload payload = some c

/-- The command of the message, if it brings one, is for a device that the table
lists, and is turned down by the table or by the state manager, who allows no such
address or knows the device already. -/
def Declines (s : Bridge) (device topic payload : String) : Prop :=
  ∀ c, s.Brings device topic payload c → device ∈ s.devices.keys ∧
    (c ∈ (s.deviceAt device).supportedCommands → s.state.addressAllowed device = false ∨
      (c ∉ (s.state.deviceConfig device).supportedCommands ∧ device ∈ s.state.devices.keys))

/-- What a run from the bridge publishes on discovery topics. -/
def laterDiscovery (E : Env) (s : Bridge) (inputs : List (Timestamp × Input)) : List Output :=
  ((Run.exec (step E) s inputs).journal.outputs.drop s.journal.outputs.length).filter fun
    | .publish topic _ _ => "/config".toList.isSuffixOf topic.toList
    | _ => false

/-- The device table, the state manager, the queue and all later discovery are as
they were. -/
structure Unchanged (E : Env) (s t : Bridge) : Prop where
  devices : t.devices = s.devices
  state : t.state = s.state
  queue : t.queuedDeviceCommands = s.queuedDeviceCommands
  later : ∀ inputs, t.laterDiscovery E inputs = s.laterDiscovery E inputs

theorem Unchanged.refl (s : Bridge) : Unchanged E s s := ⟨rfl, rfl, rfl, fun _ => rfl⟩

theorem isAddress_of_brings (h : s.Brings device topic payload c) : IsAddress device :=
  parseCommandTopic_isAddress h.1

/-- The lookup lists what the table lacks, and nothing else. -/
theorem withDevice_devices_iff : (s.withDevice device).devices = s.devices ↔
    normalize device ∈ s.devices.keys := by
  constructor
  · intro h
    rw [← h, withDevice, Dict.mem_keys_insert]
    exact .inl rfl
  · intro h
    obtain ⟨d, hget⟩ := Option.ne_none_iff_exists'.mp (Dict.mem_keys.mp h)
    rw [withDevice, deviceAt, hget, Option.getD_some, Dict.insert_of_get? hget]

theorem withDevice_of_listed (h : normalize device ∈ s.devices.keys) : s.withDevice device = s := by
  have hdevices : s.devices.insert (normalize device) (s.deviceAt device) = s.devices :=
    withDevice_devices_iff.mpr h
  rw [withDevice, hdevices]

/-- A message without a device command. -/
theorem exec_onMqttCommand_nothing (h : ∀ c, ¬ s.Brings device topic payload c) :
    exec (onMqttCommand E now device topic payload) s = (.ok (), s) := by
  simp only [onMqttCommand, exec_bind, exec_get]
  cases ht : Topics.parseCommandTopic topic s.config.mqttBaseTopic with
  | error e => rfl
  | ok a =>
    by_cases ha : a = device
    · subst ha
      cases hp : parseCommandPayload payload with
      | none => simp
      | some c => exact absurd ⟨ht, hp⟩ (h c)
    · simp [ha]

/-- A command that the table does not support. -/
theorem exec_onMqttCommand_unsupported (h : s.Brings device topic payload c)
    (hc : c ∉ (s.deviceAt device).supportedCommands) :
    exec (onMqttCommand E now device topic payload) s = (.ok (), s.withDevice device) := by
  have haddr := Protocol.normalizeAddress_of_isAddress (isAddress_of_brings h)
  simp only [onMqttCommand, exec_bind, exec_get, h.1, h.2, haddr, ne_eq, not_true_eq_false,
    if_false, exec_deviceConfig, hc, not_false_eq_true, if_true]
  rfl

/-- A command that the table supports. -/
theorem exec_onMqttCommand_supported (h : s.Brings device topic payload c)
    (hc : c ∈ (s.deviceAt device).supportedCommands) :
    exec (onMqttCommand E now device topic payload) s =
      exec (executeActions E now (s.state.optimisticUpdate now device c).2)
        { s.withDevice device with state := (s.state.optimisticUpdate now device c).1 } := by
  have hs : Protocol.Sendable device c := ⟨isAddress_of_brings h, parseCommandPayload_encodes h.2⟩
  have haddr := Protocol.normalizeAddress_of_isAddress hs.1
  simp only [onMqttCommand, exec_bind, exec_get, h.1, h.2, haddr, ne_eq, not_true_eq_false,
    if_false, exec_deviceConfig, hc, encode_of_sendable hs, exec_set]
  rfl

/-! ## Rejected messages -/

/-- Whether the state manager accepts a command, in its own words. -/
theorem accepts_iff (hk : s.state.Keyed) : s.state.Accepts device c ↔
    s.state.addressAllowed device = true ∧ c ∈ (s.state.deviceConfig device).supportedCommands := by
  rw [StateManager.Accepts, (StateManager.ensureDevice_session s.state device).deviceConfig,
    StateManager.ensureDevice_snd, StateManager.stateOf_address hk,
    StateManager.deviceConfig_normalize]

/-- What a command does to the state manager is what its call does. -/
theorem state_of_command (h : Sound s) (hb : s.Brings device topic payload c)
    (hc : c ∈ (s.deviceAt device).supportedCommands) :
    (exec (onMqttCommand E now device topic payload) s).2.state =
      (s.state.optimisticUpdate now device c).1 := by
  have hs : (Call.optimisticUpdate now device c).FromBridge :=
    ⟨isAddress_of_brings hb, parseCommandPayload_encodes hb.2⟩
  have hconcerns := StateManager.call_concerns h.keyed hs
  rw [exec_onMqttCommand_supported hb hc]
  generalize hr : s.state.optimisticUpdate now device c = r
  rw [StateManager.call, hr] at hconcerns
  exact executeActions_state (s := { s.withDevice device with state := r.1 }) hconcerns

theorem normalize_of_brings (h : s.Brings device topic payload c) : normalize device = device :=
  (isAddress_of_brings h).upper_strip

/-- A declined message leaves the bridge as it was. -/
theorem exec_of_declines (h : Sound s) (hd : s.Declines device topic payload) :
    (exec (onMqttCommand E now device topic payload) s).2 = s := by
  by_cases hnone : ∀ c, ¬ s.Brings device topic payload c
  · rw [exec_onMqttCommand_nothing hnone]
  · obtain ⟨c, hb⟩ := not_forall_not.mp hnone
    obtain ⟨hlisted, hdeclined⟩ := hd c hb
    have hwith : s.withDevice device = s :=
      withDevice_of_listed (by rw [normalize_of_brings hb]; exact hlisted)
    by_cases hc : c ∈ (s.deviceAt device).supportedCommands
    · have hrejected : ¬ s.state.Accepts device c := by
        rw [accepts_iff h.keyed]
        rintro ⟨hallowed, hsupported⟩
        rcases hdeclined hc with hdenied | ⟨hunsupported, _⟩
        · rw [hdenied] at hallowed
          exact Bool.noConfusion hallowed
        · exact hunsupported hsupported
      have hstate : (s.state.optimisticUpdate now device c).1 = s.state := by
        have hnil : (s.state.optimisticUpdate now device c).2 = [] :=
          congrArg Prod.snd (StateManager.optimisticUpdate_rejected hrejected)
        refine (StateManager.optimisticUpdate_unchanged_iff hnil).mpr ((hdeclined hc).imp_right ?_)
        exact fun hknown => by rw [normalize_of_brings hb]; exact hknown.2
      rw [exec_onMqttCommand_supported hb hc, hstate, hwith,
        congrArg Prod.snd (StateManager.optimisticUpdate_rejected hrejected)]
      rfl
    · rw [exec_onMqttCommand_unsupported hb hc, hwith]

/-- A message that changes neither the table nor the state manager is declined. -/
theorem declines_of_same (h : Sound s)
    (hdevices : (exec (onMqttCommand E now device topic payload) s).2.devices = s.devices)
    (hstate : (exec (onMqttCommand E now device topic payload) s).2.state = s.state) :
    s.Declines device topic payload := by
  intro c hb
  have hnormal := normalize_of_brings hb
  by_cases hc : c ∈ (s.deviceAt device).supportedCommands
  · rw [state_of_command h hb hc] at hstate
    have hrejected : ¬ s.state.Accepts device c := by
      intro haccepts
      have hsent : (s.state.optimisticUpdate now device c).1.statistics.commandsSent =
          s.state.statistics.commandsSent + 1 := (StateManager.optimisticUpdate_accepts haccepts).1
      rw [hstate] at hsent
      omega
    have hnil : (s.state.optimisticUpdate now device c).2 = [] :=
      congrArg Prod.snd (StateManager.optimisticUpdate_rejected hrejected)
    rw [exec_onMqttCommand_supported hb hc, hnil] at hdevices
    have hlisted := withDevice_devices_iff.mp hdevices
    rw [hnormal] at hlisted
    refine ⟨hlisted, fun _ => ?_⟩
    cases hallowed : s.state.addressAllowed device with
    | false => exact .inl rfl
    | true =>
      have hknown := (StateManager.optimisticUpdate_unchanged_iff hnil).mp hstate
      rw [hallowed, hnormal] at hknown
      rw [accepts_iff h.keyed, hallowed] at hrejected
      exact .inr ⟨fun hsupported => hrejected ⟨rfl, hsupported⟩,
        hknown.resolve_left Bool.noConfusion⟩
  · rw [exec_onMqttCommand_unsupported hb hc] at hdevices
    have hlisted := withDevice_devices_iff.mp hdevices
    rw [hnormal] at hlisted
    exact ⟨hlisted, fun hc' => absurd hc' hc⟩

/-- In every state of a run, a message leaves everything as it was exactly where its
command is declined by what knows the device, and then none is sent or queued. A
call of `optimistic_update` that returns nothing leaves the state manager as it was
exactly where the address is not allowed or known. -/
theorem rejected_unchanged_iff {config : Config} {signature : Option (Int × Nat)}
    {monotonic : Nat} {registry : RegistryFile} {s₀ : Bridge}
    (h₀ : init E config signature monotonic registry = .ok s₀)
    (hr : Run.Reaches (step E) (fun _ _ => True) s₀ s) (now : Timestamp)
    (device topic payload : String) :
    (Unchanged E s (exec (onMqttCommand E now device topic payload) s).2 ↔
        s.Declines device topic payload) ∧
      (s.Declines device topic payload →
        (exec (onMqttCommand E now device topic payload) s).2.journal.accepted =
          s.journal.accepted) ∧
      ∀ (sm : StateManager) (now : Timestamp) (a : String) (c : Command),
        (sm.optimisticUpdate now a c).2 = [] → ((sm.optimisticUpdate now a c).1 = sm ↔
          sm.addressAllowed a = false ∨ normalize a ∈ sm.devices.keys) := by
  have h : Sound s := reaches_sound (init_sound h₀) hr
  refine ⟨⟨fun hu => declines_of_same h hu.devices hu.state, fun hd => ?_⟩, fun hd => ?_,
    fun _ _ _ _ => StateManager.optimisticUpdate_unchanged_iff⟩
  · rw [exec_of_declines h hd]
    exact .refl s
  · rw [exec_of_declines h hd]

/-- A lamp that the table lists declines to be dimmed. -/
theorem dim_declined_lamp : ∃ s₀, init {} (.plain "A1:Lamp") none 0 .absent = .ok s₀ ∧
    Unchanged {} s₀ (exec (onMqttCommand {} 1 "A1" "x10/A1/command" "DIM") s₀).2 := by
  have hinit : (init {} (.plain "A1:Lamp") none 0 .absent).map (fun s₀ =>
      (decide ("A1" ∈ s₀.devices.keys),
        decide (Command.dim ∈ (s₀.deviceAt "A1").supportedCommands))) = .ok (true, false) := by
    decide +kernel
  obtain ⟨s₀, h₀, hlamp⟩ := map_ok hinit
  obtain ⟨hlisted, hdim⟩ := Prod.mk.inj hlamp
  refine ⟨s₀, h₀, (rejected_unchanged_iff h₀ .start 1 "A1" "x10/A1/command" "DIM").1.mpr ?_⟩
  intro c hb
  have hc : c = .dim := Option.some.inj (hb.2.symm.trans rfl)
  rw [hc]
  exact ⟨of_decide_eq_true hlisted, fun hsupported => absurd hsupported (of_decide_eq_false hdim)⟩

/-- A device that no table knows declines as well, and is listed from then on. -/
theorem unlisted_dim_listed : ∃ s₀, init {} (.plain "") none 0 .absent = .ok s₀ ∧
    (exec (onMqttCommand {} 1 "A1" "x10/A1/command" "DIM") s₀).2.journal.accepted =
      s₀.journal.accepted ∧
    ¬ Unchanged {} s₀ (exec (onMqttCommand {} 1 "A1" "x10/A1/command" "DIM") s₀).2 := by
  have hinit : (init {} (.plain "") none 0 .absent).map (fun s₀ =>
      let s := (exec (onMqttCommand {} 1 "A1" "x10/A1/command" "DIM") s₀).2
      (decide (s.journal.accepted = s₀.journal.accepted), s₀.devices.keys, s.devices.keys)) =
        .ok (true, [], ["A1"]) := by
    decide +kernel
  obtain ⟨s₀, h₀, hrun⟩ := map_ok hinit
  simp only [Prod.mk.injEq, decide_eq_true_eq] at hrun
  obtain ⟨haccepted, hbefore, hafter⟩ := hrun
  refine ⟨s₀, h₀, haccepted, fun hu => ?_⟩
  rw [hu.devices, hbefore] at hafter
  exact absurd hafter (by decide)

end Bridge

end MochadBridge
