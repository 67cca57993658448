import MochadBridge.Lib.Register
import MochadBridge.State

/-!
# What one call of the state manager does

One specification lemma for each method, in terms of the device table before
the call: which entry it writes, with which value, and which actions it
returns. Later modules cite these and never unfold a method.

A call about one address writes one entry (`Touched`); a house event and a
snapshot write one entry for each device they concern, independently of each
other (`applyHouseEvent_spec`, `applyStatusSnapshot_spec`).
-/

namespace MochadBridge

open Py

namespace StateManager

variable {sm : StateManager}

/-- Every device is stored under the address it carries. -/
def Keyed (sm : StateManager) : Prop := ∀ k st, sm.devices.get? k = some st → st.address = k

/-- What no call changes. -/
structure SameSetup (sm sm' : StateManager) : Prop where
  configs : sm'.deviceConfigs = sm.deviceConfigs
  optimistic : sm'.optimisticUpdates = sm.optimisticUpdates
  housecodes : sm'.allowedHousecodes = sm.allowedHousecodes

/-- What no call but a connection notification changes. -/
structure SameSession (sm sm' : StateManager) : Prop extends SameSetup sm sm' where
  mqtt : sm'.mqttConnected = sm.mqttConnected
  mochad : sm'.mochadConnected = sm.mochadConnected
  generation : sm'.mqttGeneration = sm.mqttGeneration

theorem SameSetup.refl (sm : StateManager) : SameSetup sm sm := ⟨rfl, rfl, rfl⟩

theorem SameSession.refl (sm : StateManager) : SameSession sm sm := ⟨.refl sm, rfl, rfl, rfl⟩

theorem SameSetup.trans {a b c : StateManager} (h : SameSetup a b) (h' : SameSetup b c) :
    SameSetup a c :=
  ⟨h'.1.trans h.1, h'.2.trans h.2, h'.3.trans h.3⟩

theorem SameSession.trans {a b c : StateManager} (h : SameSession a b) (h' : SameSession b c) :
    SameSession a c :=
  ⟨h.toSameSetup.trans h'.toSameSetup, h'.mqtt.trans h.mqtt, h'.mochad.trans h.mochad,
    h'.generation.trans h.generation⟩

section Setup
variable {a b : StateManager}

theorem SameSetup.deviceConfig (h : SameSetup a b) (address : String) :
    b.deviceConfig address = a.deviceConfig address := by
  rw [StateManager.deviceConfig, h.configs, StateManager.deviceConfig]

theorem SameSetup.houseAllowed (h : SameSetup a b) (house : String) :
    b.houseAllowed house = a.houseAllowed house := by
  simp only [StateManager.houseAllowed, h.housecodes]

theorem SameSetup.addressAllowed (h : SameSetup a b) (address : String) :
    b.addressAllowed address = a.addressAllowed address := by
  simp only [StateManager.addressAllowed, h.houseAllowed]

end Setup

/-! ## One device -/

end StateManager

namespace DeviceState

open StateManager

/-- The device after `_set_device_state`. -/
def take (st : DeviceState) (command : Command) (now : Timestamp) (clearPending : Bool) :
    DeviceState :=
  let command := authoritativeState command
  let st :=
    if st.currentState = some command then { st with lastSeen := some now }
    else { st with
      previousState := st.currentState
      currentState := some command
      lastSeen := some now
      lastChanged := some now }
  if clearPending then clearConfirmedPending st command else st

/-- The actions of `_set_device_state`. -/
def changes (st : DeviceState) (command : Command) (retain : Bool) : List BridgeAction :=
  if st.currentState = some (authoritativeState command) then []
  else [.publishState st.address (authoritativeState command) retain]

/-- The device after `_discovery_actions`. -/
def discover (st : DeviceState) (mqtt : Bool) : DeviceState :=
  { st with discovered := st.discovered || mqtt }

/-- The actions of `_discovery_actions`. -/
def discovery (st : DeviceState) (mqtt : Bool) : List BridgeAction :=
  if !mqtt ∨ st.discovered then [] else [.publishDiscovery st.address]

@[simp] theorem clearConfirmedPending_address (st : DeviceState) (c : Command) :
    (clearConfirmedPending st c).address = st.address := by
  unfold clearConfirmedPending; split <;> rfl

@[simp] theorem clearConfirmedPending_currentState (st : DeviceState) (c : Command) :
    (clearConfirmedPending st c).currentState = st.currentState := by
  unfold clearConfirmedPending; split <;> rfl

@[simp] theorem clearConfirmedPending_discovered (st : DeviceState) (c : Command) :
    (clearConfirmedPending st c).discovered = st.discovered := by
  unfold clearConfirmedPending; split <;> rfl

@[simp] theorem take_address (st : DeviceState) (c : Command) (t : Timestamp) (b : Bool) :
    (st.take c t b).address = st.address := by
  simp only [take]; split_ifs <;> simp

@[simp] theorem take_discovered (st : DeviceState) (c : Command) (t : Timestamp) (b : Bool) :
    (st.take c t b).discovered = st.discovered := by
  simp only [take]; split_ifs <;> simp

@[simp] theorem take_currentState (st : DeviceState) (c : Command) (t : Timestamp) (b : Bool) :
    (st.take c t b).currentState = some (authoritativeState c) := by
  simp only [take]
  split_ifs with hp hc hc <;> simp [hc]

theorem discover_of_quiet {st : DeviceState} {m : Bool} (h : (!m) = true ∨ st.discovered = true) :
    st.discover m = st := by
  cases st
  cases m <;> simp_all [discover]

@[simp] theorem discover_address (st : DeviceState) (m : Bool) :
    (st.discover m).address = st.address := rfl

@[simp] theorem discover_currentState (st : DeviceState) (m : Bool) :
    (st.discover m).currentState = st.currentState := rfl

end DeviceState

namespace StateManager

variable {sm : StateManager}

/-! ## The shared steps -/

theorem setDeviceState_devices (sm : StateManager) (st : DeviceState) (c : Command) (t : Timestamp) (r p : Bool) :
    (sm.setDeviceState st c t r p).1.devices = sm.devices.insert st.address (st.take c t p) := by
  by_cases hc : st.currentState = some (authoritativeState c) <;>
    by_cases hp : p = true <;>
    simp [setDeviceState, DeviceState.take, hc, hp, store]

theorem setDeviceState_actions (st : DeviceState) (c : Command) (t : Timestamp) (r p : Bool) :
    (sm.setDeviceState st c t r p).2 = st.changes c r := by
  by_cases hc : st.currentState = some (authoritativeState c) <;>
    by_cases hp : p = true <;>
    simp [setDeviceState, DeviceState.changes, hc, hp]

theorem setDeviceState_session (st : DeviceState) (c : Command) (t : Timestamp) (r p : Bool) :
    SameSession sm (sm.setDeviceState st c t r p).1 := by
  simp only [setDeviceState]
  split <;> exact ⟨⟨rfl, rfl, rfl⟩, rfl, rfl, rfl⟩

theorem discoveryActions_spec {st : DeviceState} (h : sm.devices.get? st.address = some st) :
    (sm.discoveryActions st).1.devices =
        sm.devices.insert st.address (st.discover sm.mqttConnected) ∧
      (sm.discoveryActions st).2.1 = st.discover sm.mqttConnected ∧
      (sm.discoveryActions st).2.2 = st.discovery sm.mqttConnected ∧
      SameSession sm (sm.discoveryActions st).1 := by
  unfold discoveryActions DeviceState.discovery
  split
  · next hq =>
    have hst := DeviceState.discover_of_quiet hq
    exact ⟨by rw [hst, Dict.insert_of_get? h], hst.symm, rfl, .refl sm⟩
  · next hq =>
    have hm : sm.mqttConnected = true := by
      cases hm : sm.mqttConnected <;> simp_all
    exact ⟨by simp [store, DeviceState.discover, hm], by simp [DeviceState.discover, hm], rfl,
      ⟨⟨rfl, rfl, rfl⟩, rfl, rfl, rfl⟩⟩

theorem ensureDevice_snd (sm : StateManager) (a : String) : (sm.ensureDevice a).2 = sm.stateOf a := by
  unfold ensureDevice stateOf
  cases sm.devices.get? (normalize a) <;> rfl

theorem ensureDevice_session (sm : StateManager) (a : String) : SameSession sm (sm.ensureDevice a).1 := by
  unfold ensureDevice
  cases sm.devices.get? (normalize a) <;> exact ⟨⟨rfl, rfl, rfl⟩, rfl, rfl, rfl⟩

/-- A device that is found has just been written: writing it is the effect of
`_ensure_device`. -/
theorem ensureDevice_devices (sm : StateManager) (a : String) :
    (sm.ensureDevice a).1.devices = sm.devices.insert (normalize a) (sm.stateOf a) := by
  unfold ensureDevice stateOf
  cases h : sm.devices.get? (normalize a) with
  | none => rfl
  | some st => exact (Dict.insert_of_get? h).symm

theorem stateOf_address (hk : sm.Keyed) (a : String) : (sm.stateOf a).address = normalize a := by
  unfold stateOf
  cases h : sm.devices.get? (normalize a) with
  | none => rfl
  | some st => exact hk _ _ h

@[simp] theorem deviceConfig_normalize (a : String) :
    sm.deviceConfig (normalize a) = sm.deviceConfig a := by
  simp [deviceConfig]

/-! ## Calls about one address -/

/-- The effect of a call on one device: one entry is written. -/
structure Touched (sm : StateManager) (k : String) (st : DeviceState)
    (actions : List BridgeAction) (r : StateManager × List BridgeAction) : Prop where
  devices : r.1.devices = sm.devices.insert k st
  actions : r.2 = actions
  session : SameSession sm r.1

/-- The device of an event, seen now. -/
def seenState (sm : StateManager) (e : DeviceEvent) : DeviceState :=
  { sm.stateOf e.address with available := true, lastSeen := some e.timestamp }

/-- The event changes no state: its device has none or its command sets none. -/
def Stateless (sm : StateManager) (e : DeviceEvent) : Prop :=
  (sm.deviceConfig e.address).stateful = false ∨ e.command ∉ stateCommands

instance (sm : StateManager) (e : DeviceEvent) : Decidable (sm.Stateless e) :=
  inferInstanceAs (Decidable (_ ∨ _))

theorem applyDeviceEvent_denied {e : DeviceEvent} (ha : sm.addressAllowed e.address = false) :
    sm.applyDeviceEvent e = (sm, []) := by
  simp [applyDeviceEvent, ha]

theorem applyDeviceEvent_spec (hk : sm.Keyed) {e : DeviceEvent}
    (ha : sm.addressAllowed e.address = true) :
    Touched sm (normalize e.address)
      (if sm.Stateless e then (sm.seenState e).discover sm.mqttConnected
        else ((sm.seenState e).discover sm.mqttConnected).take e.command e.timestamp true)
      ((sm.stateOf e.address).discovery sm.mqttConnected ++ [.publishEvent e] ++
        if sm.Stateless e then [] else (sm.stateOf e.address).changes e.command true)
      (sm.applyDeviceEvent e) := by
  have haddr := stateOf_address hk e.address
  have hseen : (sm.seenState e).address = normalize e.address := haddr
  -- the event is counted and the device found
  generalize hs₁ : ({ sm with
    statistics := { sm.statistics with eventsReceived := sm.statistics.eventsReceived + 1 } } :
    StateManager) = sm₁
  have h₁ : SameSession sm sm₁ := by subst hs₁; exact ⟨⟨rfl, rfl, rfl⟩, rfl, rfl, rfl⟩
  have hd₁ : sm₁.devices = sm.devices := by subst hs₁; rfl
  have hof : sm₁.stateOf e.address = sm.stateOf e.address := by simp only [stateOf, hd₁]
  have hnd := ensureDevice_snd sm₁ e.address
  have hdv := ensureDevice_devices sm₁ e.address
  have hse := ensureDevice_session sm₁ e.address
  rw [hof] at hnd hdv
  -- it is marked as seen and discovered
  generalize hs₂ : (sm₁.ensureDevice e.address).1.store (sm.seenState e) = sm₂
  have h₂ : SameSession sm sm₂ := by
    subst hs₂; exact h₁.trans (hse.trans ⟨⟨rfl, rfl, rfl⟩, rfl, rfl, rfl⟩)
  have hd₂ : sm₂.devices = sm.devices.insert (normalize e.address) (sm.seenState e) := by
    subst hs₂
    simp only [store, hdv, hd₁, hseen, Dict.insert_insert]
  have hget : sm₂.devices.get? (sm.seenState e).address = some (sm.seenState e) := by
    rw [hd₂, hseen, Dict.get?_insert_self]
  obtain ⟨hdd, hds, hda, hdse⟩ := discoveryActions_spec hget
  rw [h₂.mqtt] at hdd hds hda
  have hconf : (sm₁.ensureDevice e.address).1.deviceConfig (sm.stateOf e.address).address =
      sm.deviceConfig e.address := by
    rw [(h₁.trans hse).deviceConfig, haddr, deviceConfig_normalize]
  have hdisc : (sm.seenState e).discovery sm.mqttConnected =
      (sm.stateOf e.address).discovery sm.mqttConnected := rfl
  have hrun : sm.applyDeviceEvent e =
      if sm.Stateless e then
        ((sm₂.discoveryActions (sm.seenState e)).1,
          (sm.stateOf e.address).discovery sm.mqttConnected ++ [.publishEvent e])
      else
        (((sm₂.discoveryActions (sm.seenState e)).1.setDeviceState
            ((sm.seenState e).discover sm.mqttConnected) e.command e.timestamp true true).1,
          (sm.stateOf e.address).discovery sm.mqttConnected ++ [.publishEvent e] ++
            ((sm₂.discoveryActions (sm.seenState e)).1.setDeviceState
              ((sm.seenState e).discover sm.mqttConnected) e.command e.timestamp true true).2) := by
    simp only [applyDeviceEvent, ha, Bool.not_true, Bool.false_eq_true, if_false, hs₁, hnd, hconf]
    rw [show ({ sm.stateOf e.address with
      available := true, lastSeen := some e.timestamp } : DeviceState) = sm.seenState e from rfl,
      hs₂]
    by_cases hs : sm.Stateless e
    · rw [if_pos hs, if_pos (by simpa [Stateless] using hs), hda, hdisc]
    · rw [if_neg hs, if_neg (by simpa [Stateless] using hs), hds, hda, hdisc]
  rw [hrun]
  split
  · next hs =>
    refine ⟨?_, by simp, h₂.trans hdse⟩
    rw [hdd, hd₂, hseen, Dict.insert_insert]
  · next hs =>
    refine ⟨?_, ?_, (h₂.trans hdse).trans (setDeviceState_session ..)⟩
    · rw [setDeviceState_devices, hdd, hd₂, DeviceState.discover_address, hseen,
        Dict.insert_insert, Dict.insert_insert]
    · rw [setDeviceState_actions]
      rfl

/-- The device of a command that was accepted. -/
def pendingState (sm : StateManager) (a : String) (c : Command) : DeviceState :=
  { sm.stateOf a with pendingCommand := some c }

/-- The actions that announce an accepted command. -/
def announcement (sm : StateManager) (now : Timestamp) (a : String) (c : Command) :
    List BridgeAction :=
  (sm.stateOf a).discovery sm.mqttConnected ++ [.sendDeviceCommand (normalize a) c] ++
    if (sm.deviceConfig a).stateful then
      [.publishAttributes (normalize a) (attributesPayload c sm.optimisticUpdates) true]
    else
      [.publishCommandEvent (normalize a) (commandEventPayload (normalize a) c now) false]

theorem optimisticUpdate_denied {now : Timestamp} {a : String} {c : Command}
    (ha : sm.addressAllowed a = false) : sm.optimisticUpdate now a c = (sm, []) := by
  simp [optimisticUpdate, ha]

theorem optimisticUpdate_unsupported (hk : sm.Keyed) (now : Timestamp) {a : String} {c : Command}
    (ha : sm.addressAllowed a = true) (hc : c ∉ (sm.deviceConfig a).supportedCommands) :
    Touched sm (normalize a) (sm.stateOf a) [] (sm.optimisticUpdate now a c) := by
  have hconf : (sm.ensureDevice a).1.deviceConfig (sm.stateOf a).address = sm.deviceConfig a := by
    rw [(ensureDevice_session sm a).deviceConfig, stateOf_address hk, deviceConfig_normalize]
  have hrun : sm.optimisticUpdate now a c = ((sm.ensureDevice a).1, []) := by
    simp only [optimisticUpdate, ha, Bool.not_true, Bool.false_eq_true, if_false,
      ensureDevice_snd, hconf, if_pos hc]
  rw [hrun]
  exact ⟨ensureDevice_devices sm a, rfl, ensureDevice_session sm a⟩

theorem optimisticUpdate_accepted (hk : sm.Keyed) (now : Timestamp) {a : String} {c : Command}
    (ha : sm.addressAllowed a = true) (hc : c ∈ (sm.deviceConfig a).supportedCommands) :
    Touched sm (normalize a)
      (if (sm.deviceConfig a).stateful ∧ sm.optimisticUpdates then
        ((sm.pendingState a c).discover sm.mqttConnected).take c now false
      else (sm.pendingState a c).discover sm.mqttConnected)
      (sm.announcement now a c ++
        if (sm.deviceConfig a).stateful ∧ sm.optimisticUpdates then
          (sm.stateOf a).changes c true
        else [])
      (sm.optimisticUpdate now a c) := by
  have haddr := stateOf_address hk a
  have hpend : (sm.pendingState a c).address = normalize a := haddr
  have hnd := ensureDevice_snd sm a
  have hse := ensureDevice_session sm a
  have hconf : (sm.ensureDevice a).1.deviceConfig (sm.stateOf a).address = sm.deviceConfig a := by
    rw [hse.deviceConfig, haddr, deviceConfig_normalize]
  -- the command is counted and noted as pending
  generalize hs₂ : (({ (sm.ensureDevice a).1 with
    statistics := { (sm.ensureDevice a).1.statistics with
      commandsSent := (sm.ensureDevice a).1.statistics.commandsSent + 1 } } :
    StateManager).store (sm.pendingState a c)) = sm₂
  have h₂ : SameSession sm sm₂ := by subst hs₂; exact hse.trans ⟨⟨rfl, rfl, rfl⟩, rfl, rfl, rfl⟩
  have hd₂ : sm₂.devices = sm.devices.insert (normalize a) (sm.pendingState a c) := by
    subst hs₂
    simp only [store, ensureDevice_devices, hpend, Dict.insert_insert]
  have hget : sm₂.devices.get? (sm.pendingState a c).address = some (sm.pendingState a c) := by
    rw [hd₂, hpend, Dict.get?_insert_self]
  obtain ⟨hdd, hds, hda, hdse⟩ := discoveryActions_spec hget
  rw [h₂.mqtt] at hdd hds hda
  have hopt : (sm₂.discoveryActions (sm.pendingState a c)).1.optimisticUpdates =
      sm.optimisticUpdates := (h₂.trans hdse).optimistic
  have hdev : (sm₂.discoveryActions (sm.pendingState a c)).1.devices =
      sm.devices.insert (normalize a) ((sm.pendingState a c).discover sm.mqttConnected) := by
    rw [hdd, hd₂, hpend, Dict.insert_insert]
  have hdisc : (sm.pendingState a c).discovery sm.mqttConnected =
      (sm.stateOf a).discovery sm.mqttConnected := rfl
  have hstep : sm.optimisticUpdate now a c =
      if (sm.deviceConfig a).stateful ∧ sm.optimisticUpdates then
        (((sm₂.discoveryActions (sm.pendingState a c)).1.setDeviceState
            ((sm.pendingState a c).discover sm.mqttConnected) c now true false).1,
          sm.announcement now a c ++
            ((sm₂.discoveryActions (sm.pendingState a c)).1.setDeviceState
              ((sm.pendingState a c).discover sm.mqttConnected) c now true false).2)
      else ((sm₂.discoveryActions (sm.pendingState a c)).1, sm.announcement now a c) := by
    simp only [optimisticUpdate, ha, Bool.not_true, Bool.false_eq_true, if_false, hnd, hconf,
      not_not.mpr hc]
    rw [show ({ sm.stateOf a with pendingCommand := some c } : DeviceState) =
      sm.pendingState a c from rfl, hs₂]
    simp only [hds, hda, hdisc, hopt, announcement, DeviceState.discover_address, hpend]
    cases (sm.deviceConfig a).stateful <;> cases sm.optimisticUpdates <;> simp
  rw [hstep]
  split
  · refine ⟨?_, ?_, (h₂.trans hdse).trans (setDeviceState_session ..)⟩
    · rw [setDeviceState_devices, hdev, DeviceState.discover_address, hpend, Dict.insert_insert]
    · rw [setDeviceState_actions]
      rfl
  · exact ⟨hdev, by simp, h₂.trans hdse⟩

/-! ## Calls as writes to a register file -/

/-- The state values, as a register file. -/
def current (sm : StateManager) (k : String) : Option Command :=
  (sm.devices.get? k).bind DeviceState.currentState

/-- The publications of a list of state changes. -/
def publications (ws : List (String × Command)) : List BridgeAction :=
  ws.map fun w => .publishState w.1 w.2 true

/-- A call that knows the devices `names`, performs the writes `ws` and returns
the actions `lead` and the publications of what changed. -/
structure Performs (sm : StateManager) (names : List String) (ws : List (String × Command))
    (lead : List BridgeAction) (r : StateManager × List BridgeAction) : Prop where
  current : r.1.current = Register.writes sm.current ws
  actions : r.2 = lead ++ publications (Register.changes sm.current ws)
  known : ∀ k, k ∈ r.1.devices.keys ↔ k ∈ sm.devices.keys ∨ k ∈ names
  keyed : r.1.Keyed
  session : SameSession sm r.1

theorem Performs.nothing (hk : sm.Keyed) : Performs sm [] [] [] (sm, []) :=
  ⟨rfl, rfl, by simp, hk, .refl sm⟩

@[simp] theorem stateOf_currentState (a : String) :
    (sm.stateOf a).currentState = sm.current (normalize a) := by
  unfold stateOf current
  cases sm.devices.get? (normalize a) <;> rfl

theorem current_of_insert {sm' : StateManager} {k : String} {st : DeviceState}
    (h : sm'.devices = sm.devices.insert k st) :
    sm'.current = fun k' => if k = k' then st.currentState else sm.current k' := by
  funext k'
  unfold current
  rw [h, Dict.get?_insert]
  split <;> rfl

theorem Keyed.insert {sm' : StateManager} {k : String} {st : DeviceState} (hk : sm.Keyed)
    (h : sm'.devices = sm.devices.insert k st) (hst : st.address = k) : sm'.Keyed := by
  intro k' st' hget
  rw [h, Dict.get?_insert] at hget
  split at hget
  · next he => cases hget; exact hst.trans he
  · exact hk _ _ hget

/-- A call that leaves the value of its device performs no write. -/
theorem Touched.performs_nothing {k : String} {st : DeviceState} {actions : List BridgeAction}
    {r : StateManager × List BridgeAction} (h : Touched sm k st actions r) (hk : sm.Keyed)
    (hst : st.address = k) (hcur : st.currentState = sm.current k) :
    Performs sm [k] [] actions r where
  current := by
    rw [current_of_insert h.devices]
    funext k'
    rw [Register.writes_nil]
    split
    · next he => rw [hcur, he]
    · rfl
  actions := by rw [h.actions]; simp [publications]
  known k' := by rw [h.devices, Dict.mem_keys_insert, List.mem_singleton, or_comm]
  keyed := hk.insert h.devices hst
  session := h.session

/-- A call that sets the value of its device writes it once. -/
theorem Touched.performs_write {k : String} {st : DeviceState} {c : Command}
    {lead : List BridgeAction} {r : StateManager × List BridgeAction}
    (h : Touched sm k st
      (lead ++ if sm.current k = some c then [] else [.publishState k c true]) r)
    (hk : sm.Keyed) (hst : st.address = k) (hcur : st.currentState = some c) :
    Performs sm [k] [(k, c)] lead r where
  current := by
    rw [current_of_insert h.devices]
    funext k'
    rw [Register.writes_cons, Register.writes_nil, Register.write_apply, hcur]
  actions := by
    rw [h.actions]
    by_cases hc : sm.current k = some c <;> simp [publications, Register.changes, hc]
  known k' := by rw [h.devices, Dict.mem_keys_insert, List.mem_singleton, or_comm]
  keyed := hk.insert h.devices hst
  session := h.session

/-- Two calls in a row: the second one extends the actions of the first. -/
theorem Performs.append {names names' : List String} {ws ws' : List (String × Command)}
    {lead : List BridgeAction} {r r' : StateManager × List BridgeAction}
    (h : Performs sm names ws lead r) (h' : Performs r.1 names' ws' r.2 r') :
    Performs sm (names ++ names') (ws ++ ws') lead r' where
  current := by rw [h'.current, h.current, Register.writes_append]
  actions := by
    rw [h'.actions, h.actions, h.current, Register.changes_append]
    simp [publications]
  known k := by rw [h'.known, h.known, List.mem_append, or_assoc]
  keyed := h'.keyed
  session := h.session.trans h'.session

/-- A device that is known already need not be named. -/
theorem Performs.of_known {k : String} {ws : List (String × Command)} {lead : List BridgeAction}
    {r : StateManager × List BridgeAction} (h : Performs sm [k] ws lead r)
    (hk : k ∈ sm.devices.keys) : Performs sm [] ws lead r :=
  { h with
    known := fun k' => by
      rw [h.known, List.mem_singleton]
      exact ⟨fun hor => .inl (hor.elim id fun he => he ▸ hk), fun hor => .inl (hor.resolve_right
        List.not_mem_nil)⟩ }

/-- The loop rule: what each turn performs, the whole loop performs in order. -/
theorem foldl_performs {α : Type}
    {f : StateManager × List BridgeAction → α → StateManager × List BridgeAction}
    (names : α → List String) (ws : α → List (String × Command))
    (Ready : StateManager → List α → Prop)
    (hstep : ∀ sm actions x xs, Ready sm (x :: xs) →
      Performs sm (names x) (ws x) actions (f (sm, actions) x) ∧ Ready (f (sm, actions) x).1 xs)
    (hkeyed : ∀ sm xs, Ready sm xs → sm.Keyed) (xs : List α) (actions : List BridgeAction)
    (hready : Ready sm xs) :
    Performs sm (xs.flatMap names) (xs.flatMap ws) actions (xs.foldl f (sm, actions)) := by
  induction xs generalizing sm actions with
  | nil =>
    exact ⟨rfl, by simp [publications], by simp, hkeyed _ _ hready, .refl sm⟩
  | cons x xs ih =>
    obtain ⟨hx, hready'⟩ := hstep sm actions x xs hready
    rw [List.flatMap_cons, List.flatMap_cons, List.foldl_cons]
    exact hx.append (ih (f (sm, actions) x).2 hready')

/-! ### Device events -/

/-- The write of a device event. -/
def eventWrites (sm : StateManager) (e : DeviceEvent) : List (String × Command) :=
  if sm.Stateless e then [] else [(normalize e.address, authoritativeState e.command)]

theorem changes_eq (st : DeviceState) (c : Command) :
    st.changes c true = if st.currentState = some (authoritativeState c) then []
      else [.publishState st.address (authoritativeState c) true] := rfl

theorem applyDeviceEvent_performs (hk : sm.Keyed) {e : DeviceEvent}
    (ha : sm.addressAllowed e.address = true) :
    Performs sm [normalize e.address] (sm.eventWrites e)
      ((sm.stateOf e.address).discovery sm.mqttConnected ++ [.publishEvent e])
      (sm.applyDeviceEvent e) := by
  have haddr := stateOf_address hk e.address
  have h := applyDeviceEvent_spec hk ha
  unfold eventWrites
  by_cases hs : sm.Stateless e
  · simp only [if_pos hs, List.append_nil] at h ⊢
    exact h.performs_nothing hk haddr (stateOf_currentState _)
  · simp only [if_neg hs, changes_eq, stateOf_currentState, haddr] at h ⊢
    exact h.performs_write hk (by rw [DeviceState.take_address]; exact haddr) (by simp)

/-! ### Commands -/

/-- The write of an accepted command. -/
def commandWrites (sm : StateManager) (a : String) (c : Command) : List (String × Command) :=
  if (sm.deviceConfig a).stateful ∧ sm.optimisticUpdates then
    [(normalize a, authoritativeState c)]
  else []

theorem optimisticUpdate_performs (hk : sm.Keyed) (now : Timestamp) {a : String} {c : Command}
    (ha : sm.addressAllowed a = true) (hc : c ∈ (sm.deviceConfig a).supportedCommands) :
    Performs sm [normalize a] (sm.commandWrites a c) (sm.announcement now a c)
      (sm.optimisticUpdate now a c) := by
  have haddr := stateOf_address hk a
  have h := optimisticUpdate_accepted hk now ha hc
  unfold commandWrites
  by_cases hs : (sm.deviceConfig a).stateful ∧ sm.optimisticUpdates
  · simp only [if_pos hs, changes_eq, stateOf_currentState, haddr] at h ⊢
    exact h.performs_write hk (by rw [DeviceState.take_address]; exact haddr) (by simp)
  · simp only [if_neg hs, List.append_nil] at h ⊢
    exact h.performs_nothing hk haddr (stateOf_currentState _)

theorem optimisticUpdate_performs_nothing (hk : sm.Keyed) {now : Timestamp} {a : String}
    {c : Command} (ha : sm.addressAllowed a = true)
    (hc : c ∉ (sm.deviceConfig a).supportedCommands) :
    Performs sm [normalize a] [] [] (sm.optimisticUpdate now a c) :=
  (optimisticUpdate_unsupported hk _ ha hc).performs_nothing hk (stateOf_address hk a)
    (stateOf_currentState a)

/-! ### House events -/

/-- A house-wide command changes the state of the device. -/
def responds (sm : StateManager) (c : Command) (k : String) : Bool :=
  (sm.deviceConfig k).stateful && deviceRespondsToHouseCommand (sm.deviceConfig k) c

/-- The writes of a house event: one for each known device that responds. -/
def houseWrites (sm : StateManager) (e : HouseEvent) : List (String × Command) :=
  if sm.houseAllowed e.house ∧ e.command ∈ houseCommands then
    (sm.devicesForHouse e.house).flatMap fun st =>
      if sm.responds e.command st.address then [(st.address, houseState e.command)] else []
  else []

theorem authoritativeState_houseState (c : Command) :
    authoritativeState (houseState c) = houseState c := by
  unfold houseState
  split <;> rfl

/-- The states still to be visited are stored, each under its own address. -/
structure HouseReady (sm₀ sm : StateManager) (sts : List DeviceState) : Prop where
  session : SameSession sm₀ sm
  keyed : sm.Keyed
  stored : ∀ st ∈ sts, sm.devices.get? st.address = some st
  nodup : (sts.map DeviceState.address).Nodup

/-- A device that responds to a house command takes its state. -/
theorem applyHouseCommand_responds {c : Command} (t : Timestamp) (actions : List BridgeAction)
    {st : DeviceState} (hr : sm.responds c st.address = true) :
    Touched sm st.address
      (({ st with available := true, lastSeen := some t } : DeviceState).take (houseState c) t true)
      (actions ++ st.changes (houseState c) true) (applyHouseCommand c t (sm, actions) st) := by
  simp only [responds, Bool.and_eq_true] at hr
  have hrun : applyHouseCommand c t (sm, actions) st =
      ((sm.setDeviceState { st with available := true, lastSeen := some t } (houseState c) t true
          true).1,
        actions ++ (sm.setDeviceState { st with available := true, lastSeen := some t }
          (houseState c) t true true).2) := by
    simp only [applyHouseCommand, hr.1, hr.2, Bool.not_true, Bool.false_eq_true, if_false]
  rw [hrun]
  exact ⟨setDeviceState_devices .., by rw [setDeviceState_actions]; rfl, setDeviceState_session ..⟩

theorem applyHouseCommand_ignores {c : Command} (t : Timestamp) (actions : List BridgeAction)
    {st : DeviceState} (hr : sm.responds c st.address ≠ true) :
    applyHouseCommand c t (sm, actions) st = (sm, actions) := by
  simp only [responds, ne_eq, Bool.and_eq_true, not_and, Bool.not_eq_true] at hr
  simp only [applyHouseCommand]
  split
  · rfl
  · next hs =>
    simp only [Bool.not_eq_true', Bool.not_eq_false] at hs
    rw [hr hs]
    rfl

theorem applyHouseCommand_performs {sm₀ : StateManager} {c : Command} {t : Timestamp}
    {actions : List BridgeAction} {st : DeviceState} {sts : List DeviceState}
    (h : HouseReady sm₀ sm (st :: sts)) :
    Performs sm [] (if sm₀.responds c st.address then [(st.address, houseState c)] else []) actions
        (applyHouseCommand c t (sm, actions) st) ∧
      HouseReady sm₀ (applyHouseCommand c t (sm, actions) st).1 sts := by
  have hget := h.stored st List.mem_cons_self
  have hrest : ∀ st' ∈ sts, st.address ≠ st'.address := by
    intro st' hst' he
    exact (List.nodup_cons.mp h.nodup).1 (he ▸ List.mem_map_of_mem hst')
  have hresp : sm₀.responds c st.address = sm.responds c st.address := by
    simp only [responds, h.session.deviceConfig]
  rw [hresp]
  by_cases hr : sm.responds c st.address = true
  · -- the device responds: its entry is written
    have htouched := applyHouseCommand_responds t actions hr
    have hcur : st.currentState = sm.current st.address := by simp [current, hget]
    rw [changes_eq, authoritativeState_houseState, hcur] at htouched
    have hperf := htouched.performs_write h.keyed (by simp)
      (by rw [DeviceState.take_currentState, authoritativeState_houseState])
    rw [if_pos hr]
    refine ⟨hperf.of_known (Dict.mem_keys.mpr (by simp [hget])), ⟨h.session.trans hperf.session,
      hperf.keyed, ?_, (List.nodup_cons.mp h.nodup).2⟩⟩
    intro st' hst'
    rw [htouched.devices, Dict.get?_insert_of_ne _ _ (hrest st' hst')]
    exact h.stored st' (List.mem_cons_of_mem _ hst')
  · -- nothing happens
    rw [if_neg hr, applyHouseCommand_ignores t actions hr]
    exact ⟨⟨rfl, by simp [publications], by simp, h.keyed, .refl sm⟩, ⟨h.session, h.keyed,
      fun st' hst' => h.stored st' (List.mem_cons_of_mem _ hst'), (List.nodup_cons.mp h.nodup).2⟩⟩

theorem devicesForHouse_ready (hk : sm.Keyed) (house : String) :
    HouseReady sm sm (sm.devicesForHouse house) where
  session := .refl sm
  keyed := hk
  stored st hst := by
    obtain ⟨e, he, rfl⟩ := List.mem_map.mp hst
    have hget := Dict.mem_entries.mp (List.mem_filter.mp he).1
    rw [hk _ _ hget]
    exact hget
  nodup := by
    have hkeys : (sm.devicesForHouse house).map DeviceState.address =
        (sm.devices.entries.filter fun e => startsWith e.1 (normalize house)).map Prod.fst := by
      rw [devicesForHouse, List.map_map]
      refine List.map_congr_left fun e he => ?_
      exact hk _ _ (Dict.mem_entries.mp (List.mem_filter.mp he).1)
    rw [hkeys]
    exact sm.devices.nodup.sublist (List.filter_sublist.map Prod.fst)

/-- Counting an event changes nothing that a call depends on. -/
theorem Performs.of_counted {sm₁ : StateManager} {names : List String}
    {ws : List (String × Command)} {lead : List BridgeAction} {r : StateManager × List BridgeAction}
    (hd : sm₁.devices = sm.devices) (hs : SameSession sm sm₁) (h : Performs sm₁ names ws lead r) :
    Performs sm names ws lead r := by
  have hcur : sm₁.current = sm.current := by funext k; simp only [StateManager.current, hd]
  exact ⟨by rw [h.current, hcur], by rw [h.actions, hcur], fun k => by rw [h.known, hd], h.keyed,
    hs.trans h.session⟩

theorem applyHouseEvent_performs (hk : sm.Keyed) (e : HouseEvent) :
    Performs sm [] (sm.houseWrites e) [] (sm.applyHouseEvent e) := by
  unfold houseWrites
  simp only [applyHouseEvent]
  by_cases hh : sm.houseAllowed e.house = true
  · simp only [hh, Bool.not_true, Bool.false_eq_true, if_false, true_and]
    generalize hs₁ : ({ sm with
      statistics := { sm.statistics with eventsReceived := sm.statistics.eventsReceived + 1 } } :
      StateManager) = sm₁
    have h₁ : SameSession sm sm₁ := by subst hs₁; exact ⟨⟨rfl, rfl, rfl⟩, rfl, rfl, rfl⟩
    have hd₁ : sm₁.devices = sm.devices := by subst hs₁; rfl
    have hk₁ : sm₁.Keyed := by intro k st h; rw [hd₁] at h; exact hk k st h
    refine Performs.of_counted hd₁ h₁ ?_
    by_cases hc : e.command ∈ houseCommands
    · rw [if_neg (not_not.mpr hc), if_pos hc]
      have hloop := foldl_performs (f := applyHouseCommand e.command e.timestamp) (fun _ => [])
        (fun st => if sm₁.responds e.command st.address then
          [(st.address, houseState e.command)] else []) (HouseReady sm₁)
        (fun _ _ _ _ h => applyHouseCommand_performs h) (fun _ _ h => h.keyed)
        (sm₁.devicesForHouse e.house) [] (devicesForHouse_ready hk₁ e.house)
      have hdev : sm₁.devicesForHouse e.house = sm.devicesForHouse e.house := by
        rw [devicesForHouse, hd₁, devicesForHouse]
      have hresp : ∀ k, sm₁.responds e.command k = sm.responds e.command k := fun k => by
        simp only [responds, h₁.deviceConfig]
      simpa only [hdev, hresp, List.flatMap_eq_nil_iff.mpr fun _ _ => rfl] using hloop
    · rw [if_pos hc, if_neg hc]
      exact .nothing hk₁
  · simp only [hh, Bool.not_false, if_true, Bool.false_eq_true, false_and, if_false]
    exact .nothing hk

/-! ### Status snapshots -/

/-- The device of a snapshot entry, if the entry is for an allowed address. -/
def entryNames (sm : StateManager) (entry : String × Command) : List String :=
  if sm.addressAllowed entry.1 then [normalize entry.1] else []

/-- The write of a snapshot entry. -/
def entryWrites (sm : StateManager) (entry : String × Command) : List (String × Command) :=
  if sm.addressAllowed entry.1 ∧ (sm.deviceConfig entry.1).stateful then
    [(normalize entry.1, authoritativeState entry.2)]
  else []

/-- The device of a snapshot entry, seen now. -/
def listedState (sm : StateManager) (now : Timestamp) (entry : String × Command) : DeviceState :=
  { sm.stateOf entry.1 with available := true, lastSeen := some now }

theorem applySnapshotEntry_denied (now : Timestamp) (actions : List BridgeAction)
    {entry : String × Command} (ha : sm.addressAllowed entry.1 ≠ true) :
    applySnapshotEntry now (sm, actions) entry = (sm, actions) := by
  simp only [applySnapshotEntry, Bool.eq_false_iff.mpr ha, Bool.not_false, if_true]

/-- An allowed entry makes its device known, and sets its state if it has one. -/
theorem applySnapshotEntry_spec (hk : sm.Keyed) (now : Timestamp) (actions : List BridgeAction)
    {entry : String × Command} (ha : sm.addressAllowed entry.1 = true) :
    Touched sm (normalize entry.1)
      (if (sm.deviceConfig entry.1).stateful then (sm.listedState now entry).take entry.2 now true
        else sm.stateOf entry.1)
      (actions ++ if (sm.deviceConfig entry.1).stateful then
        (sm.stateOf entry.1).changes entry.2 true else [])
      (applySnapshotEntry now (sm, actions) entry) := by
  have haddr := stateOf_address hk entry.1
  have hdv := ensureDevice_devices sm entry.1
  have hse := ensureDevice_session sm entry.1
  have hconf : (sm.ensureDevice entry.1).1.deviceConfig (sm.stateOf entry.1).address =
      sm.deviceConfig entry.1 := by
    rw [hse.deviceConfig, haddr, deviceConfig_normalize]
  simp only [applySnapshotEntry, ha, Bool.not_true, Bool.false_eq_true, if_false,
    ensureDevice_snd, hconf]
  by_cases hs : (sm.deviceConfig entry.1).stateful = true
  · have hlisted : (sm.listedState now entry).address = normalize entry.1 := haddr
    simp only [hs, Bool.not_true, Bool.false_eq_true, if_false, if_true]
    rw [show ({ sm.stateOf entry.1 with available := true, lastSeen := some now } : DeviceState) =
      sm.listedState now entry from rfl]
    refine ⟨?_, by rw [setDeviceState_actions]; rfl, hse.trans (setDeviceState_session ..)⟩
    rw [setDeviceState_devices, hdv, hlisted, Dict.insert_insert]
  · simp only [hs, Bool.not_false, if_true, Bool.false_eq_true, if_false, List.append_nil]
    exact ⟨hdv, rfl, hse⟩

theorem applySnapshotEntry_performs (hk : sm.Keyed) (now : Timestamp) (actions : List BridgeAction)
    (entry : String × Command) :
    Performs sm (sm.entryNames entry) (sm.entryWrites entry) actions
      (applySnapshotEntry now (sm, actions) entry) := by
  unfold entryNames entryWrites
  by_cases ha : sm.addressAllowed entry.1 = true
  · have haddr := stateOf_address hk entry.1
    have htouched := applySnapshotEntry_spec hk now actions ha
    simp only [ha, if_true, true_and]
    by_cases hs : (sm.deviceConfig entry.1).stateful = true
    · simp only [hs, if_true, changes_eq, stateOf_currentState, haddr] at htouched ⊢
      exact htouched.performs_write hk (by rw [DeviceState.take_address]; exact haddr) (by simp)
    · simp only [hs, Bool.false_eq_true, if_false, List.append_nil] at htouched ⊢
      exact htouched.performs_nothing hk haddr (stateOf_currentState _)
  · simp only [ha, Bool.false_eq_true, if_false, false_and, applySnapshotEntry_denied now actions ha]
    exact ⟨rfl, by simp [publications], by simp, hk, .refl sm⟩

theorem applyStatusSnapshot_performs (hk : sm.Keyed) (now : Timestamp) (snap : StatusSnapshot) :
    Performs sm (snap.devices.entries.flatMap sm.entryNames)
      (snap.devices.entries.flatMap sm.entryWrites) [] (sm.applyStatusSnapshot now snap) := by
  simp only [applyStatusSnapshot]
  generalize hs₁ : ({ sm with
    statistics := { sm.statistics with statusSyncs := sm.statistics.statusSyncs + 1 } } :
    StateManager) = sm₁
  have h₁ : SameSession sm sm₁ := by subst hs₁; exact ⟨⟨rfl, rfl, rfl⟩, rfl, rfl, rfl⟩
  have hd₁ : sm₁.devices = sm.devices := by subst hs₁; rfl
  have hk₁ : sm₁.Keyed := by intro k st h; rw [hd₁] at h; exact hk k st h
  refine Performs.of_counted hd₁ h₁ ?_
  refine foldl_performs _ _ (fun sm' _ => SameSession sm sm' ∧ sm'.Keyed)
    (fun sm' actions entry _ h => ?_) (fun _ _ h => h.2) _ _ ⟨h₁, hk₁⟩
  have hperf := applySnapshotEntry_performs h.2 now actions entry
  simp only [entryNames, entryWrites, h.1.addressAllowed, h.1.deviceConfig] at hperf
  exact ⟨hperf, h.1.trans hperf.session, hperf.keyed⟩

/-! ### All inbound events -/

/-- The devices an event makes known. -/
def eventNames (sm : StateManager) : Option Event → List String
  | some (.device e) => if sm.addressAllowed e.address then [normalize e.address] else []
  | some (.snapshot snap) => snap.devices.entries.flatMap sm.entryNames
  | _ => []

/-- The writes of an event. -/
def applyWrites (sm : StateManager) : Option Event → List (String × Command)
  | some (.device e) => if sm.addressAllowed e.address then sm.eventWrites e else []
  | some (.house e) => sm.houseWrites e
  | some (.snapshot snap) => snap.devices.entries.flatMap sm.entryWrites
  | _ => []

/-- What an event returns besides the state changes. -/
def applyLead (sm : StateManager) : Option Event → List BridgeAction
  | some (.device e) =>
    if sm.addressAllowed e.address then
      (sm.stateOf e.address).discovery sm.mqttConnected ++ [.publishEvent e]
    else []
  | some (.unknown e) => [.logUnknownEvent e]
  | _ => []

theorem apply_performs (hk : sm.Keyed) (now : Timestamp) (event : Option Event) :
    Performs sm (sm.eventNames event) (sm.applyWrites event) (sm.applyLead event)
      (sm.apply now event) := by
  match event with
  | none => exact .nothing hk
  | some (.device e) =>
    unfold eventNames applyWrites applyLead apply
    by_cases ha : sm.addressAllowed e.address = true
    · simp only [ha, if_true]
      exact applyDeviceEvent_performs hk ha
    · simp only [Bool.not_eq_true] at ha
      simp only [ha, Bool.false_eq_true, if_false, applyDeviceEvent_denied ha]
      exact .nothing hk
  | some (.house e) => exact applyHouseEvent_performs hk e
  | some (.snapshot snap) => exact applyStatusSnapshot_performs hk now snap
  | some (.unknown e) =>
    exact ⟨rfl, by simp [apply, applyLead, publications, applyWrites],
      by simp [eventNames, apply], hk, ⟨⟨rfl, rfl, rfl⟩, rfl, rfl, rfl⟩⟩

/-! ## Connection notifications -/

/-- A notification sets the connection flags and leaves the values alone. -/
structure Notified (sm sm' : StateManager) (mqtt mochad : Bool) : Prop extends
    SameSetup sm sm' where
  current : sm'.current = sm.current
  keys : sm'.devices.keys = sm.devices.keys
  keyed : sm.Keyed → sm'.Keyed
  mqtt : sm'.mqttConnected = mqtt
  mochad : sm'.mochadConnected = mochad

/-- Updating all devices without touching their addresses and values. -/
theorem mapValues_current (sm sm' : StateManager) (f : DeviceState → DeviceState)
    (h : sm'.devices = sm.devices.mapValues f) (haddr : ∀ st, (f st).address = st.address)
    (hcur : ∀ st, (f st).currentState = st.currentState) :
    sm'.current = sm.current ∧ sm'.devices.keys = sm.devices.keys ∧ (sm.Keyed → sm'.Keyed) := by
  refine ⟨?_, by rw [h, Dict.keys_mapValues], fun hk k st hget => ?_⟩
  · funext k
    simp only [current, h, Dict.get?_mapValues]
    cases sm.devices.get? k with
    | none => rfl
    | some st => exact hcur st
  · rw [h, Dict.get?_mapValues, Option.map_eq_some_iff] at hget
    obtain ⟨st', hst', rfl⟩ := hget
    rw [haddr]
    exact hk k st' hst'

theorem onMqttConnected_notified (sm : StateManager) :
    Notified sm sm.onMqttConnected.1 true sm.mochadConnected :=
  have h := mapValues_current sm sm.onMqttConnected.1
    (fun state => { state with discovered := true }) rfl (fun _ => rfl) (fun _ => rfl)
  ⟨⟨rfl, rfl, rfl⟩, h.1, h.2.1, h.2.2, rfl, rfl⟩

theorem onMqttConnected_actions (sm : StateManager) : sm.onMqttConnected.2 =
    sm.onMqttConnected.1.bridgeStatusActions ++
      sm.onMqttConnected.1.devices.values.flatMap replayActions := rfl

theorem onMqttDisconnected_notified (sm : StateManager) :
    Notified sm sm.onMqttDisconnected.1 false sm.mochadConnected :=
  ⟨⟨rfl, rfl, rfl⟩, rfl, rfl, id, rfl, rfl⟩

theorem onMochadConnected_notified (sm : StateManager) :
    Notified sm sm.onMochadConnected.1 sm.mqttConnected true :=
  ⟨⟨rfl, rfl, rfl⟩, rfl, rfl, id, rfl, rfl⟩

theorem onMochadDisconnected_notified (sm : StateManager) :
    Notified sm sm.onMochadDisconnected.1 sm.mqttConnected false :=
  have h := mapValues_current sm sm.onMochadDisconnected.1
    (fun state => { state with available := false }) rfl (fun _ => rfl) (fun _ => rfl)
  ⟨⟨rfl, rfl, rfl⟩, h.1, h.2.1, h.2.2, rfl, rfl⟩

/-! ## The initial state -/

/-- A manager as `__init__` builds it: no device has a value yet. -/
structure Fresh (sm : StateManager) : Prop where
  keyed : sm.Keyed
  current : sm.current = fun _ => none

theorem addDevice_fresh (h : sm.Fresh) (d : DeviceConfig) : (sm.addDevice d).Fresh := by
  simp only [addDevice]
  split
  · generalize hs : ({ sm with
      deviceConfigs := sm.deviceConfigs.insert (normalize d.address) d } : StateManager) = sm'
    have hd : sm'.devices = sm.devices := by subst hs; rfl
    have hk : sm'.Keyed := by intro k st hget; rw [hd] at hget; exact h.keyed k st hget
    have hcur : sm'.current = sm.current := by funext k; simp only [StateManager.current, hd]
    refine ⟨hk.insert (ensureDevice_devices _ d.address) (stateOf_address hk _), ?_⟩
    rw [current_of_insert (ensureDevice_devices _ d.address)]
    funext k
    simp only [stateOf_currentState, hcur, h.current, ite_self]
  · exact h

theorem addDevice_keys (d : DeviceConfig) (k : String) :
    k ∈ (sm.addDevice d).devices.keys ↔
      k ∈ sm.devices.keys ∨ (sm.addressAllowed d.address = true ∧ normalize d.address = k) := by
  simp only [addDevice]
  split
  · next ha =>
    rw [ensureDevice_devices, Dict.mem_keys_insert, or_comm]
    simp only [ha, true_and, eq_comm]
  · next ha => simp [ha]

theorem addDevice_housecodes (d : DeviceConfig) :
    (sm.addDevice d).allowedHousecodes = sm.allowedHousecodes := by
  simp only [addDevice]
  split
  · exact (ensureDevice_session _ _).housecodes
  · rfl

theorem addDevice_optimistic (d : DeviceConfig) :
    (sm.addDevice d).optimisticUpdates = sm.optimisticUpdates := by
  simp only [addDevice]
  split
  · exact (ensureDevice_session _ _).optimistic
  · rfl

theorem addDevice_allowed (d : DeviceConfig) (a : String) :
    (sm.addDevice d).addressAllowed a = sm.addressAllowed a := by
  simp only [addressAllowed, houseAllowed, addDevice_housecodes]

/-- The manager that knows no device. -/
def empty (optimistic : Bool) (housecodes : Option (List String)) : StateManager where
  optimisticUpdates := optimistic
  allowedHousecodes := normalizeHousecodes housecodes

theorem empty_fresh (optimistic : Bool) (housecodes : Option (List String)) :
    (empty optimistic housecodes).Fresh :=
  ⟨fun _ _ h => (nomatch h), rfl⟩

theorem foldl_addDevice_setup (sm : StateManager) (devices : List DeviceConfig) :
    (devices.foldl addDevice sm).allowedHousecodes = sm.allowedHousecodes ∧
      (devices.foldl addDevice sm).optimisticUpdates = sm.optimisticUpdates := by
  induction devices generalizing sm with
  | nil => exact ⟨rfl, rfl⟩
  | cons d devices ih =>
    rw [List.foldl_cons, (ih _).1, (ih _).2]
    exact ⟨addDevice_housecodes d, addDevice_optimistic d⟩

theorem foldl_addDevice_fresh (devices : List DeviceConfig) (h : sm.Fresh) :
    (devices.foldl addDevice sm).Fresh := by
  induction devices generalizing sm with
  | nil => exact h
  | cons d devices ih =>
    rw [List.foldl_cons]
    exact ih (addDevice_fresh h d)

theorem foldl_addDevice_keys (sm : StateManager) (devices : List DeviceConfig) (k : String) :
    k ∈ (devices.foldl addDevice sm).devices.keys ↔ k ∈ sm.devices.keys ∨
      ∃ d ∈ devices, sm.addressAllowed d.address = true ∧ normalize d.address = k := by
  induction devices generalizing sm with
  | nil => simp
  | cons d devices ih =>
    rw [List.foldl_cons, ih, addDevice_keys, List.exists_mem_cons_iff, or_assoc]
    simp only [addDevice_allowed]

theorem addDevice_configs {d : DeviceConfig} (h : sm.addressAllowed d.address = true) :
    (sm.addDevice d).deviceConfigs = sm.deviceConfigs.insert (normalize d.address) d := by
  rw [addDevice, if_pos h]
  exact (ensureDevice_session _ _).configs

/-- The configurations of a list of allowed devices. -/
theorem foldl_addDevice_configs (sm : StateManager) {devices : List DeviceConfig}
    (h : ∀ d ∈ devices, sm.addressAllowed d.address = true) :
    (devices.foldl addDevice sm).deviceConfigs =
      devices.foldl (fun t d => t.insert (normalize d.address) d) sm.deviceConfigs := by
  induction devices generalizing sm with
  | nil => rfl
  | cons d devices ih =>
    have hrest : ∀ d' ∈ devices, (sm.addDevice d).addressAllowed d'.address = true := by
      intro d' hd'
      rw [addDevice_allowed]
      exact h d' (List.mem_cons_of_mem _ hd')
    rw [List.foldl_cons, ih _ hrest, addDevice_configs (h d List.mem_cons_self)]
    rfl

section Init
variable (devices : List DeviceConfig) (optimistic : Bool) (housecodes : Option (List String))

/-- The configurations of a table whose devices are all allowed. -/
theorem init_table {table : Dict String DeviceConfig} {optimistic : Bool}
    {housecodes : Option (List String)}
    (hkey : ∀ k d, table.get? k = some d → normalize d.address = k)
    (hallowed : ∀ d ∈ table.values, (empty optimistic housecodes).addressAllowed d.address = true)
    (k : String) : (init table.values optimistic housecodes).deviceConfigs.get? k = table.get? k := by
  have hfold : (init table.values optimistic housecodes).deviceConfigs = _ :=
    foldl_addDevice_configs (empty optimistic housecodes) hallowed
  have hperm : table.values.Perm table.values := .refl _
  rw [hfold, ← Dict.get?_of_values (fun d : DeviceConfig => normalize d.address) hkey hperm k]
  rfl

theorem init_fresh : (init devices optimistic housecodes).Fresh :=
  foldl_addDevice_fresh devices (empty_fresh optimistic housecodes)

theorem init_housecodes : (init devices optimistic housecodes).allowedHousecodes =
    normalizeHousecodes housecodes :=
  (foldl_addDevice_setup (empty optimistic housecodes) devices).1

theorem init_optimistic : (init devices optimistic housecodes).optimisticUpdates = optimistic :=
  (foldl_addDevice_setup (empty optimistic housecodes) devices).2

theorem init_addressAllowed (a : String) :
    (init devices optimistic housecodes).addressAllowed a =
      (empty optimistic housecodes).addressAllowed a := by
  simp only [addressAllowed, houseAllowed, init_housecodes, empty]

/-- The devices known at the start are the allowed ones of the list. -/
theorem init_keys (k : String) : k ∈ (init devices optimistic housecodes).devices.keys ↔
    ∃ d ∈ devices, (init devices optimistic housecodes).addressAllowed d.address = true ∧
      normalize d.address = k := by
  have h := foldl_addDevice_keys (empty optimistic housecodes) devices k
  simp only [init_addressAllowed]
  exact h.trans (or_iff_right fun hk => nomatch hk)

end Init

end StateManager

end MochadBridge
