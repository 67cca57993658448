import MochadBridge.ActionSpec
import MochadBridge.Lib.Effect

/-!
# What a run does to one device

A `Touch` is one change of a device state. A call takes each device through
touches of its own (`Call.touches`), and only those that fit the configuration
of the device: nothing sets the state of an action-only device.

Results:
1. `call_touches`: the effect of a call on one device, as a path of touches.
2. `never_retains`: an action-only device never acquires a state, and no call
   returns a retained publish for it.
-/

namespace MochadBridge

open Py Effect StateManager

/-! ## Touches -/

/-- One change of a device state. -/
inductive Touch where
  | seen (now : Timestamp)
  | pend (command : Command)
  | discover
  | take (command : Command) (now : Timestamp) (clearPending : Bool)
  | lose

/-- The change fits the configuration of the device. -/
def Touch.fits (d : DeviceConfig) : Touch → Prop
  | .pend command => command ∈ d.supportedCommands
  | .take .. => d.stateful = true
  | _ => True

def Touch.apply : Touch → DeviceState → DeviceState
  | .seen now, st => { st with available := true, lastSeen := some now }
  | .pend command, st => { st with pendingCommand := some command }
  | .discover, st => { st with discovered := true }
  | .take command now clearPending, st => st.take command now clearPending
  | .lose, st => { st with available := false }

/-- The states of a device with this configuration. -/
def deviceSystem (d : DeviceConfig) : System Touch DeviceState where
  guard l _ := l.fits d
  apply := Touch.apply

/-- The touches of a call. -/
def Call.touches : Call → Touch → Prop
  | .apply _ (some (.device e)), l =>
    l = .seen e.timestamp ∨ l = .discover ∨ l = .take e.command e.timestamp true
  | .apply _ (some (.house e)), l =>
    l = .seen e.timestamp ∨ l = .take (houseState e.command) e.timestamp true
  | .apply now (some (.snapshot snap)), l =>
    l = .seen now ∨ ∃ e ∈ snap.devices.entries, l = .take e.2 now true
  | .optimisticUpdate now _ c, l => l = .pend c ∨ l = .discover ∨ l = .take c now false
  | .mqttConnected, l => l = .discover
  | .mochadDisconnected, l => l = .lose
  | _, _ => False

namespace StateManager

variable {sm sm' : StateManager} {K K' : Touch → Prop}

/-- The state stored under a key, a fresh one if there is none. -/
def stateAt (sm : StateManager) (k : String) : DeviceState :=
  (sm.devices.get? k).getD { address := k }

theorem stateAt_normalize (a : String) : sm.stateAt (normalize a) = sm.stateOf a := rfl

/-- Every device goes through touches of the class. -/
structure Evolves (K : Touch → Prop) (sm sm' : StateManager) : Prop where
  setup : SameSetup sm sm'
  device : ∀ k, Path (deviceSystem (sm.deviceConfig k)) K (sm.stateAt k) (sm'.stateAt k)

theorem Evolves.refl (sm : StateManager) : Evolves K sm sm := ⟨.refl sm, fun _ => .refl⟩

theorem Evolves.trans {sm'' : StateManager} (h : Evolves K sm sm') (h' : Evolves K sm' sm'') :
    Evolves K sm sm'' := by
  refine ⟨h.setup.trans h'.setup, fun k => (h.device k).trans ?_⟩
  rw [← h.setup.deviceConfig]
  exact h'.device k

theorem Evolves.mono (hK : ∀ l, K l → K' l) (h : Evolves K sm sm') : Evolves K' sm sm' :=
  ⟨h.setup, fun k => (h.device k).mono hK⟩

/-- Counting changes no device. -/
theorem Evolves.of_same (hs : SameSetup sm sm') (hd : sm'.devices = sm.devices) :
    Evolves K sm sm' := by
  refine ⟨hs, fun k => ?_⟩
  have hst : sm'.stateAt k = sm.stateAt k := by rw [stateAt, hd, stateAt]
  rw [hst]
  exact .refl

/-- One device goes through touches, the others stay. -/
theorem Touched.evolves {k : String} {st : DeviceState} {actions : List BridgeAction}
    {r : StateManager × List BridgeAction} (h : Touched sm k st actions r)
    (hp : Path (deviceSystem (sm.deviceConfig k)) K (sm.stateAt k) st) : Evolves K sm r.1 := by
  refine ⟨h.session.toSameSetup, fun k' => ?_⟩
  unfold stateAt
  rw [h.devices, Dict.get?_insert]
  split
  · next he =>
    subst he
    exact hp
  · exact .refl

/-- All devices take one touch, which leaves a fresh one alone or is never taken
by one. -/
theorem evolves_mapValues {l : Touch} (hs : SameSetup sm sm') (hK : K l)
    (hfit : ∀ d, l.fits d) (h : sm'.devices = sm.devices.mapValues l.apply) :
    Evolves K sm sm' := by
  refine ⟨hs, fun k => ?_⟩
  unfold stateAt
  rw [h, Dict.get?_mapValues]
  cases sm.devices.get? k with
  | none => exact .refl
  | some st => exact Path.single (G := deviceSystem _) hK (hfit _)

/-- The loop rule. -/
theorem foldl_evolves {α : Type}
    {f : StateManager × List BridgeAction → α → StateManager × List BridgeAction}
    (Ready : StateManager → List α → Prop)
    (hstep : ∀ sm actions x xs, Ready sm (x :: xs) →
      Evolves K sm (f (sm, actions) x).1 ∧ Ready (f (sm, actions) x).1 xs)
    (xs : List α) (actions : List BridgeAction) (hready : Ready sm xs) :
    Evolves K sm (xs.foldl f (sm, actions)).1 := by
  induction xs generalizing sm actions with
  | nil => exact .refl sm
  | cons x xs ih =>
    obtain ⟨hx, hready'⟩ := hstep sm actions x xs hready
    rw [List.foldl_cons]
    exact hx.trans (ih (f (sm, actions) x).2 hready')

/-! ## The touches of a call -/

section Path
variable {d : DeviceConfig} {st st' : DeviceState}

theorem path_discover (h : Path (deviceSystem d) K st st') (hK : K .discover) (m : Bool) :
    Path (deviceSystem d) K st (st'.discover m) := by
  cases m with
  | true =>
    have hone : Path (deviceSystem d) K st' (Touch.discover.apply st') :=
      Path.single (G := deviceSystem d) hK trivial
    have heq : st'.discover true = Touch.discover.apply st' := by
      simp only [DeviceState.discover, Bool.or_true, Touch.apply]
    rw [heq]
    exact h.trans hone
  | false =>
    have heq : st'.discover false = st' := by simp only [DeviceState.discover, Bool.or_false]
    rw [heq]
    exact h

theorem path_touch (h : Path (deviceSystem d) K st st') {l : Touch} (hK : K l) (hf : l.fits d) :
    Path (deviceSystem d) K st (l.apply st') := .tail h hK hf

end Path

theorem applyDeviceEvent_touches (hk : sm.Keyed) (now : Timestamp) (e : DeviceEvent) :
    Evolves (Call.apply now (some (.device e))).touches sm (sm.applyDeviceEvent e).1 := by
  by_cases ha : sm.addressAllowed e.address = true
  · refine (applyDeviceEvent_spec hk ha).evolves ?_
    have hseen : Path (deviceSystem (sm.deviceConfig (normalize e.address)))
        (Call.apply now (some (.device e))).touches (sm.stateAt (normalize e.address))
        (sm.seenState e) :=
      Path.single (G := deviceSystem _) (l := .seen e.timestamp) (.inl rfl) trivial
    have hdisc := path_discover hseen (.inr (.inl rfl)) sm.mqttConnected
    split
    · exact hdisc
    · next hs =>
      refine path_touch (l := .take e.command e.timestamp true) hdisc (.inr (.inr rfl)) ?_
      rw [deviceConfig_normalize]
      exact (Bool.not_eq_false _).mp fun hf => hs (.inl hf)
  · rw [applyDeviceEvent_denied (Bool.eq_false_iff.mpr ha)]
    exact .refl sm

theorem optimisticUpdate_touches (hk : sm.Keyed) (now : Timestamp) (a : String) (c : Command) :
    Evolves (Call.optimisticUpdate now a c).touches sm (sm.optimisticUpdate now a c).1 := by
  by_cases ha : sm.addressAllowed a = true
  · by_cases hc : c ∈ (sm.deviceConfig a).supportedCommands
    · refine (optimisticUpdate_accepted hk now ha hc).evolves ?_
      rw [deviceConfig_normalize]
      have hpend : Path (deviceSystem (sm.deviceConfig a)) (Call.optimisticUpdate now a c).touches
          (sm.stateAt (normalize a)) (sm.pendingState a c) :=
        Path.single (G := deviceSystem _) (l := .pend c) (.inl rfl) hc
      have hdisc := path_discover hpend (.inr (.inl rfl)) sm.mqttConnected
      split
      · next hs =>
        exact path_touch (l := .take c now false) hdisc (.inr (.inr rfl)) hs.1
      · exact hdisc
    · exact (optimisticUpdate_unsupported hk _ ha hc).evolves .refl
  · rw [optimisticUpdate_denied (Bool.eq_false_iff.mpr ha)]
    exact .refl sm

theorem applyHouseCommand_touches {c : Command} {t : Timestamp} {actions : List BridgeAction}
    {st : DeviceState} (hget : sm.devices.get? st.address = some st) :
    Evolves (fun l => l = .seen t ∨ l = .take (houseState c) t true) sm
      (applyHouseCommand c t (sm, actions) st).1 := by
  by_cases hr : sm.responds c st.address = true
  · refine (applyHouseCommand_responds t actions hr).evolves ?_
    simp only [responds, Bool.and_eq_true] at hr
    have hst : sm.stateAt st.address = st := by rw [stateAt, hget, Option.getD_some]
    rw [hst]
    refine path_touch (l := .take (houseState c) t true) ?_ (.inr rfl) hr.1
    exact Path.single (G := deviceSystem _) (l := .seen t) (.inl rfl) trivial
  · rw [applyHouseCommand_ignores t actions hr]
    exact .refl sm

theorem applyHouseEvent_touches (hk : sm.Keyed) (now : Timestamp) (e : HouseEvent) :
    Evolves (Call.apply now (some (.house e))).touches sm (sm.applyHouseEvent e).1 := by
  simp only [applyHouseEvent]
  split
  · exact .refl sm
  · split
    · exact .of_same ⟨rfl, rfl, rfl⟩ rfl
    · generalize hs₁ : ({ sm with
        statistics := { sm.statistics with eventsReceived := sm.statistics.eventsReceived + 1 } } :
        StateManager) = sm₁
      have h₁ : Evolves (Call.apply now (some (.house e))).touches sm sm₁ := by
        subst hs₁; exact .of_same ⟨rfl, rfl, rfl⟩ rfl
      have hk₁ : sm₁.Keyed := by subst hs₁; exact hk
      exact h₁.trans (foldl_evolves (HouseReady sm₁) (fun sm' actions st sts h =>
        ⟨applyHouseCommand_touches (h.stored st List.mem_cons_self),
          (applyHouseCommand_performs h).2⟩) _ [] (devicesForHouse_ready hk₁ e.house))

theorem applySnapshotEntry_touches (hk : sm.Keyed) {now : Timestamp} {actions : List BridgeAction}
    {entry : String × Command} :
    Evolves (fun l => l = .seen now ∨ l = .take entry.2 now true) sm
      (applySnapshotEntry now (sm, actions) entry).1 := by
  by_cases ha : sm.addressAllowed entry.1 = true
  · refine (applySnapshotEntry_spec hk now actions ha).evolves ?_
    split
    · next hs =>
      refine path_touch (l := .take entry.2 now true) ?_ (.inr rfl)
        (by rw [deviceConfig_normalize]; exact hs)
      exact Path.single (G := deviceSystem _) (l := .seen now) (.inl rfl) trivial
    · exact .refl
  · rw [applySnapshotEntry_denied now actions ha]
    exact .refl sm

theorem applyStatusSnapshot_touches (hk : sm.Keyed) (now : Timestamp) (snap : StatusSnapshot) :
    Evolves (Call.apply now (some (.snapshot snap))).touches sm
      (sm.applyStatusSnapshot now snap).1 := by
  simp only [applyStatusSnapshot]
  generalize hs₁ : ({ sm with
    statistics := { sm.statistics with statusSyncs := sm.statistics.statusSyncs + 1 } } :
    StateManager) = sm₁
  have h₁ : Evolves (Call.apply now (some (.snapshot snap))).touches sm sm₁ := by
    subst hs₁; exact .of_same ⟨rfl, rfl, rfl⟩ rfl
  have hk₁ : sm₁.Keyed := by subst hs₁; exact hk
  refine h₁.trans ?_
  refine foldl_evolves (fun sm' es => sm'.Keyed ∧ ∀ e ∈ es, e ∈ snap.devices.entries)
    (fun sm' actions e es h => ⟨?_, ?_, fun e' he' => h.2 e' (List.mem_cons_of_mem _ he')⟩)
    _ [] ⟨hk₁, fun _ he => he⟩
  · refine (applySnapshotEntry_touches h.1).mono fun l hl => hl.imp_right fun heq => ?_
    exact ⟨e, h.2 e List.mem_cons_self, heq⟩
  · exact (applySnapshotEntry_performs h.1 now actions e).keyed

/-- A call takes every device through touches of its own. -/
theorem call_touches (hk : sm.Keyed) (c : Call) : Evolves c.touches sm (sm.call c).1 := by
  cases c with
  | apply now event =>
    match event with
    | none => exact .refl sm
    | some (.device e) => exact applyDeviceEvent_touches hk now e
    | some (.house e) => exact applyHouseEvent_touches hk now e
    | some (.snapshot snap) => exact applyStatusSnapshot_touches hk now snap
    | some (.unknown e) => exact .of_same ⟨rfl, rfl, rfl⟩ rfl
  | optimisticUpdate now a c => exact optimisticUpdate_touches hk now a c
  | mqttConnected => exact evolves_mapValues (l := .discover) ⟨rfl, rfl, rfl⟩ rfl (fun _ => trivial) rfl
  | mqttDisconnected => exact .of_same ⟨rfl, rfl, rfl⟩ rfl
  | mochadConnected => exact .of_same ⟨rfl, rfl, rfl⟩ rfl
  | mochadDisconnected => exact evolves_mapValues (l := .lose) ⟨rfl, rfl, rfl⟩ rfl (fun _ => trivial) rfl

/-- So does a run, through touches that fit the device. -/
theorem run_touches (hk : sm.Keyed) (calls : List Call) :
    Evolves (fun _ => True) sm (sm.run calls) := by
  induction calls generalizing sm with
  | nil => exact .refl sm
  | cons c calls ih =>
    exact ((call_touches hk c).mono fun _ _ => trivial).trans (ih (call_effect hk c).keyed)

/-! ## The start -/

/-- A manager at its start knows fresh devices only. -/
theorem addDevice_stateAt (h : ∀ k, sm.stateAt k = { address := k }) (d : DeviceConfig)
    (k : String) : (sm.addDevice d).stateAt k = { address := k } := by
  simp only [addDevice]
  split
  · generalize hs : ({ sm with
      deviceConfigs := sm.deviceConfigs.insert (normalize d.address) d } : StateManager) = sm₁
    have hsame : ∀ k, sm₁.stateAt k = sm.stateAt k := by subst hs; exact fun _ => rfl
    rw [stateAt, ensureDevice_devices, Dict.get?_insert]
    split
    · next he =>
      rw [Option.getD_some, ← stateAt_normalize, hsame, h, he]
    · exact (hsame k).trans (h k)
  · exact h k

theorem foldl_addDevice_stateAt (h : ∀ k, sm.stateAt k = { address := k })
    (devices : List DeviceConfig) (k : String) :
    (devices.foldl addDevice sm).stateAt k = { address := k } := by
  induction devices generalizing sm with
  | nil => exact h k
  | cons d devices ih =>
    rw [List.foldl_cons]
    exact ih (addDevice_stateAt h d)

theorem init_stateAt (devices : List DeviceConfig) (optimistic : Bool)
    (housecodes : Option (List String)) (k : String) :
    (init devices optimistic housecodes).stateAt k = { address := k } :=
  foldl_addDevice_stateAt (fun _ => rfl) devices k

end StateManager

/-! ## Action-only devices -/

/-- The actions for a device that leave nothing retained about its state. -/
def BridgeAction.Unretained : BridgeAction → Prop
  | .publishDiscovery _ | .sendDeviceCommand .. | .publishEvent _ => True
  | .publishCommandEvent _ _ retain => retain = false
  | _ => False

/-- A device that never had a state. -/
structure DeviceState.Stateless (st : DeviceState) : Prop where
  current : st.currentState = none
  previous : st.previousState = none
  changed : st.lastChanged = none

/-- Touches that fit an action-only device give it no state. -/
theorem stateless_of_path {d : DeviceConfig} (hd : d.stateful = false) {K : Touch → Prop}
    {st st' : DeviceState} (h : Path (deviceSystem d) K st st') (hst : st.Stateless) :
    st'.Stateless := by
  refine h.invariant (fun l st _ hfit hst => ?_) hst
  cases l with
  | seen | pend | discover | lose => exact ⟨hst.current, hst.previous, hst.changed⟩
  | take =>
    have : d.stateful = true := hfit
    rw [hd] at this
    cases this

namespace StateManager

variable {sm sm' : StateManager}

theorem stateless_run (devices : List DeviceConfig) (optimistic : Bool)
    (housecodes : Option (List String)) (calls : List Call) {k : String}
    (hk : ((init devices optimistic housecodes).deviceConfig k).stateful = false) :
    (((init devices optimistic housecodes).run calls).stateAt k).Stateless := by
  refine stateless_of_path hk
    ((run_touches (init_fresh devices optimistic housecodes).keyed calls).device k) ?_
  rw [init_stateAt]
  exact ⟨rfl, rfl, rfl⟩

/-- An action is harmless for an action-only device, or its device is stateful. -/
def Fits (sm : StateManager) (x : BridgeAction) : Prop :=
  x.Unretained ∨ ∀ a, x.address = some a → (sm.deviceConfig a).stateful = true

/-- Only stateful devices are written to. -/
theorem applyWrites_stateful {event : Option Event} {w : String × Command}
    (hw : w ∈ sm.applyWrites event) : (sm.deviceConfig w.1).stateful = true := by
  cases event with
  | none => exact absurd hw List.not_mem_nil
  | some event =>
    cases event with
    | device e =>
      simp only [applyWrites, eventWrites] at hw
      split at hw
      · split at hw
        · exact absurd hw List.not_mem_nil
        · next hs =>
          rw [List.mem_singleton.mp hw, deviceConfig_normalize]
          exact (Bool.not_eq_false _).mp fun hf => hs (.inl hf)
      · exact absurd hw List.not_mem_nil
    | house e =>
      simp only [applyWrites, houseWrites] at hw
      split at hw
      · obtain ⟨st, hst, hw⟩ := List.mem_flatMap.mp hw
        split at hw
        · next hr =>
          rw [List.mem_singleton.mp hw]
          simp only [responds, Bool.and_eq_true] at hr
          exact hr.1
        · exact absurd hw List.not_mem_nil
      · exact absurd hw List.not_mem_nil
    | snapshot snap =>
      obtain ⟨e, he, hw⟩ := List.mem_flatMap.mp hw
      unfold entryWrites at hw
      split at hw
      · next h =>
        rw [List.mem_singleton.mp hw, deviceConfig_normalize]
        exact h.2
      · exact absurd hw List.not_mem_nil
    | unknown e => exact absurd hw List.not_mem_nil

theorem commandWrites_stateful {a : String} {c : Command} {w : String × Command}
    (hw : w ∈ sm.commandWrites a c) : (sm.deviceConfig w.1).stateful = true := by
  unfold commandWrites at hw
  split at hw
  · next h =>
    rw [List.mem_singleton.mp hw, deviceConfig_normalize]
    exact h.1
  · exact absurd hw List.not_mem_nil

theorem callWrites_stateful {c : Call} {w : String × Command} (hw : w ∈ sm.callWrites c) :
    (sm.deviceConfig w.1).stateful = true := by
  cases c with
  | apply now event => exact applyWrites_stateful hw
  | optimisticUpdate now a c =>
    simp only [callWrites] at hw
    split at hw
    · exact commandWrites_stateful hw
    · exact absurd hw List.not_mem_nil
  | mqttConnected | mqttDisconnected | mochadConnected | mochadDisconnected =>
    exact absurd hw List.not_mem_nil

/-- A state that is replayed is one of a stateful device. -/
theorem replay_stateful (hk : sm.Keyed)
    (hs : ∀ k, sm.current k ≠ none → (sm.deviceConfig k).stateful = true) {st : DeviceState}
    (hst : st ∈ sm.onMqttConnected.1.devices.values) {c : Command}
    (hc : st.currentState = some c) : (sm.deviceConfig st.address).stateful = true := by
  have hn := onMqttConnected_notified sm
  obtain ⟨k, hget⟩ := Dict.mem_values.mp hst
  rw [hn.keyed hk k st hget]
  refine hs k ?_
  rw [← hn.current, current, hget, Option.bind_some, hc]
  exact Option.some_ne_none _

/-- Every action of a call is harmless for an action-only device, or about a
stateful one. -/
theorem call_fits (hk : sm.Keyed)
    (hs : ∀ k, sm.current k ≠ none → (sm.deviceConfig k).stateful = true) (c : Call) :
    ∀ x ∈ (sm.call c).2, sm.Fits x := by
  intro x hx
  have habout : ∀ a, x.address = some a → (sm.deviceConfig a).stateful = true → sm.Fits x := by
    intro a ha hs
    refine .inr fun b hb => ?_
    rw [ha] at hb
    rwa [← Option.some.inj hb]
  cases call_yields hk c x hx with
  | change hw => exact habout _ rfl (callWrites_stateful hw)
  | discovery | event | send => exact .inl trivial
  | commandEvent => exact .inl rfl
  | attributes _ hs => exact habout _ rfl (by rwa [deviceConfig_normalize])
  | unknown | request => exact .inr nofun
  | replay hst hmem =>
    rcases replay_address hmem with rfl | ⟨c, hc, rfl⟩
    · exact .inl trivial
    · exact habout _ rfl (replay_stateful hk hs hst hc)
  | status hmem => rcases List.mem_pair.mp hmem with rfl | rfl <;> exact .inr nofun

end StateManager

/-- From any start and after any calls, an action-only device has no state,
no previous state and no time of a change, and every action the next call
returns for it is a discovery, a command to send, an event, or a command event
that is not retained. -/
theorem never_retains (devices : List DeviceConfig) (optimistic : Bool)
    (housecodes : Option (List String)) (calls : List Call) (a : String)
    (ha : ((StateManager.init devices optimistic housecodes).deviceConfig a).stateful = false) :
    let sm := (StateManager.init devices optimistic housecodes).run calls
    (∀ st, sm.devices.get? (normalize a) = some st →
      st.currentState = none ∧ st.previousState = none ∧ st.lastChanged = none) ∧
    ∀ c : Call, ∀ x ∈ (sm.call c).2,
      x.address.map normalize = some (normalize a) → x.Unretained := by
  intro sm
  have hfresh := init_fresh devices optimistic housecodes
  obtain ⟨hk, hsetup⟩ := run_keyed hfresh.keyed calls
  refine ⟨fun st hst => ?_, fun c x hx hxa => ?_⟩
  · have h := stateless_run devices optimistic housecodes calls
      (k := normalize a) (by rw [deviceConfig_normalize]; exact ha)
    rw [stateAt, hst] at h
    exact ⟨h.current, h.previous, h.changed⟩
  · have hs : ∀ k, sm.current k ≠ none → (sm.deviceConfig k).stateful = true := by
      intro k hcur
      rw [hsetup.deviceConfig]
      refine (Bool.not_eq_false _).mp fun hf => hcur ?_
      have h := (stateless_run devices optimistic housecodes calls hf).current
      rw [stateAt] at h
      unfold current
      cases hget : sm.devices.get? k with
      | none => rfl
      | some st =>
        rw [hget] at h
        exact h
    rcases call_fits hk hs c x hx with h | h
    · exact h
    · obtain ⟨b, hb, hba⟩ := Option.map_eq_some_iff.mp hxa
      have hstate := h b hb
      rw [← deviceConfig_normalize, hba, deviceConfig_normalize, hsetup.deviceConfig, ha] at hstate
      cases hstate

/-- A chime that is rung and reported on. -/
def chime : DeviceConfig := .postInit { address := "A2", name := "Bell", entityType := .chime }

def chimeCalls : List Call :=
  [.mqttConnected, .optimisticUpdate 1 "A2" .on,
    .apply 2 (some (.snapshot { devices := .ofPairs [("A2", .on)] }))]

/-- The chime's actions for one more command. -/
def chimeActions : List BridgeAction :=
  (((StateManager.init [chime] true none).run chimeCalls).call (.optimisticUpdate 3 "A2" .on)).2

theorem never_retains_chime :
    BridgeAction.publishCommandEvent "A2" (commandEventPayload "A2" .on 3) false ∈ chimeActions ∧
      (BridgeAction.publishCommandEvent "A2" (commandEventPayload "A2" .on 3) false).Unretained := by
  have hmem : BridgeAction.publishCommandEvent "A2" (commandEventPayload "A2" .on 3) false ∈
      chimeActions := by
    decide
  exact ⟨hmem, (never_retains [chime] true none chimeCalls "A2" (by decide)).2
    (.optimisticUpdate 3 "A2" .on) _ hmem rfl⟩

end MochadBridge
