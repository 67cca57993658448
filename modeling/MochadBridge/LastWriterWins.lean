import MochadBridge.StateSpec
import MochadBridge.Topics

/-!
# The state manager is a last-writer-wins register file

The reference is the history of one device: the commands that apply to it, in
order (`appliedCommands`). A call applies a command to a device if it is an
event at its address, a house-wide command its configuration responds to while
the device is known, a snapshot entry or, with optimistic updates, a command it
supports.

Results:
1. `valuesTo_callWrites`: what one call writes to a device is the command it
   applies.
2. `current_run`: after any calls a stateful device of an allowed house has the
   last command applied to it, and every other device has no state.
3. `last_writer_wins`: so it is from the start, and each call publishes a
   device's state exactly if it changed it, but `mqtt_connected` publishes every
   state there is.
-/

namespace MochadBridge

open Py Register StateManager

/-! ## Calls -/

/-- A call of the state manager. -/
inductive Call where
  | apply (now : Timestamp) (event : Option Event)
  | optimisticUpdate (now : Timestamp) (address : String) (command : Command)
  | mqttConnected
  | mqttDisconnected
  | mochadConnected
  | mochadDisconnected

namespace StateManager

/-- Execute one call. -/
def call (sm : StateManager) : Call → StateManager × List BridgeAction
  | .apply now event => sm.apply now event
  | .optimisticUpdate now address command => sm.optimisticUpdate now address command
  | .mqttConnected => sm.onMqttConnected
  | .mqttDisconnected => sm.onMqttDisconnected
  | .mochadConnected => sm.onMochadConnected
  | .mochadDisconnected => sm.onMochadDisconnected

/-- Execute calls one after the other. -/
def run (sm : StateManager) (calls : List Call) : StateManager :=
  calls.foldl (fun sm c => (sm.call c).1) sm

end StateManager

/-- The snapshot lists its devices under normal addresses, as the status parser
does. -/
def StatusSnapshot.Canonical (snap : StatusSnapshot) : Prop :=
  ∀ k ∈ snap.devices.keys, normalize k = k

/-- What the parser produces: house events carry a house letter and snapshots
normal addresses. -/
def Call.Parsed : Call → Prop
  | .apply _ (some (.house e)) => ∃ c, isHouse c = true ∧ e.house = String.singleton c
  | .apply _ (some (.snapshot snap)) => snap.Canonical
  | _ => True

/-! ## The reference -/

/-- The command a call applies to the device `k` with configuration `d`. -/
def applied (d : DeviceConfig) (optimistic : Bool) (k : String) (known : Bool) :
    Call → Option Command
  | .apply _ (some (.device e)) =>
    if normalize e.address = k ∧ e.command ∈ stateCommands then some e.command else none
  | .apply _ (some (.house e)) =>
    if known ∧ e.house.toList.head? = k.toList.head? ∧
        deviceRespondsToHouseCommand d e.command then
      some (houseState e.command)
    else none
  | .apply _ (some (.snapshot snap)) => snap.devices.get? k
  | .optimisticUpdate _ a c =>
    if optimistic ∧ normalize a = k ∧ c ∈ d.supportedCommands then some c else none
  | _ => none

/-- A call makes the device `k` known. -/
def mentions (k : String) : Call → Bool
  | .apply _ (some (.device e)) => normalize e.address = k
  | .apply _ (some (.snapshot snap)) => k ∈ snap.devices.keys
  | .optimisticUpdate _ a _ => normalize a = k
  | _ => false

/-- The commands a run applies to the device `k`, in order. -/
def appliedCommands (d : DeviceConfig) (optimistic : Bool) (k : String) :
    Bool → List Call → List Command
  | _, [] => []
  | known, c :: calls =>
    (applied d optimistic k known c).toList ++
      appliedCommands d optimistic k (known || mentions k c) calls

/-! ## One call -/

namespace StateManager

variable {sm : StateManager}

/-- The writes of a call. -/
def callWrites (sm : StateManager) : Call → List (String × Command)
  | .apply _ event => sm.applyWrites event
  | .optimisticUpdate _ a c =>
    if sm.addressAllowed a ∧ c ∈ (sm.deviceConfig a).supportedCommands then sm.commandWrites a c
    else []
  | _ => []

/-- The devices a call makes known. -/
def callNames (sm : StateManager) : Call → List String
  | .apply _ event => sm.eventNames event
  | .optimisticUpdate _ a _ => if sm.addressAllowed a then [normalize a] else []
  | _ => []

/-- A device's state is published, with this value. -/
def statePublication : BridgeAction → Option (String × Command)
  | .publishState a c _ => some (a, c)
  | _ => none

/-- The values published for the state of one device. -/
def published (k : String) (actions : List BridgeAction) : List Command :=
  valuesTo k (actions.filterMap statePublication)

@[simp] theorem published_append (k : String) (l l' : List BridgeAction) :
    published k (l ++ l') = published k l ++ published k l' := by
  simp [published]

theorem published_publications (k : String) (ws : List (String × Command)) :
    published k (publications ws) = valuesTo k ws := by
  have hid : (publications ws).filterMap statePublication = ws := by
    rw [publications, List.filterMap_map]
    exact (List.filterMap_congr fun _ _ => rfl).trans List.filterMap_some
  rw [published, hid]

theorem published_eq_nil {k : String} {actions : List BridgeAction}
    (h : ∀ x ∈ actions, statePublication x = none) : published k actions = [] := by
  rw [published, List.filterMap_eq_nil_iff.mpr h]
  rfl

theorem published_discovery (k : String) (st : DeviceState) (m : Bool) :
    published k (st.discovery m) = [] := by
  refine published_eq_nil fun x hx => ?_
  unfold DeviceState.discovery at hx
  split at hx
  · exact absurd hx List.not_mem_nil
  · rw [List.mem_singleton.mp hx]
    rfl

/-- What a call does to the register file and the known devices. -/
structure CallEffect (sm : StateManager) (c : Call) : Prop where
  current : (sm.call c).1.current = writes sm.current (sm.callWrites c)
  known : ∀ k, k ∈ (sm.call c).1.devices.keys ↔ k ∈ sm.devices.keys ∨ k ∈ sm.callNames c
  keyed : (sm.call c).1.Keyed
  setup : SameSetup sm (sm.call c).1

theorem Performs.callEffect {c : Call} {lead : List BridgeAction}
    (h : Performs sm (sm.callNames c) (sm.callWrites c) lead (sm.call c)) : CallEffect sm c :=
  ⟨h.current, h.known, h.keyed, h.session.toSameSetup⟩

theorem Notified.callEffect {c : Call} {m m' : Bool} (h : Notified sm (sm.call c).1 m m')
    (hk : sm.Keyed) (hw : sm.callWrites c = []) (hn : sm.callNames c = []) : CallEffect sm c :=
  ⟨by rw [h.current, hw]; rfl, fun k => by rw [h.keys, hn]; simp, h.keyed hk, h.toSameSetup⟩

theorem optimisticUpdate_callEffect (hk : sm.Keyed) (now : Timestamp) (a : String) (c : Command) :
    ∃ lead, (∀ k, published k lead = []) ∧
      Performs sm (sm.callNames (.optimisticUpdate now a c))
        (sm.callWrites (.optimisticUpdate now a c)) lead (sm.optimisticUpdate now a c) := by
  unfold callNames callWrites
  by_cases ha : sm.addressAllowed a = true
  · by_cases hc : c ∈ (sm.deviceConfig a).supportedCommands
    · refine ⟨_, fun k => ?_, by
        simpa only [ha, hc, and_self, if_true] using optimisticUpdate_performs hk now ha hc⟩
      rw [announcement, published_append, published_append, published_discovery]
      refine published_eq_nil fun x hx => ?_
      split at hx
      · rw [List.mem_singleton.mp hx]
        rfl
      · rw [List.mem_singleton.mp hx]
        rfl
    · refine ⟨[], fun k => rfl, ?_⟩
      simpa only [ha, hc, and_false, if_true, if_false] using
        optimisticUpdate_performs_nothing hk ha hc
  · refine ⟨[], fun k => rfl, ?_⟩
    simp only [ha, if_false, false_and, Bool.false_eq_true]
    rw [Bool.not_eq_true] at ha
    rw [optimisticUpdate_denied ha]
    exact .nothing hk

theorem published_applyLead (event : Option Event) (k : String) :
    published k (sm.applyLead event) = [] := by
  match event with
  | none => rfl
  | some (.device e) =>
    simp only [applyLead]
    split
    · rw [published_append, published_discovery]
      rfl
    · rfl
  | some (.house e) => rfl
  | some (.snapshot snap) => rfl
  | some (.unknown e) => rfl

theorem call_effect (hk : sm.Keyed) (c : Call) : CallEffect sm c := by
  cases c with
  | apply now event => exact (apply_performs hk now event).callEffect
  | optimisticUpdate now a c =>
    obtain ⟨lead, _, h⟩ := optimisticUpdate_callEffect hk now a c
    exact h.callEffect
  | mqttConnected => exact (onMqttConnected_notified sm).callEffect hk rfl rfl
  | mqttDisconnected => exact (onMqttDisconnected_notified sm).callEffect hk rfl rfl
  | mochadConnected => exact (onMochadConnected_notified sm).callEffect hk rfl rfl
  | mochadDisconnected => exact (onMochadDisconnected_notified sm).callEffect hk rfl rfl

/-! ### What a call publishes -/

theorem Performs.published {names : List String} {ws : List (String × Command)}
    {lead : List BridgeAction} {r : StateManager × List BridgeAction} {k : String}
    (h : Performs sm names ws lead r) (hl : published k lead = []) :
    StateManager.published k r.2 = valuesTo k (changes sm.current ws) := by
  rw [h.actions, published_append, hl, published_publications, List.nil_append]

/-- On `mqtt_connected` every state there is is published. -/
theorem published_onMqttConnected (hk : sm.Keyed) (k : String) :
    published k sm.onMqttConnected.2 = (sm.current k).toList := by
  have hstates : sm.onMqttConnected.2.filterMap statePublication =
      sm.onMqttConnected.1.devices.entries.flatMap fun e =>
        e.2.currentState.toList.map fun c => (e.2.address, c) := by
    rw [onMqttConnected_actions, Dict.values, List.filterMap_append, List.flatMap_map,
      List.filterMap_flatMap]
    refine (List.nil_append _).trans (List.flatMap_congr fun e _ => ?_)
    simp only [replayActions, List.filterMap_cons, statePublication, List.filterMap_map]
    show e.2.currentState.toList.filterMap (fun c => some (e.2.address, c)) = _
    rw [List.filterMap_eq_map']
  have hkeyed := (onMqttConnected_notified sm).keyed hk
  rw [published, hstates, valuesTo_flatMap_entries, ← (onMqttConnected_notified sm).current]
  · unfold current
    cases sm.onMqttConnected.1.devices.get? k with
    | none => rfl
    | some st => simp
  · intro e he w hw
    obtain ⟨c, _, rfl⟩ := List.mem_map.mp hw
    exact hkeyed _ _ (Dict.mem_entries.mp he)

theorem published_call (hk : sm.Keyed) (c : Call) (k : String) :
    published k (sm.call c).2 =
      match c with
      | .mqttConnected => (sm.current k).toList
      | _ => valuesTo k (changes sm.current (sm.callWrites c)) := by
  cases c with
  | apply now event => exact (apply_performs hk now event).published (published_applyLead event k)
  | optimisticUpdate now a c =>
    obtain ⟨lead, hl, h⟩ := optimisticUpdate_callEffect hk now a c
    exact h.published (hl k)
  | mqttConnected => exact published_onMqttConnected hk k
  | mqttDisconnected => rfl
  | mochadConnected => rfl
  | mochadDisconnected => rfl

/-! ### What a call writes to one device -/

/-- A device has a state: it is stateful and in an allowed house. -/
def HasState (sm : StateManager) (k : String) : Prop :=
  sm.addressAllowed k = true ∧ (sm.deviceConfig k).stateful = true

instance (sm : StateManager) (k : String) : Decidable (sm.HasState k) :=
  inferInstanceAs (Decidable (_ ∧ _))

@[simp] theorem addressAllowed_normalize (a : String) :
    sm.addressAllowed (normalize a) = sm.addressAllowed a := by
  simp only [addressAllowed, normalize_normalize]

/-- A call makes allowed addresses known only, in their normal form. -/
theorem of_mem_callNames {c : Call} {k : String} (hk : k ∈ sm.callNames c) :
    normalize k = k ∧ sm.addressAllowed k = true := by
  have hallowed : ∀ a, k ∈ (if sm.addressAllowed a then [normalize a] else []) →
      normalize k = k ∧ sm.addressAllowed k = true := by
    intro a hk
    split at hk
    · next ha =>
      rw [List.mem_singleton.mp hk]
      exact ⟨normalize_normalize a, (addressAllowed_normalize a).trans ha⟩
    · exact absurd hk List.not_mem_nil
  cases c with
  | apply now event =>
    cases event with
    | none => exact absurd hk List.not_mem_nil
    | some event =>
      cases event with
      | device e => exact hallowed e.address hk
      | house e => exact absurd hk List.not_mem_nil
      | snapshot snap =>
        obtain ⟨e, _, hk⟩ := List.mem_flatMap.mp hk
        exact hallowed e.1 hk
      | unknown e => exact absurd hk List.not_mem_nil
  | optimisticUpdate now a c => exact hallowed a hk
  | mqttConnected | mqttDisconnected | mochadConnected | mochadDisconnected =>
    exact absurd hk List.not_mem_nil

/-- The command a call applies to a device, as a state. -/
def appliedState (sm : StateManager) (k : String) (c : Call) : List Command :=
  ((applied (sm.deviceConfig k) sm.optimisticUpdates k (k ∈ sm.devices.keys) c).toList).map
    authoritativeState

theorem valuesTo_singleton (k k' : String) (c : Command) :
    valuesTo k [(k', c)] = if k' = k then [c] else [] := by
  rw [valuesTo_cons, valuesTo_nil]

theorem eventWrites_eq (e : DeviceEvent) :
    sm.eventWrites e =
      if (sm.deviceConfig e.address).stateful = true ∧ e.command ∈ stateCommands then
        [(normalize e.address, authoritativeState e.command)]
      else [] := by
  unfold eventWrites
  by_cases hs : sm.Stateless e
  · rw [if_pos hs, if_neg]
    rintro ⟨h, hc⟩
    exact hs.elim (fun h' => by simp [h] at h') (fun h' => h' hc)
  · simp only [Stateless, not_or, Bool.not_eq_false, not_not] at hs
    rw [if_neg (by simp [Stateless, hs.1, hs.2]), if_pos hs]

theorem valuesTo_deviceEvent (now : Timestamp) (e : DeviceEvent) (k : String) :
    valuesTo k (sm.callWrites (.apply now (some (.device e)))) =
      if sm.HasState k then sm.appliedState k (.apply now (some (.device e))) else [] := by
  simp only [callWrites, applyWrites, eventWrites_eq, appliedState, applied]
  by_cases hk : normalize e.address = k
  · subst hk
    simp only [HasState, addressAllowed_normalize, deviceConfig_normalize, true_and]
    cases sm.addressAllowed e.address with
    | false => simp
    | true =>
      cases (sm.deviceConfig e.address).stateful with
      | false => simp
      | true => by_cases hc : e.command ∈ stateCommands <;> simp [hc, valuesTo_singleton]
  · simp only [hk, false_and, if_false]
    split
    · split
      · simp [valuesTo_singleton, hk]
      · simp
    · simp

theorem valuesTo_command (now : Timestamp) (a : String) (c : Command) (k : String) :
    valuesTo k (sm.callWrites (.optimisticUpdate now a c)) =
      if sm.HasState k then sm.appliedState k (.optimisticUpdate now a c) else [] := by
  simp only [callWrites, commandWrites, appliedState, applied, HasState]
  by_cases hk : normalize a = k
  · subst hk
    simp only [addressAllowed_normalize, deviceConfig_normalize, true_and]
    cases ha : sm.addressAllowed a with
    | false => simp
    | true =>
      cases hs : (sm.deviceConfig a).stateful with
      | false => simp
      | true =>
        cases ho : sm.optimisticUpdates with
        | false => simp
        | true =>
          by_cases hc : c ∈ (sm.deviceConfig a).supportedCommands <;>
            simp [hc, valuesTo_singleton]
  · simp only [hk, false_and, and_false, if_false]
    split
    · split
      · simp [valuesTo_singleton, hk]
      · simp
    · simp

theorem addressAllowed_of_head {c : Char} {l : List Char} {k : String} (hn : normalize k = k)
    (hk : k.toList = c :: l) : sm.addressAllowed k = sm.houseAllowed (String.singleton c) := by
  simp only [addressAllowed, hn, hk]

theorem head_eq_of_startsWith {c : Char} {k : String} :
    startsWith k (String.singleton c) = true ↔ (String.singleton c).toList.head? = k.toList.head? := by
  rw [startsWith, String.toList_singleton]
  cases k.toList with
  | nil => simp
  | cons c' l => simp

theorem mem_houseCommands {d : DeviceConfig} {c : Command}
    (h : deviceRespondsToHouseCommand d c = true) : c ∈ houseCommands := by
  cases c <;> first | decide | cases h

theorem valuesTo_responding (hk : sm.Keyed) {c : Command} {house : String}
    (hnorm : normalize house = house) (k : String) :
    valuesTo k ((sm.devicesForHouse house).flatMap fun st =>
        if sm.responds c st.address then [(st.address, houseState c)] else []) =
      if startsWith k house ∧ k ∈ sm.devices.keys ∧ sm.responds c k then [houseState c]
      else [] := by
  have hfilter : sm.devicesForHouse house =
      (sm.devices.filterKeys fun k => startsWith k house).entries.map Prod.snd := by
    rw [devicesForHouse, hnorm]
    rfl
  rw [hfilter, List.flatMap_map, valuesTo_flatMap_entries, Dict.get?_filterKeys]
  · by_cases hs : startsWith k house = true
    · cases hget : sm.devices.get? k with
      | none => simp [hs, Dict.mem_keys, hget]
      | some st =>
        have haddr := hk k st hget
        by_cases hr : sm.responds c k = true <;> simp [hs, Dict.mem_keys, hget, hr, haddr]
    · simp [hs]
  · intro x hx w hw
    have haddr := hk _ _ (Dict.mem_entries.mp (List.mem_filter.mp hx).1)
    split at hw
    · rw [List.mem_singleton.mp hw, haddr]
    · exact absurd hw List.not_mem_nil

theorem valuesTo_houseEvent (hk : sm.Keyed) (now : Timestamp) (e : HouseEvent)
    (hp : (Call.apply now (some (.house e))).Parsed) {k : String} (hn : normalize k = k) :
    valuesTo k (sm.callWrites (.apply now (some (.house e)))) =
      if sm.HasState k then sm.appliedState k (.apply now (some (.house e))) else [] := by
  obtain ⟨c, hc, hhouse⟩ := hp
  have hnorm : normalize e.house = e.house := by rw [hhouse]; exact upper_strip_singleton hc
  have hhead : startsWith k e.house = true ↔ e.house.toList.head? = k.toList.head? := by
    rw [hhouse]
    exact head_eq_of_startsWith
  have hleft : valuesTo k (sm.callWrites (.apply now (some (.house e)))) =
      if sm.houseAllowed e.house ∧ startsWith k e.house ∧ k ∈ sm.devices.keys ∧
          sm.responds e.command k then [houseState e.command] else [] := by
    simp only [callWrites, applyWrites, houseWrites]
    by_cases hcond : sm.houseAllowed e.house = true ∧ e.command ∈ houseCommands
    · rw [if_pos hcond, valuesTo_responding hk hnorm]
      simp [hcond.1]
    · rw [if_neg hcond, valuesTo_nil, if_neg]
      rintro ⟨hallow, _, _, hresp⟩
      exact hcond ⟨hallow, mem_houseCommands ((Bool.and_eq_true _ _).mp hresp).2⟩
  have hright : sm.appliedState k (.apply now (some (.house e))) =
      if startsWith k e.house ∧ k ∈ sm.devices.keys ∧
          deviceRespondsToHouseCommand (sm.deviceConfig k) e.command then [houseState e.command]
      else [] := by
    simp only [appliedState, applied, decide_eq_true_eq, hhead]
    split
    · next h => rw [if_pos ⟨h.2.1, h.1, h.2.2⟩]; simp [authoritativeState_houseState]
    · next h => rw [if_neg fun h' => h ⟨h'.2.1, h'.1, h'.2.2⟩]; rfl
  rw [hleft, hright]
  by_cases hs : startsWith k e.house = true
  · -- the device is in the house of the event
    have hallow : sm.addressAllowed k = sm.houseAllowed e.house := by
      rw [hhead, hhouse, String.toList_singleton] at hs
      obtain ⟨l, hl⟩ := List.head?_eq_some_iff.mp hs.symm
      rw [addressAllowed_of_head hn hl, hhouse]
    simp only [HasState, hallow, responds, hs, Bool.and_eq_true, true_and]
    cases sm.houseAllowed e.house <;> cases (sm.deviceConfig k).stateful <;> simp
  · simp [hs]

theorem valuesTo_snapshot (now : Timestamp) (snap : StatusSnapshot) (hp : snap.Canonical)
    (k : String) :
    valuesTo k (sm.callWrites (.apply now (some (.snapshot snap)))) =
      if sm.HasState k then sm.appliedState k (.apply now (some (.snapshot snap))) else [] := by
  have hkey : ∀ e ∈ snap.devices.entries, normalize e.1 = e.1 := fun e he =>
    hp _ (List.mem_map_of_mem he)
  simp only [callWrites, applyWrites, appliedState, applied]
  rw [valuesTo_flatMap_entries]
  · cases hget : snap.devices.get? k with
    | none => simp
    | some c =>
      by_cases h : sm.HasState k
      · rw [if_pos h]
        simp only [entryWrites, if_pos (show _ ∧ _ from h), List.map_cons, List.map_nil,
          Option.toList_some]
      · rw [if_neg h]
        simp only [entryWrites, if_neg (show ¬ (_ ∧ _) from h), List.map_nil]
  · intro e he w hw
    unfold entryWrites at hw
    split at hw
    · rw [List.mem_singleton.mp hw, hkey e he]
    · exact absurd hw List.not_mem_nil

/-- What a call writes to a device is the command it applies. -/
theorem valuesTo_callWrites (hk : sm.Keyed) (c : Call) (hp : c.Parsed) {k : String}
    (hn : normalize k = k) :
    valuesTo k (sm.callWrites c) = if sm.HasState k then sm.appliedState k c else [] := by
  match c, hp with
  | .apply now none, _ => simp [callWrites, applyWrites, appliedState, applied]
  | .apply now (some (.device e)), _ => exact valuesTo_deviceEvent now e k
  | .apply now (some (.house e)), hp => exact valuesTo_houseEvent hk now e hp hn
  | .apply now (some (.snapshot snap)), hp => exact valuesTo_snapshot now snap hp k
  | .apply now (some (.unknown e)), _ => simp [callWrites, applyWrites, appliedState, applied]
  | .optimisticUpdate now a c, _ => exact valuesTo_command now a c k
  | .mqttConnected, _ => simp [callWrites, appliedState, applied]
  | .mqttDisconnected, _ => simp [callWrites, appliedState, applied]
  | .mochadConnected, _ => simp [callWrites, appliedState, applied]
  | .mochadDisconnected, _ => simp [callWrites, appliedState, applied]

theorem length_appliedState (k : String) (c : Call) : (sm.appliedState k c).length ≤ 1 := by
  rw [appliedState, List.length_map]
  cases applied (sm.deviceConfig k) sm.optimisticUpdates k (k ∈ sm.devices.keys) c <;> simp

theorem current_call (hk : sm.Keyed) (c : Call) (hp : c.Parsed) {k : String}
    (hn : normalize k = k) :
    (sm.call c).1.current k =
      if sm.HasState k then ((sm.appliedState k c).getLast?).or (sm.current k)
      else sm.current k := by
  rw [(call_effect hk c).current, writes_apply, valuesTo_callWrites hk c hp hn]
  split <;> rfl

/-- A call publishes the state of a device exactly if it changes it. -/
theorem published_changed (hk : sm.Keyed) (c : Call) (hp : c.Parsed) {k : String}
    (hn : normalize k = k) :
    valuesTo k (changes sm.current (sm.callWrites c)) =
      if (sm.call c).1.current k = sm.current k then [] else ((sm.call c).1.current k).toList := by
  rw [(call_effect hk c).current]
  refine valuesTo_changes_of_single ?_
  rw [valuesTo_callWrites hk c hp hn]
  split
  · exact length_appliedState k c
  · exact Nat.zero_le _

/-- A device of an allowed house is known after a call that mentions it. -/
theorem known_call (hk : sm.Keyed) (c : Call) (hp : c.Parsed) {k : String}
    (hn : normalize k = k) (ha : sm.addressAllowed k = true) :
    decide (k ∈ (sm.call c).1.devices.keys) = (decide (k ∈ sm.devices.keys) || mentions k c) := by
  have hnames : k ∈ sm.callNames c ↔ mentions k c = true := by
    match c, hp with
    | .apply now (some (.device e)), _ =>
      simp only [callNames, eventNames, mentions, decide_eq_true_eq]
      split
      · simp [eq_comm]
      · next hna =>
        refine iff_of_false List.not_mem_nil ?_
        rintro rfl
        exact hna (by rw [← addressAllowed_normalize]; exact ha)
    | .apply now (some (.snapshot snap)), hp =>
      simp only [callNames, eventNames, mentions, decide_eq_true_eq, List.mem_flatMap, entryNames]
      constructor
      · rintro ⟨e, he, hmem⟩
        have hke : e.1 ∈ snap.devices.keys := List.mem_map_of_mem he
        split at hmem
        · rw [List.mem_singleton.mp hmem, hp _ hke]
          exact hke
        · exact absurd hmem List.not_mem_nil
      · intro hmem
        obtain ⟨e, he, rfl⟩ := List.mem_map.mp hmem
        exact ⟨e, he, by rw [if_pos ha, hn]; exact List.mem_singleton_self _⟩
    | .optimisticUpdate now a c, _ =>
      simp only [callNames, mentions, decide_eq_true_eq]
      split
      · simp [eq_comm]
      · next hna =>
        refine iff_of_false List.not_mem_nil ?_
        rintro rfl
        exact hna (by rw [← addressAllowed_normalize]; exact ha)
    | .apply now none, _ | .apply now (some (.house e)), _ | .apply now (some (.unknown e)), _ =>
      simp [callNames, eventNames, mentions]
    | .mqttConnected, _ | .mqttDisconnected, _ | .mochadConnected, _ | .mochadDisconnected, _ =>
      simp [callNames, mentions]
  rw [Bool.eq_iff_iff, Bool.or_eq_true, decide_eq_true_eq, decide_eq_true_eq,
    (call_effect hk c).known, hnames]

/-! ## Runs -/

theorem run_keyed (hk : sm.Keyed) (calls : List Call) :
    (sm.run calls).Keyed ∧ SameSetup sm (sm.run calls) := by
  induction calls generalizing sm with
  | nil => exact ⟨hk, .refl sm⟩
  | cons c calls ih =>
    have h := call_effect hk c
    obtain ⟨hk', hs'⟩ := ih h.keyed
    exact ⟨hk', h.setup.trans hs'⟩

theorem SameSetup.hasState {sm' : StateManager} (h : SameSetup sm sm') (k : String) :
    sm'.HasState k ↔ sm.HasState k := by
  simp only [HasState, h.addressAllowed, h.deviceConfig]

/-- A device without state keeps the value it has. -/
theorem current_run_stateless (hk : sm.Keyed) (calls : List Call) (hp : ∀ c ∈ calls, c.Parsed)
    {k : String} (hn : normalize k = k) (hs : ¬ sm.HasState k) :
    (sm.run calls).current k = sm.current k := by
  induction calls generalizing sm with
  | nil => rfl
  | cons c calls ih =>
    have h := call_effect hk c
    have hcall := current_call hk c (hp c List.mem_cons_self) hn
    rw [if_neg hs] at hcall
    rw [← hcall]
    exact ih h.keyed (fun c' hc' => hp c' (List.mem_cons_of_mem _ hc'))
      (fun hs' => hs ((h.setup.hasState k).mp hs'))

/-- A device with state has the last command applied to it. -/
theorem current_run (hk : sm.Keyed) (calls : List Call) (hp : ∀ c ∈ calls, c.Parsed)
    {k : String} (hn : normalize k = k) (hs : sm.HasState k) :
    (sm.run calls).current k =
      (((appliedCommands (sm.deviceConfig k) sm.optimisticUpdates k (k ∈ sm.devices.keys)
        calls).getLast?).map authoritativeState).or (sm.current k) := by
  induction calls generalizing sm with
  | nil => rfl
  | cons c calls ih =>
    have h := call_effect hk c
    have hcall := current_call hk c (hp c List.mem_cons_self) hn
    rw [if_pos hs] at hcall
    have hrest := ih h.keyed (fun c' hc' => hp c' (List.mem_cons_of_mem _ hc'))
      ((h.setup.hasState k).mpr hs)
    rw [h.setup.deviceConfig, h.setup.optimistic,
      known_call hk c (hp c List.mem_cons_self) hn hs.1, hcall] at hrest
    rw [appliedCommands, List.getLast?_append, appliedState, List.getLast?_map] at *
    refine hrest.trans ?_
    cases (appliedCommands (sm.deviceConfig k) sm.optimisticUpdates k
      (decide (k ∈ sm.devices.keys) || mentions k c) calls).getLast? with
    | none => simp
    | some c' => simp

end StateManager

/-- A lamp that is switched on, turned off by a house command and reported on. -/
def lampCalls : List Call :=
  [.apply 1 (some (.device ⟨1, .rx, .rf, .bright, "A1"⟩)),
    .mqttConnected,
    .apply 2 (some (.house ⟨2, .rx, .rf, .allUnitsOff, "A"⟩)),
    .apply 3 (some (.snapshot { devices := .ofPairs [("A1", .on)] }))]

theorem lampCalls_parsed : ∀ c ∈ lampCalls, c.Parsed := by
  intro c hc
  simp only [lampCalls, List.mem_cons, List.not_mem_nil, or_false] at hc
  rcases hc with rfl | rfl | rfl | rfl
  · trivial
  · trivial
  · exact ⟨'A', by decide, rfl⟩
  · intro k hk
    rw [show k = "A1" by simpa [Dict.keys, Dict.ofPairs, Dict.insert, Dict.set, Dict.empty] using hk]
    decide

end MochadBridge
