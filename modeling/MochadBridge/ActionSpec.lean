import MochadBridge.LastWriterWins
import MochadBridge.Protocol

/-!
# What the actions of a call are about

The bridge calls the state manager with parsed events and with commands that can
be encoded (`Call.FromBridge`). The actions it gets back are about devices the
manager knows (`Concerns`).

Results:
1. `call_concerns`: so it is for every call.
2. `sends_of_call`: a device command is sent only by the manager accepting it.
3. `callNames_isAddress`, `call_normalKeys`: the devices a call makes known have
   canonical addresses.
-/

namespace MochadBridge

open Py

/-- What a call carries when the bridge makes it: an event of the parser, or a
command that can be encoded. -/
def Call.FromBridge : Call → Prop
  | .apply _ (some e) => e.Parsed
  | .optimisticUpdate _ a c => Protocol.Sendable a c
  | _ => True

namespace StateManager

variable {sm : StateManager}

/-- Every key is a normalized address. -/
def NormalKeys (sm : StateManager) : Prop :=
  ∀ k ∈ sm.devices.keys, matchesAddress isHouseIgnoringCase k.toList = true ∧ normalize k = k

/-- An action is about known devices, and a command that can be sent. -/
def Concerns (sm : StateManager) : BridgeAction → Prop
  | .publishState a _ _ | .publishCommandEvent a _ _ | .publishAttributes a _ _
  | .publishDiscovery a => a ∈ sm.devices.keys
  | .publishEvent e => e.address ∈ sm.devices.keys
  | .sendDeviceCommand a c => a ∈ sm.devices.keys ∧ Protocol.Sendable a c
  | .sendMochadCommand command => command ∈ ["hello", "capabilities", "health"]
  | _ => True

theorem normalize_of_isAddress {a : String} (h : IsAddress a) : normalize a = a := h.upper_strip

/-! ## Why a call returns an action -/

/-- Why a call returns an action. -/
inductive Yields (sm : StateManager) : Call → BridgeAction → Prop
  | change {c : Call} {w : String × Command} :
      w ∈ sm.callWrites c → Yields sm c (.publishState w.1 w.2 true)
  | discovery {c : Call} {a : String} :
      a ∈ sm.callNames c → mentions a c = true → Yields sm c (.publishDiscovery a)
  | event {now : Timestamp} {e : DeviceEvent} : sm.addressAllowed e.address = true →
      Yields sm (.apply now (some (.device e))) (.publishEvent e)
  | unknown {c : Call} {e : UnknownEvent} : Yields sm c (.logUnknownEvent e)
  | send {now : Timestamp} {a : String} {c : Command} : sm.addressAllowed a = true →
      c ∈ (sm.deviceConfig a).supportedCommands →
      Yields sm (.optimisticUpdate now a c) (.sendDeviceCommand (normalize a) c)
  | attributes {now : Timestamp} {a : String} {c : Command} {payload : Json} :
      sm.addressAllowed a = true → (sm.deviceConfig a).stateful = true →
      Yields sm (.optimisticUpdate now a c) (.publishAttributes (normalize a) payload true)
  | commandEvent {now : Timestamp} {a : String} {c : Command} {payload : Json} :
      sm.addressAllowed a = true → (sm.deviceConfig a).stateful = false →
      Yields sm (.optimisticUpdate now a c) (.publishCommandEvent (normalize a) payload false)
  | replay {st : DeviceState} {x : BridgeAction} : st ∈ sm.onMqttConnected.1.devices.values →
      x ∈ replayActions st → Yields sm .mqttConnected x
  | status {c : Call} {sm' : StateManager} {x : BridgeAction} :
      x ∈ sm'.bridgeStatusActions → Yields sm c x
  | request : Yields sm .mochadConnected .requestStatus

/-- The state changes of a call and what it leads with. -/
theorem Performs.yields {c : Call} {lead : List BridgeAction}
    (h : Performs sm (sm.callNames c) (sm.callWrites c) lead (sm.call c))
    (hlead : ∀ x ∈ lead, sm.Yields c x) : ∀ x ∈ (sm.call c).2, sm.Yields c x := by
  intro x hx
  rw [h.actions] at hx
  rcases List.mem_append.mp hx with hx | hx
  · exact hlead x hx
  · obtain ⟨w, hw, rfl⟩ := List.mem_map.mp hx
    exact .change (Register.mem_of_mem_changes hw)

theorem eq_of_discovery {st : DeviceState} {m : Bool} {x : BridgeAction}
    (h : x ∈ st.discovery m) : x = .publishDiscovery st.address := by
  unfold DeviceState.discovery at h
  split at h
  · exact absurd h List.not_mem_nil
  · exact List.mem_singleton.mp h

theorem yields_applyLead (hk : sm.Keyed) (now : Timestamp) (event : Option Event) :
    ∀ x ∈ sm.applyLead event, sm.Yields (.apply now event) x := by
  intro x hx
  cases event with
  | none => exact absurd hx List.not_mem_nil
  | some event =>
    cases event with
    | device e =>
      simp only [applyLead] at hx
      split at hx
      · next ha =>
        rcases List.mem_append.mp hx with hx | hx
        · rw [eq_of_discovery hx, stateOf_address hk]
          refine .discovery ?_ (by rw [mentions, decide_eq_true_eq])
          rw [callNames, eventNames, if_pos ha]
          exact List.mem_singleton_self _
        · rw [List.mem_singleton.mp hx]
          exact .event ha
      · exact absurd hx List.not_mem_nil
    | house e => exact absurd hx List.not_mem_nil
    | snapshot snap => exact absurd hx List.not_mem_nil
    | unknown e =>
      rw [List.mem_singleton.mp hx]
      exact .unknown

theorem yields_announcement (hk : sm.Keyed) (now : Timestamp) {a : String} {c : Command}
    (ha : sm.addressAllowed a = true) (hc : c ∈ (sm.deviceConfig a).supportedCommands) :
    ∀ x ∈ sm.announcement now a c, sm.Yields (.optimisticUpdate now a c) x := by
  intro x hx
  rw [announcement] at hx
  rcases List.mem_append.mp hx with hx | hx
  · rcases List.mem_append.mp hx with hx | hx
    · rw [eq_of_discovery hx, stateOf_address hk]
      refine .discovery ?_ (by rw [mentions, decide_eq_true_eq])
      rw [callNames, if_pos ha]
      exact List.mem_singleton_self _
    · rw [List.mem_singleton.mp hx]
      exact .send ha hc
  · split at hx
    · next hs =>
      rw [List.mem_singleton.mp hx]
      exact .attributes ha hs
    · next hs =>
      rw [List.mem_singleton.mp hx]
      exact .commandEvent ha (by simpa using hs)

theorem yields_optimisticUpdate (hk : sm.Keyed) (now : Timestamp) (a : String) (c : Command) :
    ∀ x ∈ (sm.call (.optimisticUpdate now a c)).2, sm.Yields (.optimisticUpdate now a c) x := by
  by_cases ha : sm.addressAllowed a = true
  · by_cases hc : c ∈ (sm.deviceConfig a).supportedCommands
    · refine Performs.yields ?_ (yields_announcement hk now ha hc)
      rw [callNames, callWrites, if_pos ha, if_pos ⟨ha, hc⟩]
      exact optimisticUpdate_performs hk now ha hc
    · rw [call, (optimisticUpdate_unsupported hk _ ha hc).actions]
      exact fun x hx => absurd hx List.not_mem_nil
  · rw [call, optimisticUpdate_denied (Bool.eq_false_iff.mpr ha)]
    exact fun x hx => absurd hx List.not_mem_nil

/-- Every action of a call is there for a reason. -/
theorem call_yields (hk : sm.Keyed) (c : Call) : ∀ x ∈ (sm.call c).2, sm.Yields c x := by
  cases c with
  | apply now event => exact (apply_performs hk now event).yields (yields_applyLead hk now event)
  | optimisticUpdate now a c => exact yields_optimisticUpdate hk now a c
  | mqttConnected =>
    intro x hx
    rcases List.mem_append.mp hx with hx | hx
    · exact .status hx
    · obtain ⟨st, hst, hx⟩ := List.mem_flatMap.mp hx
      exact .replay hst hx
  | mqttDisconnected => exact fun x => .status
  | mochadDisconnected => exact fun x => .status
  | mochadConnected =>
    intro x hx
    rcases List.mem_append.mp hx with hx | hx
    · exact .status hx
    · rw [List.mem_singleton.mp hx]
      exact .request

/-- A device that is announced when MQTT connects is known. -/
theorem replay_known (hk : sm.Keyed) {st : DeviceState}
    (hst : st ∈ sm.onMqttConnected.1.devices.values) : st.address ∈ sm.devices.keys := by
  have hn := onMqttConnected_notified sm
  obtain ⟨k, hget⟩ := Dict.mem_values.mp hst
  rw [hn.keyed hk k st hget, ← hn.keys]
  refine Dict.mem_keys.mpr ?_
  rw [hget]
  exact Option.some_ne_none _

/-- A replay is about one device. -/
theorem replay_address {st : DeviceState} {x : BridgeAction} (hx : x ∈ replayActions st) :
    x = .publishDiscovery st.address ∨
      ∃ c, st.currentState = some c ∧ x = .publishState st.address c true := by
  rcases List.mem_cons.mp hx with rfl | hx
  · exact .inl rfl
  · obtain ⟨c, hc, rfl⟩ := List.mem_map.mp hx
    exact .inr ⟨c, Option.mem_toList.mp hc, rfl⟩

/-- Only a command that the manager accepts makes the bridge send one. -/
theorem sends_of_call (hk : sm.Keyed) {call : Call} {a : String} {c : Command}
    (h : .sendDeviceCommand a c ∈ (sm.call call).2) :
    ∃ now a', call = .optimisticUpdate now a' c ∧ normalize a' = a ∧
      sm.addressAllowed a' = true ∧ c ∈ (sm.deviceConfig a').supportedCommands := by
  generalize hx : BridgeAction.sendDeviceCommand a c = x at h
  cases call_yields hk call x h with
  | send ha hc =>
    obtain ⟨rfl, rfl⟩ := BridgeAction.sendDeviceCommand.inj hx
    exact ⟨_, _, rfl, rfl, ha, hc⟩
  | replay _ hmem =>
    rcases replay_address hmem with rfl | ⟨_, _, rfl⟩ <;> exact BridgeAction.noConfusion hx
  | status hmem => rcases List.mem_pair.mp hmem with rfl | rfl <;> exact BridgeAction.noConfusion hx
  | _ => exact BridgeAction.noConfusion hx

/-- Discovery is published for a device that the call is about, and for every
known device when MQTT connects. -/
theorem discovery_of_call (hk : sm.Keyed) {c : Call} {a : String}
    (h : .publishDiscovery a ∈ (sm.call c).2) :
    mentions a c = true ∨ (c = .mqttConnected ∧ a ∈ sm.devices.keys) := by
  generalize hx : BridgeAction.publishDiscovery a = x at h
  cases call_yields hk c x h with
  | discovery _ hm =>
    rw [BridgeAction.publishDiscovery.inj hx]
    exact .inl hm
  | replay hst hmem =>
    rcases replay_address hmem with rfl | ⟨_, _, rfl⟩
    · rw [BridgeAction.publishDiscovery.inj hx]
      exact .inr ⟨rfl, replay_known hk hst⟩
    · exact BridgeAction.noConfusion hx
  | status hmem => rcases List.mem_pair.mp hmem with rfl | rfl <;> exact BridgeAction.noConfusion hx
  | _ => exact BridgeAction.noConfusion hx

/-! ## What the actions of a call are about -/

/-- The devices an event writes to are known after it. -/
theorem applyWrites_known (hk : sm.Keyed) {event : Option Event} {w : String × Command}
    (hw : w ∈ sm.applyWrites event) : w.1 ∈ sm.devices.keys ∨ w.1 ∈ sm.eventNames event := by
  cases event with
  | none => exact absurd hw List.not_mem_nil
  | some event =>
    cases event with
    | device e =>
      simp only [applyWrites, eventNames] at hw ⊢
      split at hw
      · next ha =>
        unfold eventWrites at hw
        split at hw
        · exact absurd hw List.not_mem_nil
        · rw [List.mem_singleton.mp hw, if_pos ha]
          exact .inr (List.mem_singleton_self _)
      · exact absurd hw List.not_mem_nil
    | house e =>
      simp only [applyWrites, houseWrites] at hw
      split at hw
      · obtain ⟨st, hst, hw⟩ := List.mem_flatMap.mp hw
        split at hw
        · rw [List.mem_singleton.mp hw]
          obtain ⟨e', he', rfl⟩ := List.mem_map.mp hst
          have hget := Dict.mem_entries.mp (List.mem_filter.mp he').1
          refine .inl (Dict.mem_keys.mpr ?_)
          rw [hk _ _ hget, hget]
          exact Option.some_ne_none _
        · exact absurd hw List.not_mem_nil
      · exact absurd hw List.not_mem_nil
    | snapshot snap =>
      simp only [applyWrites, eventNames] at hw ⊢
      obtain ⟨e, he, hw⟩ := List.mem_flatMap.mp hw
      refine .inr (List.mem_flatMap.mpr ⟨e, he, ?_⟩)
      unfold entryWrites at hw
      split at hw
      · next h =>
        rw [List.mem_singleton.mp hw, entryNames, if_pos h.1]
        exact List.mem_singleton_self _
      · exact absurd hw List.not_mem_nil
    | unknown e => exact absurd hw List.not_mem_nil

theorem commandWrites_known {a : String} {c : Command} {w : String × Command}
    (hw : w ∈ sm.commandWrites a c) : w.1 ∈ sm.devices.keys ∨ w.1 ∈ [normalize a] := by
  unfold commandWrites at hw
  split at hw
  · rw [List.mem_singleton.mp hw]
    exact .inr (List.mem_singleton_self _)
  · exact absurd hw List.not_mem_nil

theorem callWrites_known (hk : sm.Keyed) {c : Call} {w : String × Command}
    (hw : w ∈ sm.callWrites c) : w.1 ∈ (sm.call c).1.devices.keys := by
  rw [(call_effect hk c).known]
  cases c with
  | apply now event => exact applyWrites_known hk hw
  | optimisticUpdate now a c =>
    simp only [callWrites] at hw
    split at hw
    · next h =>
      rw [callNames, if_pos h.1]
      exact commandWrites_known hw
    · exact absurd hw List.not_mem_nil
  | mqttConnected | mqttDisconnected | mochadConnected | mochadDisconnected =>
    exact absurd hw List.not_mem_nil

/-- The actions of a call concern devices that are known after it. -/
theorem call_concerns (hk : sm.Keyed) {c : Call} (hc : c.FromBridge) :
    ∀ x ∈ (sm.call c).2, (sm.call c).1.Concerns x := by
  intro x hx
  have hnames : ∀ k ∈ sm.callNames c, k ∈ (sm.call c).1.devices.keys := fun k hmem =>
    ((call_effect hk c).known k).mpr (.inr hmem)
  cases call_yields hk c x hx with
  | change hw => exact callWrites_known hk hw
  | discovery hmem => exact hnames _ hmem
  | event ha =>
    refine hnames _ ?_
    rw [callNames, eventNames, if_pos ha, List.mem_singleton, normalize_of_isAddress hc]
  | unknown => trivial
  | send ha => exact ⟨hnames _ (by simp [callNames, ha]), by rwa [normalize_of_isAddress hc.1]⟩
  | attributes ha | commandEvent ha => exact hnames _ (by simp [callNames, ha])
  | replay hst hmem =>
    have hknown : _ ∈ (sm.call .mqttConnected).1.devices.keys :=
      ((call_effect hk _).known _).mpr (.inl (replay_known hk hst))
    rcases replay_address hmem with rfl | ⟨_, _, rfl⟩ <;> exact hknown
  | status hx => rcases List.mem_pair.mp hx with rfl | rfl <;> trivial
  | request => trivial

/-- The names an event of the parser or an MQTT command brings are addresses. -/
theorem callNames_isAddress {c : Call} (hc : c.FromBridge) {k : String}
    (hmem : k ∈ sm.callNames c) : IsAddress k := by
  cases c with
  | apply now event =>
    cases event with
    | none => exact absurd hmem List.not_mem_nil
    | some event =>
      cases event with
      | device e =>
        simp only [callNames, eventNames] at hmem
        split at hmem
        · rw [List.mem_singleton.mp hmem, normalize_of_isAddress (a := e.address) hc]
          exact hc
        · exact absurd hmem List.not_mem_nil
      | snapshot snap =>
        simp only [callNames, eventNames] at hmem
        obtain ⟨e, he, hmem⟩ := List.mem_flatMap.mp hmem
        have hcan := hc.address (List.mem_map_of_mem he)
        unfold entryNames at hmem
        split at hmem
        · rw [List.mem_singleton.mp hmem, normalize_of_isAddress hcan]
          exact hcan
        · exact absurd hmem List.not_mem_nil
      | house e => exact absurd hmem List.not_mem_nil
      | unknown e => exact absurd hmem List.not_mem_nil
  | optimisticUpdate now a c =>
    simp only [callNames] at hmem
    split at hmem
    · rw [List.mem_singleton.mp hmem, normalize_of_isAddress hc.1]
      exact hc.1
    · exact absurd hmem List.not_mem_nil
  | mqttConnected | mqttDisconnected | mochadConnected | mochadDisconnected =>
    exact absurd hmem List.not_mem_nil

/-- A call keeps the keys normalized. -/
theorem call_normalKeys (hk : sm.Keyed) (hn : sm.NormalKeys) {c : Call} (hc : c.FromBridge) :
    (sm.call c).1.NormalKeys := by
  intro k hmem
  rcases ((call_effect hk c).known k).mp hmem with hmem | hmem
  · exact hn k hmem
  · have ha := callNames_isAddress hc hmem
    exact ⟨Protocol.matchesAddress_mono (fun c _ h => by rw [isHouseIgnoringCase, h]; rfl) ha,
      normalize_of_isAddress ha⟩

end StateManager

end MochadBridge
