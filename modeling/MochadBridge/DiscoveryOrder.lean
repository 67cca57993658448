import MochadBridge.DeviceHistory
import MochadBridge.Lib.Run

/-!
# Discovery before data

While MQTT is connected, a device is announced before anything else is published
about it. Device events and commands announce their device themselves;
`mqtt_connected` announces all of them. House events and status snapshots
announce nothing, so they have to find their devices announced.

Results:
1. `announcedFirst_of_reaches`: discovery precedes data in every run whose house
   events and snapshots find their devices discovered.
2. `snapshot_unannounced`: a snapshot that creates a device publishes its state
   without announcing it.
-/

namespace MochadBridge

open Py Effect Run StateManager

/-! ## The order of actions -/

/-- The device that an action publishes data about. -/
def BridgeAction.dataAddress : BridgeAction → Option String
  | .publishState a _ _ | .publishCommandEvent a _ _ | .publishAttributes a _ _ => some a
  | .publishEvent e => some e.address
  | _ => none

/-- The device is announced in the list. -/
def Announced (log : List BridgeAction) (a : String) : Prop :=
  ∃ b, .publishDiscovery b ∈ log ∧ normalize b = normalize a

/-- Every data action comes after an announcement of its device. -/
def AnnouncedFirst (log : List BridgeAction) : Prop :=
  ∀ pre x post a, log = pre ++ x :: post → x.dataAddress = some a → Announced pre a

section Order
variable {log log' : List BridgeAction} {a : String}

theorem Announced.append_left (h : Announced log a) (log' : List BridgeAction) :
    Announced (log ++ log') a := by
  obtain ⟨b, hb, hn⟩ := h
  exact ⟨b, List.mem_append_left _ hb, hn⟩

theorem Announced.of_mem {b : String} (h : .publishDiscovery b ∈ log)
    (hn : normalize b = normalize a) : Announced log a := ⟨b, h, hn⟩

/-- Lists without data are in order. -/
theorem announcedFirst_of_forall (h : ∀ x ∈ log, x.dataAddress = none) : AnnouncedFirst log := by
  rintro pre x post a rfl hx
  rw [h x (by simp)] at hx
  cases hx

/-- An order goes on with a list whose data is announced before it, or in it. -/
theorem AnnouncedFirst.append (h : AnnouncedFirst log)
    (h' : ∀ pre x post a, log' = pre ++ x :: post → x.dataAddress = some a →
      Announced (log ++ pre) a) : AnnouncedFirst (log ++ log') := by
  intro pre x post a heq hx
  rcases List.append_eq_append_iff.mp heq with ⟨mid, rfl, hmid⟩ | ⟨mid, rfl, hmid⟩
  · exact h' mid x post a hmid hx
  · cases mid with
    | nil =>
      have := h' [] x post a (by simpa using hmid.symm) hx
      simpa using this
    | cons y mid =>
      obtain ⟨rfl, _⟩ := List.cons.inj hmid
      exact h pre x mid a rfl hx

/-- Data about announced devices may follow. -/
theorem AnnouncedFirst.append_of_announced (h : AnnouncedFirst log)
    (h' : ∀ x ∈ log', ∀ a, x.dataAddress = some a → Announced log a) :
    AnnouncedFirst (log ++ log') := by
  refine h.append fun pre x post a heq hx => ?_
  exact (h' x (by rw [heq]; simp) a hx).append_left pre

end Order

/-! ## Connections -/

/-- The state manager, with the actions returned by the calls made while MQTT
was connected, since the last `mqtt_connected`. -/
structure Session where
  manager : StateManager
  log : List BridgeAction := []

/-- The call starts a connection. -/
def Call.connects : Call → Bool
  | .mqttConnected => true
  | _ => false

def Session.step (s : Session) (c : Call) : Session where
  manager := (s.manager.call c).1
  log :=
    if c.connects then (s.manager.call c).2
    else if s.manager.mqttConnected then s.log ++ (s.manager.call c).2
    else s.log

namespace StateManager

variable {sm : StateManager}

/-- The event sets the state of a device that was not discovered, and does not
announce it. -/
def Surprises (sm : StateManager) : Option Event → Prop
  | some (.house e) => sm.houseAllowed e.house = true ∧ e.command ∈ houseCommands ∧
      ∃ st ∈ sm.devicesForHouse e.house,
        sm.responds e.command st.address = true ∧ st.discovered = false
  | some (.snapshot snap) => ∃ entry ∈ snap.devices.entries,
      sm.addressAllowed entry.1 = true ∧ (sm.deviceConfig entry.1).stateful = true ∧
        (sm.stateOf entry.1).discovered = false
  | _ => False

/-- The call is one of the two kinds of events that may surprise, and does. -/
def Bypasses (sm : StateManager) : Call → Prop
  | .apply _ event => sm.mqttConnected = true ∧ sm.Surprises event
  | _ => False

/-! ## One call -/

/-- A device that is not announced by a call was discovered before it. -/
theorem discovery_or (st : DeviceState) {m : Bool} (hm : m = true) :
    st.discovered = true ∨ .publishDiscovery st.address ∈ st.discovery m := by
  cases hd : st.discovered with
  | true => exact .inl rfl
  | false =>
    refine .inr ?_
    rw [DeviceState.discovery, if_neg (by simp [hm, hd])]
    exact List.mem_singleton_self _

/-- A list that starts by discovering a device and is about this device only. -/
theorem announcedFirst_discovery {log rest : List BridgeAction} {st : DeviceState} {m : Bool}
    (h : AnnouncedFirst log) (hm : m = true)
    (hlog : st.discovered = true → Announced log st.address)
    (hrest : ∀ x ∈ rest, ∀ a, x.dataAddress = some a → normalize a = normalize st.address) :
    AnnouncedFirst (log ++ (st.discovery m ++ rest)) := by
  rw [← List.append_assoc]
  refine AnnouncedFirst.append_of_announced (h.append_of_announced fun x hx a ha => ?_)
    fun x hx a ha => ?_
  · unfold DeviceState.discovery at hx
    split at hx
    · exact absurd hx List.not_mem_nil
    · rw [List.mem_singleton.mp hx] at ha
      cases ha
  · have hn := hrest x hx a ha
    rcases discovery_or st hm with hd | hd
    · obtain ⟨b, hb, hbn⟩ := hlog hd
      exact ⟨b, List.mem_append_left _ hb, hbn.trans hn.symm⟩
    · exact .of_mem (List.mem_append_right _ hd) hn.symm

/-- The publications of writes are about the devices written to. -/
theorem dataAddress_publications {ws : List (String × Command)} {x : BridgeAction} {a : String}
    (hx : x ∈ publications (Register.changes sm.current ws)) (ha : x.dataAddress = some a) :
    ∃ w ∈ ws, w.1 = a := by
  obtain ⟨w, hw, rfl⟩ := List.mem_map.mp hx
  exact ⟨w, Register.mem_of_mem_changes hw, Option.some.inj ha⟩

theorem Touched.stateAt {k : String} {st : DeviceState} {actions : List BridgeAction}
    {r : StateManager × List BridgeAction} (h : Touched sm k st actions r) (k' : String) :
    r.1.stateAt k' = if k = k' then st else sm.stateAt k' := by
  unfold StateManager.stateAt
  rw [h.devices, Dict.get?_insert]
  split <;> rfl

/-- A call about one device, which it announces if it has to. -/
theorem Touched.announces {a : String} {st : DeviceState} {log rest : List BridgeAction}
    {r : StateManager × List BridgeAction} (hk : sm.Keyed)
    (h : Touched sm (normalize a) st ((sm.stateOf a).discovery sm.mqttConnected ++ rest) r)
    (hm : sm.mqttConnected = true) (hlog : AnnouncedFirst log)
    (hknown : ∀ k, (sm.stateAt k).discovered = true → Announced log k)
    (hrest : ∀ x ∈ rest, ∀ b, x.dataAddress = some b → normalize b = normalize a) :
    AnnouncedFirst (log ++ r.2) ∧
      ∀ k, (r.1.stateAt k).discovered = true → Announced (log ++ r.2) k := by
  have haddr := stateOf_address hk a
  rw [h.actions]
  refine ⟨announcedFirst_discovery hlog hm (fun hd => ?_) fun x hx b hb => ?_, fun k hd => ?_⟩
  · rw [haddr]
    exact hknown (normalize a) hd
  · rw [haddr, normalize_normalize]
    exact hrest x hx b hb
  · rw [h.stateAt] at hd
    split at hd
    · next he =>
      subst he
      rcases discovery_or (sm.stateOf a) hm with hd | hd
      · exact (hknown (normalize a) hd).append_left _
      · exact .of_mem (List.mem_append_right _ (List.mem_append_left _ hd)) (by rw [haddr])
    · exact (hknown k hd).append_left _

/-- Touches other than a discovery leave the flag alone. -/
theorem discovered_of_path {d : DeviceConfig} {K : Touch → Prop} (hK : ¬ K .discover)
    {st st' : DeviceState} (h : Path (deviceSystem d) K st st') : st'.discovered = st.discovered := by
  refine h.frame DeviceState.discovered fun l st hl _ => ?_
  cases l with
  | discover => exact absurd hl hK
  | take c t b => exact DeviceState.take_discovered st c t b
  | seen | pend | lose => rfl

/-- A call that announces nothing keeps what is announced. -/
theorem announced_of_touches {c : Call} {log actions : List BridgeAction} (hk : sm.Keyed)
    (hK : ¬ c.touches .discover)
    (hknown : ∀ k, (sm.stateAt k).discovered = true → Announced log k) :
    ∀ k, ((sm.call c).1.stateAt k).discovered = true → Announced (log ++ actions) k := by
  intro k hd
  rw [discovered_of_path hK ((call_touches hk c).device k)] at hd
  exact (hknown k hd).append_left _

/-- The writes of an event that surprises nobody are to announced devices. -/
theorem announced_applyWrites (hk : sm.Keyed) {event : Option Event} {log : List BridgeAction}
    (hs : ¬ sm.Surprises event) (hknown : ∀ k, (sm.stateAt k).discovered = true → Announced log k)
    (hdev : ∀ e, event ≠ some (.device e)) {w : String × Command}
    (hw : w ∈ sm.applyWrites event) : Announced log w.1 := by
  cases event with
  | none => exact absurd hw List.not_mem_nil
  | some event =>
    cases event with
    | device e => exact absurd rfl (hdev e)
    | house e =>
      simp only [applyWrites, houseWrites] at hw
      split at hw
      · next hh =>
        obtain ⟨st, hst, hw⟩ := List.mem_flatMap.mp hw
        split at hw
        · next hr =>
          rw [List.mem_singleton.mp hw]
          refine hknown st.address ?_
          have hget := (devicesForHouse_ready hk e.house).stored st hst
          rw [StateManager.stateAt, hget, Option.getD_some]
          exact (Bool.not_eq_false _).mp fun hd => hs ⟨hh.1, hh.2, st, hst, hr, hd⟩
        · exact absurd hw List.not_mem_nil
      · exact absurd hw List.not_mem_nil
    | snapshot snap =>
      obtain ⟨e, he, hw⟩ := List.mem_flatMap.mp hw
      unfold entryWrites at hw
      split at hw
      · next h =>
        rw [List.mem_singleton.mp hw]
        refine hknown (normalize e.1) ?_
        exact (Bool.not_eq_false _).mp fun hd => hs ⟨e, he, h.1, h.2, hd⟩
      · exact absurd hw List.not_mem_nil
    | unknown e => exact absurd hw List.not_mem_nil

/-- The data of an event that is not a device event. -/
theorem announced_event (hk : sm.Keyed) (now : Timestamp) {event : Option Event}
    {log : List BridgeAction} (hlog : AnnouncedFirst log) (hs : ¬ sm.Surprises event)
    (hknown : ∀ k, (sm.stateAt k).discovered = true → Announced log k)
    (hdev : ∀ e, event ≠ some (.device e)) :
    AnnouncedFirst (log ++ (sm.apply now event).2) := by
  refine hlog.append_of_announced fun x hx a ha => ?_
  rw [(apply_performs hk now event).actions] at hx
  rcases List.mem_append.mp hx with hx | hx
  · cases event with
    | none => exact absurd hx List.not_mem_nil
    | some event =>
      cases event with
      | device e => exact absurd rfl (hdev e)
      | house e => exact absurd hx List.not_mem_nil
      | snapshot snap => exact absurd hx List.not_mem_nil
      | unknown e =>
        rw [List.mem_singleton.mp hx] at ha
        cases ha
  · obtain ⟨w, hw, rfl⟩ := dataAddress_publications hx ha
    exact announced_applyWrites hk hs hknown hdev hw

end StateManager

/-! ## Runs -/

/-- What holds of a session at every moment. -/
structure Session.Ordered (s : Session) : Prop where
  keyed : s.manager.Keyed
  ordered : AnnouncedFirst s.log
  known : s.manager.mqttConnected = true →
    ∀ k, (s.manager.stateAt k).discovered = true → Announced s.log k

/-- The replay of a new connection announces each device before its state. -/
theorem announcedFirst_replay {log : List BridgeAction} (h : AnnouncedFirst log)
    (sts : List DeviceState) : AnnouncedFirst (log ++ sts.flatMap replayActions) := by
  induction sts generalizing log with
  | nil => rwa [List.flatMap_nil, List.append_nil]
  | cons st sts ih =>
    rw [List.flatMap_cons, ← List.append_assoc]
    refine ih ?_
    show AnnouncedFirst (log ++ (.publishDiscovery st.address :: _))
    rw [← List.singleton_append, ← List.append_assoc]
    refine AnnouncedFirst.append_of_announced (h.append_of_announced ?_) fun x hx a ha => ?_
    · intro x hx a ha
      rw [List.mem_singleton.mp hx] at ha
      cases ha
    · obtain ⟨c, _, rfl⟩ := List.mem_map.mp hx
      exact .of_mem (List.mem_append_right _ (List.mem_singleton_self _))
        (congrArg normalize (Option.some.inj ha))

theorem dataAddress_status {sm : StateManager} : ∀ x ∈ sm.bridgeStatusActions,
    x.dataAddress = none := by
  intro x hx
  rcases List.mem_pair.mp hx with rfl | rfl <;> rfl

namespace Session.Ordered

variable {s : Session}

theorem mqttConnected (h : s.Ordered) : (s.step .mqttConnected).Ordered where
  keyed := (onMqttConnected_notified s.manager).keyed h.keyed
  ordered := announcedFirst_replay (announcedFirst_of_forall dataAddress_status) _
  known _ k hd := by
    have hkeyed := (onMqttConnected_notified s.manager).keyed h.keyed
    have hd' : (s.manager.onMqttConnected.1.stateAt k).discovered = true := hd
    cases hget : s.manager.onMqttConnected.1.devices.get? k with
    | none =>
      rw [stateAt, hget] at hd'
      cases hd'
    | some st =>
      refine .of_mem (b := k) (List.mem_append_right _ ?_) rfl
      refine List.mem_flatMap.mpr ⟨st, Dict.mem_values.mpr ⟨k, hget⟩, ?_⟩
      rw [← hkeyed k st hget]
      exact List.mem_cons_self

theorem log_step (hm : s.manager.mqttConnected = true) {c : Call} (hc : c.connects = false) :
    (s.step c).log = s.log ++ (s.manager.call c).2 := by
  simp only [Session.step, hc, hm, Bool.false_eq_true, if_false, if_true]

/-- A call does not connect MQTT unless it says so. -/
theorem mqtt_call (hk : s.manager.Keyed) (hm : s.manager.mqttConnected = false) {c : Call}
    (hc : c.connects = false) : (s.manager.call c).1.mqttConnected = false := by
  cases c with
  | mqttConnected => cases hc
  | apply now event => exact (apply_performs hk now event).session.mqtt.trans hm
  | optimisticUpdate now a c =>
    obtain ⟨_, _, hp⟩ := optimisticUpdate_callEffect hk now a c
    rw [StateManager.call, hp.session.mqtt, hm]
  | mqttDisconnected => rfl
  | mochadConnected => exact hm
  | mochadDisconnected => exact hm

/-- A call while MQTT is disconnected is not looked at. -/
theorem of_disconnected (h : s.Ordered) (hm : s.manager.mqttConnected = false) {c : Call}
    (hc : c.connects = false) : (s.step c).Ordered := by
  have hflag := mqtt_call h.keyed hm hc
  have hlog : (s.step c).log = s.log := by
    simp only [Session.step, hc, hm, Bool.false_eq_true, if_false]
  refine ⟨(call_effect h.keyed c).keyed, by rw [hlog]; exact h.ordered, fun hon => ?_⟩
  have hon' : (s.manager.call c).1.mqttConnected = true := hon
  rw [hflag] at hon'
  cases hon'

/-- A call whose actions extend the order. -/
theorem of_actions (h : s.Ordered) (hm : s.manager.mqttConnected = true) {c : Call}
    (hc : c.connects = false) (hord : AnnouncedFirst (s.log ++ (s.manager.call c).2))
    (hknown : ∀ k, ((s.manager.call c).1.stateAt k).discovered = true →
      Announced (s.log ++ (s.manager.call c).2) k) : (s.step c).Ordered where
  keyed := (call_effect h.keyed c).keyed
  ordered := by rwa [log_step hm hc]
  known _ := by rwa [log_step hm hc]

/-- A notification other than `mqtt_connected` returns no data. -/
theorem of_notification (h : s.Ordered) (hm : s.manager.mqttConnected = true) {c : Call}
    (hc : c.connects = false) (hdata : ∀ x ∈ (s.manager.call c).2, x.dataAddress = none)
    (hK : ¬ c.touches .discover) : (s.step c).Ordered := by
  refine h.of_actions hm hc (h.ordered.append_of_announced fun x hx a ha => ?_)
    (announced_of_touches h.keyed hK (h.known hm))
  rw [hdata x hx] at ha
  cases ha

/-- A call that returns nothing and touches only flags of its own. -/
theorem of_nothing (h : s.Ordered) (hm : s.manager.mqttConnected = true) {c : Call}
    (hc : c.connects = false) (hnil : (s.manager.call c).2 = [])
    (hsame : ∀ k, (s.manager.call c).1.stateAt k = s.manager.stateAt k) : (s.step c).Ordered := by
  refine h.of_actions hm hc ?_ fun k hd => ?_
  · rw [hnil, List.append_nil]
    exact h.ordered
  · rw [hnil, List.append_nil]
    rw [hsame] at hd
    exact h.known hm k hd

theorem deviceEvent (h : s.Ordered) (hm : s.manager.mqttConnected = true) (now : Timestamp)
    (e : DeviceEvent) : (s.step (.apply now (some (.device e)))).Ordered := by
  by_cases ha : s.manager.addressAllowed e.address = true
  · have htouched := applyDeviceEvent_spec h.keyed ha
    rw [List.append_assoc] at htouched
    refine (htouched.announces h.keyed hm h.ordered (h.known hm) ?_).elim fun hord hknown => ?_
    · intro x hx b hb
      rcases List.mem_append.mp hx with hx | hx
      · rw [List.mem_singleton.mp hx] at hb
        rw [← Option.some.inj hb]
      · split at hx
        · exact absurd hx List.not_mem_nil
        · rw [DeviceState.changes] at hx
          split at hx
          · exact absurd hx List.not_mem_nil
          · rw [List.mem_singleton.mp hx] at hb
            rw [← Option.some.inj hb, stateOf_address h.keyed, normalize_normalize]
    · exact h.of_actions hm rfl hord hknown
  · have hdenied := applyDeviceEvent_denied (Bool.eq_false_iff.mpr ha)
    exact h.of_nothing hm rfl (congrArg Prod.snd hdenied)
      fun k => congrArg (fun r => r.1.stateAt k) hdenied

theorem optimisticUpdate (h : s.Ordered) (hm : s.manager.mqttConnected = true) (now : Timestamp)
    (a : String) (c : Command) : (s.step (.optimisticUpdate now a c)).Ordered := by
  by_cases ha : s.manager.addressAllowed a = true
  · by_cases hc : c ∈ (s.manager.deviceConfig a).supportedCommands
    · have htouched := optimisticUpdate_accepted h.keyed now ha hc
      rw [announcement, List.append_assoc, List.append_assoc] at htouched
      refine (htouched.announces h.keyed hm h.ordered (h.known hm) ?_).elim fun hord hknown => ?_
      · intro x hx b hb
        rcases List.mem_append.mp hx with hx | hx
        · rw [List.mem_singleton.mp hx] at hb
          cases hb
        · rcases List.mem_append.mp hx with hx | hx
          · split at hx
            · rw [List.mem_singleton.mp hx] at hb
              rw [← Option.some.inj hb, normalize_normalize]
            · rw [List.mem_singleton.mp hx] at hb
              rw [← Option.some.inj hb, normalize_normalize]
          · split at hx
            · rw [DeviceState.changes] at hx
              split at hx
              · exact absurd hx List.not_mem_nil
              · rw [List.mem_singleton.mp hx] at hb
                rw [← Option.some.inj hb, stateOf_address h.keyed, normalize_normalize]
            · exact absurd hx List.not_mem_nil
      · exact h.of_actions hm rfl hord hknown
    · have htouched := optimisticUpdate_unsupported h.keyed now ha hc
      refine h.of_nothing hm rfl htouched.actions fun k => (htouched.stateAt k).trans ?_
      split
      · next he => rw [← he, stateAt_normalize]
      · rfl
  · have hdenied : s.manager.optimisticUpdate now a c = (s.manager, []) :=
      optimisticUpdate_denied (Bool.eq_false_iff.mpr ha)
    exact h.of_nothing hm rfl (congrArg Prod.snd hdenied)
      fun k => congrArg (fun r => r.1.stateAt k) hdenied

/-- An event that is not a device event and surprises nobody. -/
theorem otherEvent (h : s.Ordered) (hm : s.manager.mqttConnected = true) (now : Timestamp)
    {e : Option Event} (hs : ¬ s.manager.Surprises e)
    (hdev : ∀ d, e ≠ some (.device d)) : (s.step (.apply now e)).Ordered := by
  refine h.of_actions hm rfl (announced_event h.keyed now h.ordered hs (h.known hm) hdev)
    (announced_of_touches h.keyed ?_ (h.known hm))
  cases e with
  | none => exact id
  | some e =>
    cases e with
    | device d => exact absurd rfl (hdev d)
    | house e => rintro (h | h) <;> cases h
    | snapshot snap =>
      rintro (h | ⟨_, _, h⟩)
      · cases h
      · cases h
    | unknown e => exact id

theorem step (h : s.Ordered) {c : Call} (hc : ¬ s.manager.Bypasses c) : (s.step c).Ordered := by
  cases hm : s.manager.mqttConnected with
  | false =>
    cases hcon : c.connects with
    | false => exact h.of_disconnected hm hcon
    | true =>
      cases c with
      | mqttConnected => exact h.mqttConnected
      | _ => cases hcon
  | true =>
    cases c with
    | apply now event =>
      cases event with
      | none => exact h.otherEvent hm now (e := none) id nofun
      | some event =>
        cases event with
        | device e => exact h.deviceEvent hm now e
        | house e => exact h.otherEvent hm now (fun hs => hc ⟨hm, hs⟩) nofun
        | snapshot snap => exact h.otherEvent hm now (fun hs => hc ⟨hm, hs⟩) nofun
        | unknown e => exact h.otherEvent hm now (e := some (.unknown e)) id nofun
    | optimisticUpdate now a c => exact h.optimisticUpdate hm now a c
    | mqttConnected => exact h.mqttConnected
    | mqttDisconnected => exact h.of_notification hm rfl dataAddress_status id
    | mochadConnected =>
      refine h.of_notification hm rfl (fun x hx => ?_) id
      rcases List.mem_append.mp hx with hx | hx
      · exact dataAddress_status x hx
      · rw [List.mem_singleton.mp hx]
        rfl
    | mochadDisconnected => exact h.of_notification hm rfl dataAddress_status nofun

end Session.Ordered

/-- The session of a new manager. -/
def Session.init (devices : List DeviceConfig) (optimistic : Bool)
    (housecodes : Option (List String)) : Session where
  manager := StateManager.init devices optimistic housecodes

theorem Session.init_ordered (devices : List DeviceConfig) (optimistic : Bool)
    (housecodes : Option (List String)) : (Session.init devices optimistic housecodes).Ordered where
  keyed := (init_fresh devices optimistic housecodes).keyed
  ordered := announcedFirst_of_forall fun _ hx => absurd hx List.not_mem_nil
  known _ k hd := by
    rw [Session.init, init_stateAt] at hd
    cases hd

/-- Discovery precedes data in every run in which no house event and no
snapshot sets the state of an undiscovered device while MQTT is connected. -/
theorem announcedFirst_of_reaches (devices : List DeviceConfig) (optimistic : Bool)
    (housecodes : Option (List String)) {s : Session}
    (h : Reaches Session.step (fun s c => ¬ s.manager.Bypasses c)
      (Session.init devices optimistic housecodes) s) : AnnouncedFirst s.log :=
  (h.invariant (Session.init_ordered devices optimistic housecodes)
    fun _ _ hs hc => hs.step hc).ordered

/-- A lamp is reported on, then the connection starts, then it is switched. -/
theorem announcedFirst_lamp :
    AnnouncedFirst (Run.exec Session.step (Session.init [] true none)
      [.apply 1 (some (.snapshot { devices := .ofPairs [("A1", .on)] })), .mqttConnected,
        .optimisticUpdate 2 "A1" .off]).log := by
  refine announcedFirst_of_reaches [] true none (reaches_exec ⟨?_, ?_, ?_, trivial⟩)
  · exact fun h => nomatch h.1
  · exact id
  · exact id

/-- A snapshot creates a device while MQTT is connected and publishes its state;
nothing announces it. -/
theorem snapshot_unannounced :
    ¬ AnnouncedFirst (Run.exec Session.step (Session.init [] true none)
      [.mqttConnected, .apply 1 (some (.snapshot { devices := .ofPairs [("A1", .on)] }))]).log := by
  intro h
  have hlog : (Run.exec Session.step (Session.init [] true none)
      [.mqttConnected, .apply 1 (some (.snapshot { devices := .ofPairs [("A1", .on)] }))]).log =
      [.publishAvailability false, .publishStatus "offline" true false true] ++
        .publishState "A1" .on true :: [] := by decide
  obtain ⟨b, hb, _⟩ := h _ _ _ "A1" hlog rfl
  simp at hb

end MochadBridge
