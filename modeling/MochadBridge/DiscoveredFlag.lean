import MochadBridge.DeviceTables
import MochadBridge.DiscoveryOrder
import MochadBridge.Removal
import MochadBridge.Retained

/-!
# The discovered flag

The state manager marks a device as discovered when it asks for its
announcement. The flag stays set when the bridge clears the announcement, or
cannot make it in the first place.

Results:
1. `flags_of_call`: which devices a call marks.
2. `executeActions_announces`, `onConnect_tabled`: a marked device is announced
   if its messages can be generated.
3. `discovered_shown`: in a run where they can be, and where no prune, reset or
   reload hides a discovered device, each discovered device is shown while MQTT is
   connected.
-/

namespace MochadBridge

open Py Effect

namespace StateManager

variable {sm : StateManager}

/-- The call marks the device as discovered, or marks it again. -/
def Flags (sm : StateManager) : Call → String → Prop
  | .mqttConnected, k => k ∈ sm.devices.keys
  | .apply _ (some (.device e)), k => normalize e.address = k ∧ sm.addressAllowed e.address = true ∧
      sm.mqttConnected = true ∧ (sm.stateAt k).discovered = false
  | .optimisticUpdate _ a c, k => normalize a = k ∧ sm.addressAllowed a = true ∧
      c ∈ (sm.deviceConfig a).supportedCommands ∧ sm.mqttConnected = true ∧
      (sm.stateAt k).discovered = false
  | _, _ => False

/-- A device that a touch of its own marks. -/
theorem flags_of_touched {k a : String} {st : DeviceState} {actions : List BridgeAction}
    {r : StateManager × List BridgeAction} (h : Touched sm (normalize a) st actions r)
    (hst : st.discovered = ((sm.stateOf a).discovered || sm.mqttConnected))
    (hd : (r.1.stateAt k).discovered = true) : (sm.stateAt k).discovered = true ∨
      (normalize a = k ∧ sm.mqttConnected = true ∧ (sm.stateAt k).discovered = false) := by
  rw [h.stateAt] at hd
  split at hd
  · next hk =>
    rw [hst, ← stateAt_normalize, hk] at hd
    cases hold : (sm.stateAt k).discovered with
    | true => exact .inl rfl
    | false =>
      rw [hold, Bool.false_or] at hd
      exact .inr ⟨hk, hd, rfl⟩
  · exact .inl hd

theorem flags_of_deviceEvent (hk : sm.Keyed) (now : Timestamp) (e : DeviceEvent) {k : String}
    (hd : ((sm.applyDeviceEvent e).1.stateAt k).discovered = true) :
    (sm.stateAt k).discovered = true ∨ sm.Flags (.apply now (some (.device e))) k := by
  cases ha : sm.addressAllowed e.address with
  | true =>
    refine (flags_of_touched (applyDeviceEvent_spec hk ha) ?_ hd).imp_right fun h => ⟨h.1, ha, h.2⟩
    split
    · rfl
    · rw [DeviceState.take_discovered]
      rfl
  | false =>
    rw [applyDeviceEvent_denied ha] at hd
    exact .inl hd

theorem flags_of_command (hk : sm.Keyed) (now : Timestamp) (a : String) (c : Command) {k : String}
    (hd : ((sm.optimisticUpdate now a c).1.stateAt k).discovered = true) :
    (sm.stateAt k).discovered = true ∨ sm.Flags (.optimisticUpdate now a c) k := by
  cases ha : sm.addressAllowed a with
  | true =>
    by_cases hc : c ∈ (sm.deviceConfig a).supportedCommands
    · refine (flags_of_touched (optimisticUpdate_accepted hk now ha hc) ?_ hd).imp_right fun h =>
        ⟨h.1, ha, hc, h.2⟩
      split
      · rw [DeviceState.take_discovered]
        rfl
      · rfl
    · rw [(optimisticUpdate_unsupported hk now ha hc).stateAt] at hd
      split at hd
      · next he =>
        rw [← he, stateAt_normalize]
        exact .inl hd
      · exact .inl hd
  | false =>
    rw [optimisticUpdate_denied ha] at hd
    exact .inl hd

/-- When MQTT connects, every known device is marked. -/
theorem flags_of_connect {k : String} (hd : (sm.onMqttConnected.1.stateAt k).discovered = true) :
    sm.Flags .mqttConnected k := by
  refine Dict.mem_keys.mpr fun hnone => ?_
  have hget : sm.onMqttConnected.1.devices.get? k = none := by
    show (sm.devices.mapValues _).get? k = none
    rw [Dict.get?_mapValues, hnone]
    rfl
  rw [stateAt, hget] at hd
  cases hd

/-- A device is discovered after a call only if it was before, or the call marks it. -/
theorem flags_of_call (hk : sm.Keyed) (c : Call) {k : String}
    (hd : ((sm.call c).1.stateAt k).discovered = true) :
    (sm.stateAt k).discovered = true ∨ sm.Flags c k := by
  have hother : ¬ c.touches .discover → (sm.stateAt k).discovered = true := fun hK => by
    rw [discovered_of_path hK ((call_touches hk c).device k)] at hd
    exact hd
  cases c with
  | apply now event =>
    cases event with
    | none => exact .inl (hother id)
    | some event =>
      cases event with
      | device e => exact flags_of_deviceEvent hk now e hd
      | house e => exact .inl (hother (by rintro (h | h) <;> exact Touch.noConfusion h))
      | snapshot snap =>
        exact .inl (hother (by rintro (h | ⟨_, _, h⟩) <;> exact Touch.noConfusion h))
      | unknown e => exact .inl (hother id)
  | optimisticUpdate now a c => exact flags_of_command hk now a c hd
  | mqttConnected => exact .inr (flags_of_connect hd)
  | mqttDisconnected | mochadConnected => exact .inl (hother id)
  | mochadDisconnected => exact .inl (hother Touch.noConfusion)

/-- A device that is marked gets its announcement first. -/
theorem discovery_of_flags (hk : sm.Keyed) {c : Call} {k : String} (hc : c ≠ .mqttConnected)
    (h : sm.Flags c k) : ∃ rest, (sm.call c).2 = .publishDiscovery k :: rest := by
  have hlead : ∀ a, normalize a = k → sm.mqttConnected = true →
      (sm.stateAt k).discovered = false →
      (sm.stateOf a).discovery sm.mqttConnected = [.publishDiscovery k] := by
    rintro a rfl hm hd
    rw [stateAt_normalize] at hd
    rw [DeviceState.discovery, if_neg (by simp [hm, hd]), stateOf_address hk]
  cases c with
  | apply now event =>
    cases event with
    | none => exact absurd h id
    | some event =>
      cases event with
      | device e =>
        obtain ⟨hnorm, ha, hm, hd⟩ := h
        have hactions : (sm.call (.apply now (some (.device e)))).2 = _ :=
          (applyDeviceEvent_spec hk ha).actions
        rw [hactions, hlead _ hnorm hm hd]
        exact ⟨_, rfl⟩
      | house | snapshot | unknown => exact absurd h id
  | optimisticUpdate now a c =>
    obtain ⟨hnorm, ha, hsupported, hm, hd⟩ := h
    have hactions : (sm.call (.optimisticUpdate now a c)).2 = _ :=
      (optimisticUpdate_accepted hk now ha hsupported).actions
    rw [hactions, announcement, hlead _ hnorm hm hd]
    exact ⟨_, rfl⟩
  | mqttConnected => exact absurd rfl hc
  | mqttDisconnected | mochadConnected | mochadDisconnected => exact absurd h id

end StateManager

namespace Bridge

/-! ## What is shown -/

/-- The last message on the topic was a config. -/
def Shows (os : List Output) (topic : String) : Prop :=
  ∃ payload, retained os topic = some payload ∧ ∃ fields, payload = .obj fields

/-- Some discovery topic of the device shows a config. -/
def Shown (s : Bridge) (a : String) : Prop :=
  ∃ topic, ConfigTopic s.discovery.discoveryPrefix a topic ∧ Shows s.journal.outputs topic

/-- The table lists the device, and the topic it gives it shows a config. -/
def Tabled (s : Bridge) (a : String) : Prop :=
  a ∈ s.devices.keys ∧ ∃ topic,
    Topics.discovery (s.deviceAt a) s.discovery.discoveryPrefix = .ok topic ∧
      Shows s.journal.outputs topic

section Shown
variable {E : Env} {s t : Bridge} {l : Label} {a topic : String} {K : Label → Prop}

theorem normalize_of_listed (h : Sound s) (ha : a ∈ s.devices.keys) : normalize a = a := by
  obtain ⟨d, hd⟩ := Option.ne_none_iff_exists'.mp (Dict.mem_keys.mp ha)
  exact (h.table a d hd).2

theorem configTopic_of_listed (h : Sound s) (ha : a ∈ s.devices.keys)
    (htopic : Topics.discovery (s.deviceAt a) s.discovery.discoveryPrefix = .ok topic) :
    ConfigTopic s.discovery.discoveryPrefix a topic := by
  refine ⟨s.deviceAt a, ?_, htopic⟩
  rw [deviceAt_address h, normalize_normalize, normalize_of_listed h ha]

theorem Tabled.shown (h : s.Tabled a) (hs : Sound s) : s.Shown a := by
  obtain ⟨ha, topic, htopic, hshows⟩ := h
  exact ⟨topic, configTopic_of_listed hs ha htopic, hshows⟩

/-- The payload of a message that is announced is an object. -/
theorem obj_of_announces {m : DiscoveryMessage} (h : s.Announces m) :
    ∃ fields, m.payload = .obj fields := by
  rcases h with ⟨k, d, ms, _, hms, hm⟩ | ⟨ms, hms, hm⟩
  · obtain ⟨_, fields, _, _, rfl⟩ := DiscoveryManager.discoveryMessages_one hms
    rw [List.mem_singleton.mp hm]
    exact ⟨fields, rfl⟩
  · exact (DiscoveryManager.bridgeEntity_of_mem hms hm).2

/-- Only a clearing hides a topic. -/
theorem shows_apply (hg : l.guard E s) (hc : ConfigTopic s.discovery.discoveryPrefix a topic)
    (hclear : l ≠ .clear topic ∧ l ≠ .reset topic) (h : Shows s.journal.outputs topic) :
    Shows (l.apply s).journal.outputs topic := by
  rw [outputs_apply]
  refine retained_of_forall (fun payload retain hm => ?_) h
  rcases publish_of_outputs hm with rfl | ⟨b, rfl⟩ | ⟨b, c, rfl, _⟩ | ⟨m, rfl, rfl, hp, _⟩ | ⟨hl, _⟩
  · obtain ⟨suffix, hsuffix, htopic⟩ := hg
    exact absurd hc (not_configTopic_of_own htopic hsuffix)
  · rcases hg.2 with htopic | htopic
    · exact absurd hc (not_configTopic_of_device htopic (by simp))
    · exact absurd hc (not_configTopic_of_device htopic (by simp))
  · exact absurd hc (not_configTopic_of_device hg.2 (by simp))
  · rw [← hp]
    exact obj_of_announces hg
  · exact absurd hl (not_or.mpr hclear)

/-- A path that does not clear the topic goes on showing it. -/
theorem shows_of_path (hc : ConfigTopic s.discovery.discoveryPrefix a topic)
    (hK : ∀ l, K l → l ≠ .clear topic ∧ l ≠ .reset topic) (hp : Path (system E) K s t)
    (h : Shows s.journal.outputs topic) : Shows t.journal.outputs topic := by
  have hboth : t.discovery = s.discovery ∧ Shows t.journal.outputs topic :=
    hp.invariant (I := fun u => u.discovery = s.discovery ∧ Shows u.journal.outputs topic)
      (fun l u hl hg hu => ⟨(apply_discovery l u).trans hu.1,
        shows_apply hg (by rw [hu.1]; exact hc) (hK l hl) hu.2⟩) ⟨rfl, h⟩
  exact hboth.2

theorem discovery_of_path (hp : Path (system E) K s t) : t.discovery = s.discovery :=
  hp.frame Bridge.discovery fun l u _ _ => apply_discovery l u

/-- A path that clears nothing hides nobody. -/
theorem shown_of_path (hK : ∀ l, K l → l.kind ∉ [.clear, .reset]) (hp : Path (system E) K s t)
    (h : s.Shown a) : t.Shown a := by
  obtain ⟨topic, hc, hshows⟩ := h
  refine ⟨topic, by rw [discovery_of_path hp]; exact hc, shows_of_path hc (fun l hl => ?_) hp hshows⟩
  have hkind := hK l hl
  constructor <;> rintro rfl <;> exact hkind (by simp [Label.kind])

/-- The current discovery has a message for every listed device. -/
theorem message_of_listed (h : Sound s) (ha : a ∈ s.devices.keys) {ms : List DiscoveryMessage}
    (hms : s.discoveryMessages = .ok ms) : ∃ m ∈ ms,
      Topics.discovery (s.deviceAt a) s.discovery.discoveryPrefix = .ok m.topic := by
  obtain ⟨d, hget⟩ := Option.ne_none_iff_exists'.mp (Dict.mem_keys.mp ha)
  have hat : s.deviceAt a = d := by
    rw [deviceAt, normalize_of_listed h ha, hget]
    rfl
  obtain ⟨lists, hlists, hms⟩ := bind_ok hms
  obtain ⟨own, _, hms⟩ := bind_ok hms
  cases hms
  obtain ⟨ms, hmem, hd⟩ := mem_of_mapM_ok hlists (Dict.mem_values.mpr ⟨a, hget⟩)
  obtain ⟨topic, fields, htopic, _, rfl⟩ := DiscoveryManager.discoveryMessages_one hd
  refine ⟨_, List.mem_append_left _ (List.mem_flatten.mpr ⟨_, hmem, List.mem_singleton_self _⟩), ?_⟩
  rw [hat]
  exact htopic

/-- The topic of a listed device is desired. -/
theorem mem_desires (h : Sound s) (ha : a ∈ s.devices.keys)
    (htopic : Topics.discovery (s.deviceAt a) s.discovery.discoveryPrefix = .ok topic)
    {desired : List String} (hd : s.Desires desired) : topic ∈ desired := by
  obtain ⟨ms, hms, rfl⟩ := hd
  obtain ⟨m, hm, hm'⟩ := message_of_listed h ha hms
  rw [htopic, Except.ok.injEq] at hm'
  exact List.mem_map.mpr ⟨m, hm, hm'.symm⟩

/-- Cleanups spare what the table announces. -/
theorem Tabled.apply (h : s.Tabled a) (hs : Sound s) (hg : l.guard E s)
    (hl : l.kind ∉ [.install, .reset]) : (l.apply s).Tabled a := by
  obtain ⟨ha, topic, htopic, hshows⟩ := h
  have hinstall : l.kind ≠ .install := fun hk => hl (by rw [hk]; exact List.mem_cons_self)
  refine ⟨apply_listed hinstall ha, topic, ?_, ?_⟩
  · rw [apply_deviceAt hinstall, apply_discovery]
    exact htopic
  · refine shows_apply hg (configTopic_of_listed hs ha htopic) ⟨?_, ?_⟩ hshows
    · rintro rfl
      obtain ⟨_, desired, hdesired, hnot⟩ := hg
      exact hnot (mem_desires hs ha htopic hdesired)
    · rintro rfl
      exact hl (by simp [Label.kind])

theorem Tabled.path (h : s.Tabled a) (hs : Sound s) (hK : ∀ l, K l → l.kind ∉ [.install, .reset])
    (hp : Path (system E) K s t) : t.Tabled a :=
  hs.carries (I := fun u => u.Tabled a) hp h fun l _ hl hg hu h => h.apply hu hg (hK l hl)

end Shown

/-! ## Announcements -/

/-- The messages of the device can be generated. -/
def Announceable (s : Bridge) (a : String) : Prop :=
  ∃ ms, s.discovery.discoveryMessages (s.deviceAt a) s.mochadDiagnostics = .ok ms

/-- An action of a new connection that goes through. -/
def Performable (s : Bridge) : BridgeAction → Prop
  | .publishAvailability _ | .publishStatus .. => True
  | .publishDiscovery a | .publishState a _ _ => s.Announceable a ∧ normalize a = a
  | _ => False

section Announcements
variable {E : Env} {s t : Bridge} {a : String}

theorem tabled_of_messages {ms : List DiscoveryMessage} (hn : normalize a = a)
    (hms : s.discovery.discoveryMessages (s.deviceAt a) s.mochadDiagnostics = .ok ms) :
    ((s.withDevice a).emitAll (ms.map messageOutput)).Tabled a := by
  obtain ⟨topic, fields, htopic, _, rfl⟩ := DiscoveryManager.discoveryMessages_one hms
  refine ⟨Dict.mem_keys_insert.mpr (.inl hn.symm), topic, ?_, ?_⟩
  · show Topics.discovery ((s.withDevice a).deviceAt a) s.discovery.discoveryPrefix = .ok topic
    rw [deviceAt_withDevice]
    exact htopic
  · exact ⟨.obj fields, retained_publish _ _ _ _, fields, rfl⟩

/-- The announcement of a device on a connected client. -/
theorem exec_announce (now : Timestamp) (hconn : s.mqtt.connected = true)
    {ms : List DiscoveryMessage}
    (hms : s.discovery.discoveryMessages (s.deviceAt a) s.mochadDiagnostics = .ok ms) :
    exec (executeAction E now (.publishDiscovery a)) s =
      (.ok (), (s.withDevice a).emitAll (ms.map messageOutput)) := by
  have hms' : (s.withDevice a).discovery.discoveryMessages (s.deviceAt a)
      (s.withDevice a).mochadDiagnostics = .ok ms := hms
  rw [executeAction, exec_bind, exec_get]
  dsimp only
  rw [if_neg (by simp [hconn])]
  rw [exec_bind_ok _ _ _ (exec_deviceConfig a), exec_bind, exec_get]
  dsimp only
  rw [hms', exec_bind, exec_ofExcept]
  exact exec_publishAll ms

/-- Labels of actions spare what the table announces. -/
theorem spared_of_of {l : Label} {x : BridgeAction} (h : l.Of x) : l.kind ∉ [.install, .reset] := by
  have hkind := kind_of_of h
  intro hl
  revert hkind hl
  cases l.kind <;> decide

theorem executeActions_announces (now : Timestamp) (hs : Sound s) (hconn : s.mqtt.connected = true)
    (hn : normalize a = a) (ha : s.Announceable a) {rest : List BridgeAction}
    (hrest : ∀ x ∈ rest, s.state.Concerns x) :
    (exec (executeActions E now (.publishDiscovery a :: rest)) s).2.Tabled a := by
  obtain ⟨ms, hms⟩ := ha
  have hexec := exec_attempt (E := E) now (exec_announce now hconn hms)
  have hsound : Sound ((s.withDevice a).emitAll (ms.map messageOutput)) :=
    (hs.withDevice a).of_same rfl rfl rfl rfl rfl rfl rfl
  rw [executeActions_cons, exec_bind_ok _ _ _ hexec, if_pos rfl]
  refine (tabled_of_messages hn hms).path hsound ?_ (executeActions_takes now hrest)
  rintro l ⟨x, _, hl⟩
  exact spared_of_of hl

theorem Announceable.path {K : Label → Prop} (h : s.Announceable a)
    (hK : ∀ l, K l → l.kind ∉ [.install, .diagnostics]) (hp : Path (system E) K s t) :
    t.Announceable a := by
  have hat : t.deviceAt a = s.deviceAt a := hp.frame (fun u => u.deviceAt a) fun l _ hl _ =>
    apply_deviceAt (fun hk => hK l hl (by simp [hk])) a
  have hdiag : t.mochadDiagnostics = s.mochadDiagnostics :=
    hp.frame Bridge.mochadDiagnostics fun l _ hl _ =>
      apply_diagnostics fun hk => hK l hl (by simp [hk])
  rw [Announceable, hat, hdiag, discovery_of_path hp]
  exact h

theorem Performable.path {K : Label → Prop} {x : BridgeAction} (h : s.Performable x)
    (hK : ∀ l, K l → l.kind ∉ [.install, .diagnostics]) (hp : Path (system E) K s t) :
    t.Performable x := by
  cases x with
  | publishDiscovery a | publishState a c retain => exact ⟨h.1.path hK hp, h.2⟩
  | publishAvailability | publishStatus => trivial
  | _ => exact absurd h id

theorem exec_publishOn_ok {topic : String → Except PyError String} {path : String} (payload : Json)
    (retain : Bool) (h : topic s.mqtt.baseTopic = .ok path) :
    ∃ t, exec (publishOn topic payload retain) s = (.ok (), t) := by
  rw [exec_publishOn, h]
  exact ⟨_, rfl⟩

/-- Actions of a new connection raise nothing. -/
theorem exec_performable (now : Timestamp) (hs : Sound s) (hconn : s.mqtt.connected = true)
    {x : BridgeAction} (h : s.Performable x) :
    ∃ t, exec (executeAction E now x) s = (.ok (), t) := by
  obtain ⟨base, hbase⟩ := hs.clean
  cases x with
  | publishDiscovery a =>
    obtain ⟨ms, hms⟩ := h.1
    exact ⟨_, exec_announce now hconn hms⟩
  | publishState a c retain =>
    obtain ⟨ms, hms⟩ := h.1
    obtain ⟨_, _, htopic, _, _⟩ := DiscoveryManager.discoveryMessages_one hms
    have haddr := (Topics.ends_discovery htopic).1
    rw [deviceAt_address hs, normalize_normalize] at haddr
    rw [executeAction, exec_bind, exec_get]
    dsimp only
    rw [if_neg (by simp [hconn])]
    exact exec_publishOn_ok _ _ (Topics.deviceTopic_eq hbase haddr (Topics.cleanSegment_fixed _ (by simp)))
  | publishAvailability online =>
    rw [executeAction, exec_bind, exec_get]
    dsimp only
    rw [if_neg (by simp [hconn])]
    exact exec_publishOn_ok _ _ (Topics.bridgeTopic_eq hbase (Topics.cleanSegment_fixed _ (by simp)))
  | publishStatus status mqtt mochad retain =>
    rw [executeAction, exec_bind, exec_get]
    dsimp only
    rw [if_neg (by simp [hconn])]
    exact exec_publishOn_ok _ _ (Topics.bridgeTopic_eq hbase (Topics.cleanSegment_fixed _ (by simp)))
  | _ => exact absurd h id

/-- Every device that a list of such actions announces is shown after it. -/
theorem executeActions_tabled (now : Timestamp) {actions : List BridgeAction} (hs : Sound s)
    (hconn : s.mqtt.connected = true) (hperform : ∀ x ∈ actions, s.Performable x)
    (hconcern : ∀ x ∈ actions, s.state.Concerns x)
    (h : s.Tabled a ∨ .publishDiscovery a ∈ actions) :
    (exec (executeActions E now actions) s).2.Tabled a := by
  induction actions generalizing s with
  | nil => exact h.resolve_right List.not_mem_nil
  | cons x rest ih =>
    have hx := hperform x List.mem_cons_self
    obtain ⟨t, ht⟩ := exec_performable (E := E) now hs hconn hx
    have hpath := attempt_takes (E := E) now (hconcern x List.mem_cons_self)
    rw [Takes, exec_attempt now ht] at hpath
    have hkinds : ∀ l, Label.Of l x → l.kind ∉ [.install, .diagnostics, .mqtt, .call] := by
      intro l hl hk
      have hkind := kind_of_of hl
      revert hkind hk
      cases l.kind <;> decide
    have hquiet : ∀ l, Label.Of l x → l.kind ∉ [.install, .diagnostics] := fun l hl hk =>
      hkinds l hl (by rcases List.mem_pair.mp hk with h | h <;> simp [h])
    have hstate := state_of_path (fun l hl hk => hkinds l hl (by simp [hk])) hpath
    have hconn' : t.mqtt.connected = true := by
      rw [← hconn]
      exact hpath.frame (fun u => u.mqtt.connected) fun l u hl _ =>
        apply_connected fun hk => hkinds l hl (by simp [hk])
    rw [executeActions_cons, exec_bind_ok _ _ _ (exec_attempt now ht), if_pos rfl]
    refine ih (hs.path hpath) hconn'
      (fun y hy => (hperform y (List.mem_cons_of_mem _ hy)).path hquiet hpath)
      (fun y hy => by rw [hstate]; exact hconcern y (List.mem_cons_of_mem _ hy)) ?_
    rcases h with h | h
    · exact .inl (h.path hs (fun l hl => spared_of_of hl) hpath)
    · rcases List.mem_cons.mp h with rfl | h
      · obtain ⟨ms, hms⟩ := hx.1
        rw [exec_announce now hconn hms, Prod.mk.injEq] at ht
        rw [← ht.2]
        exact .inl (tabled_of_messages hx.2 hms)
      · exact .inr h

/-- The actions of a new connection go through if the messages of every known
device can be generated. -/
theorem performable_of_connect (hs : Sound s)
    (hann : ∀ k ∈ s.state.devices.keys, s.Announceable k) {x : BridgeAction}
    (hx : x ∈ (s.state.call .mqttConnected).2) : s.Performable x := by
  have hknown : ∀ st ∈ s.state.onMqttConnected.1.devices.values,
      s.Announceable st.address ∧ normalize st.address = st.address := fun st hst =>
    have hk := StateManager.replay_known hs.keyed hst
    ⟨hann _ hk, (hs.known _ hk).2⟩
  rcases List.mem_append.mp hx with hx | hx
  · rcases List.mem_pair.mp hx with rfl | rfl <;> trivial
  · obtain ⟨st, hst, hx⟩ := List.mem_flatMap.mp hx
    rcases StateManager.replay_address hx with rfl | ⟨c, _, rfl⟩
    · exact hknown st hst
    · exact hknown st hst

/-- Every known device is among the ones a new connection announces. -/
theorem announced_of_connect (hs : Sound s) {k : String} (hk : k ∈ s.state.devices.keys) :
    .publishDiscovery k ∈ (s.state.call .mqttConnected).2 := by
  have hn := StateManager.onMqttConnected_notified s.state
  rw [← hn.keys] at hk
  obtain ⟨st, hst⟩ := Option.ne_none_iff_exists'.mp (Dict.mem_keys.mp hk)
  refine List.mem_append_right _ (List.mem_flatMap.mpr ⟨st, Dict.mem_values.mpr ⟨k, hst⟩, ?_⟩)
  rw [StateManager.replayActions, hn.keyed hs.keyed k st hst]
  exact List.mem_cons_self

theorem notify_tabled (now : Timestamp) (hs : Sound s) (hconn : s.mqtt.connected = true)
    (hann : ∀ k ∈ s.state.devices.keys, s.Announceable k) {k : String}
    (hk : k ∈ s.state.devices.keys) :
    (exec (notify E now StateManager.onMqttConnected) s).2.Tabled k := by
  have hrun : exec (notify E now StateManager.onMqttConnected) s =
      exec (executeActions E now (s.state.call .mqttConnected).2)
        { s with state := (s.state.call .mqttConnected).1 } := by
    simp only [notify, exec_bind, exec_get, exec_set]
    rfl
  have hfrom : Call.FromBridge .mqttConnected := trivial
  have hsound := hs.call hfrom
  rw [hrun]
  exact executeActions_tabled now hsound hconn
    (fun x hx => performable_of_connect hs hann hx)
    (StateManager.call_concerns hs.keyed hfrom) (.inr (announced_of_connect hs hk))

/-- What follows the notification spares what the table announces. -/
theorem announceBridge_takes : Takes (system E) (Kinds [.config, .registry, .clear]) (do
    publishBridgeDiagnosticDiscovery
    let _ ← runDiscoveryCleanup E false) s :=
  .bind (publishBridgeDiagnosticDiscovery_does.mono (subset_of_all rfl)) fun _ _ _ =>
    .bind ((runDiscoveryCleanup_does false).mono (subset_of_all rfl)) fun _ _ _ => .refl

/-- After a new connection every known device is shown. -/
theorem onConnect_tabled (now : Timestamp) (hs : Sound s)
    (hann : ∀ k ∈ s.state.devices.keys, s.Announceable k) {k : String}
    (hk : k ∈ s.state.devices.keys) : (exec (onConnect E now) s).2.Tabled k := by
  have hsound : Sound ((Label.mqtt true).apply s) := hs.apply (E := E) (l := .mqtt true) trivial
  have htabled := notify_tabled (E := E) (s := (Label.mqtt true).apply s) now hsound rfl hann hk
  have hpath : Takes (system E) (((Label.mqtt true).apply s).CallLabel .mqttConnected)
      (notify E now StateManager.onMqttConnected) ((Label.mqtt true).apply s) :=
    notify_takes now hsound (c := .mqttConnected) trivial fun _ => rfl
  have hsound' := hsound.path hpath
  have hexec : exec (onConnect E now) s = exec (onMqttConnected E now) ((Label.mqtt true).apply s) :=
    exec_bind_ok _ _ _ (exec_modify _ _)
  rw [hexec, onMqttConnected, exec_bind]
  generalize exec (notify E now StateManager.onMqttConnected) _ = outcome at htabled hsound'
  obtain ⟨result, t⟩ := outcome
  cases result with
  | error e => exact htabled
  | ok r =>
    refine htabled.path hsound' (fun l hl hk => ?_) (announceBridge_takes (E := E) (s := t))
    revert hl hk
    unfold Kinds
    cases l.kind <;> decide

end Announcements

/-! ## Steps -/

/-- While MQTT is connected, every discovered device is shown. -/
def Truthful (s : Bridge) : Prop :=
  s.mqtt.connected = true → ∀ a, (s.state.stateAt a).discovered = true → s.Shown a

/-- All that a discovered device is shown on is cleared. -/
def Hides (s : Bridge) (a : String) (cleared : String → Prop) : Prop :=
  (s.state.stateAt a).discovered = true ∧ ∀ topic,
    ConfigTopic s.discovery.discoveryPrefix a topic → Shows s.journal.outputs topic → cleared topic

/-- The bridge command of an input. -/
def inputBridgeCommand (s : Bridge) : Input → Option BridgeCommand
  | .mqttMessage topic payload => s.messageBridgeCommand topic payload
  | _ => none

/-- The step marks a device whose messages cannot be generated. -/
def Mismarks (s : Bridge) (i : Timestamp × Input) : Prop :=
  ∃ c, s.stepCall i.1 i.2 = some c ∧ ∃ a, s.state.Flags c a ∧ ¬ s.Announceable a

/-- The step is an enabled maintenance command that hides a discovered device. -/
def Sweeps (s : Bridge) (i : Timestamp × Input) : Prop :=
  s.config.enableMaintenanceButtons = true ∧
    ((s.inputBridgeCommand i.2 = some .pruneDiscovery ∧ ∃ a, s.Hides a s.Stale) ∨
      (s.inputBridgeCommand i.2 = some .resetDiscovery ∧ ∃ a, s.Hides a s.Tracked))

/-- The step loads a configuration without a discovered device, which the cleanup
then hides. -/
def Drops (s : Bridge) (i : Timestamp × Input) : Prop :=
  s.mqtt.connected = true ∧ s.config.discoveryCleanup = true ∧
    ∃ newConfig, s.loads i = some newConfig ∧ ∃ a, a ∉ (s.install newConfig).devices.keys ∧
      s.Hides a (· ∈ s.registered)

/-- The step leaves a discovered device without an announcement. -/
def Betrays (s : Bridge) (i : Timestamp × Input) : Prop :=
  s.Mismarks i ∨ s.Sweeps i ∨ s.Drops i

section Steps
variable {E : Env} {s t u : Bridge} {a : String} {i : Timestamp × Input}

/-- A device that is not hidden has a topic that is not cleared. -/
theorem spared_of_not_hides {cleared : String → Prop} (h : ¬ s.Hides a cleared)
    (hd : (s.state.stateAt a).discovered = true) : ∃ topic,
      ConfigTopic s.discovery.discoveryPrefix a topic ∧ Shows s.journal.outputs topic ∧
        ¬ cleared topic := by
  by_contra hnone
  refine h ⟨hd, fun topic hc hshows => ?_⟩
  by_contra hspared
  exact hnone ⟨topic, hc, hshows, hspared⟩

/-- A path that leaves each discovered device a topic that shows it. -/
theorem truthful_of_path {K : Label → Prop} (cleared : String → Prop)
    (hK : ∀ l, K l → l.kind ∉ [.call, .mqtt])
    (hclear : ∀ topic, K (.clear topic) ∨ K (.reset topic) → cleared topic)
    (hspare : s.mqtt.connected = true → ∀ a, ¬ s.Hides a cleared) (hp : Path (system E) K s t) :
    t.Truthful := by
  intro hconn a hd
  have hlink : t.mqtt.connected = s.mqtt.connected :=
    hp.frame (fun u => u.mqtt.connected) fun l u hl _ =>
      apply_connected fun hk => hK l hl (by simp [hk])
  rw [state_of_path (fun l hl hk => hK l hl (by simp [hk])) hp] at hd
  obtain ⟨topic, hc, hshows, hspared⟩ :=
    spared_of_not_hides (hspare (hlink.symm.trans hconn) a) hd
  refine ⟨topic, by rw [discovery_of_path hp]; exact hc, shows_of_path hc (fun l hl => ?_) hp hshows⟩
  constructor <;> rintro rfl
  · exact hspared (hclear _ (.inl hl))
  · exact hspared (hclear _ (.inr hl))

/-- Where the flag is truthful, clearing nothing hides nobody. -/
theorem Truthful.not_hides (h : s.Truthful) (hconn : s.mqtt.connected = true) (a : String) :
    ¬ s.Hides a fun _ => False := by
  rintro ⟨hd, hall⟩
  obtain ⟨topic, hc, hshows⟩ := h hconn a hd
  exact hall topic hc hshows

/-- A call other than the one of a new connection announces what it marks. -/
theorem call_shown (now : Timestamp) (hs : Sound s) {c : Call} (hc : c.FromBridge)
    (hne : c ≠ .mqttConnected) (hconn : s.mqtt.connected = true)
    (hshown : ∀ k, (s.state.stateAt k).discovered = true → s.Shown k)
    (hann : ∀ k, s.state.Flags c k → s.Announceable k)
    (hd : ((s.state.call c).1.stateAt a).discovered = true) :
    (exec (executeActions E now (s.state.call c).2)
      { s with state := (s.state.call c).1 }).2.Shown a := by
  have hsound := hs.call hc
  have hconcern := StateManager.call_concerns hs.keyed hc
  rcases StateManager.flags_of_call hs.keyed c hd with hold | hflag
  · have hbefore : Shown { s with state := (s.state.call c).1 } a := hshown a hold
    refine shown_of_path ?_ (executeActions_takes (E := E) now hconcern) hbefore
    rintro l ⟨x, _, hl⟩ hk
    have hkind := kind_of_of hl
    revert hkind hk
    cases l.kind <;> decide
  · obtain ⟨rest, hactions⟩ := StateManager.discovery_of_flags hs.keyed hne hflag
    rw [hactions] at hconcern ⊢
    have hknown : a ∈ (s.state.call c).1.devices.keys := hconcern _ List.mem_cons_self
    have hann' : Announceable { s with state := (s.state.call c).1 } a := hann a hflag
    have htabled := executeActions_announces (E := E) now hsound hconn (hsound.known a hknown).2
      hann' fun x hx => hconcern x (List.mem_cons_of_mem _ hx)
    exact htabled.shown (hsound.path (executeActions_takes (E := E) now hconcern))

/-- Only a new connection connects MQTT. -/
theorem connected_of_step (hs : Sound s) (hi : i.2 ≠ .mqttConnected)
    (hconn : (step E s i).mqtt.connected = true) : s.mqtt.connected = true := by
  refine (step_path (E := E) hs i).invariant
    (I := fun u => u.mqtt.connected = true → s.mqtt.connected = true) ?_ id hconn
  intro l u hl _ hu hconn
  by_cases hk : l.kind = .mqtt
  · cases l with
    | mqtt connected =>
      cases connected with
      | true => exact absurd hl hi
      | false => cases hconn
    | _ => simp [Label.kind] at hk
  · exact hu ((apply_connected hk).symm.trans hconn)

/-- A step that clears nothing. -/
theorem spares_of_stepLabel (hi : i.2 ≠ .mqttConnected) (hconfig : s.inputConfig i.2 = none)
    (hcommand : s.config.enableMaintenanceButtons = true →
      s.inputBridgeCommand i.2 ≠ some .pruneDiscovery ∧
        s.inputBridgeCommand i.2 ≠ some .resetDiscovery) (l : Label)
    (hl : StepLabel s i.1 i.2 l) : l.kind ∉ [.clear, .reset] := by
  intro hk
  have hkinds : l.kind ∈ s.inputKinds i.2 := by
    cases l with
    | clear t | reset t =>
      rcases hl with h | ⟨c, _, h | ⟨x, _, h⟩⟩
      · exact h
      · exact Label.noConfusion h
      · exact absurd h id
    | _ => simp [Label.kind] at hk
  have hother : ∀ ks : List Kind, ks.all (· ∉ [.clear, .reset]) = true → l.kind ∉ ks :=
    fun ks hks h => of_decide_eq_true (List.all_eq_true.mp hks _ h) hk
  obtain ⟨now, input⟩ := i
  cases input with
  | mqttConnected => exact hi rfl
  | mqttMessage topic payload =>
    simp only [inputKinds] at hkinds
    split at hkinds
    · exact absurd hkinds List.not_mem_nil
    · refine hother _ ?_ hkinds
      unfold maintenanceKinds
      split
      · next henabled =>
        obtain ⟨hprune, hreset⟩ := hcommand henabled
        split
        · next h => exact absurd h hprune
        · next h => exact absurd h hreset
        · rfl
      · rfl
  | mochadLine line =>
    simp only [inputKinds] at hkinds
    split at hkinds <;> exact hother _ rfl hkinds
  | poll monotonic signature loaded =>
    rw [inputKinds, hconfig] at hkinds
    exact hother _ rfl hkinds
  | mqttDisconnected | mochadConnected | mochadDisconnected | stop => exact hother _ rfl hkinds

/-- A step whose call marks nothing leaves the flags alone. -/
theorem discovered_of_step (hs : Sound s)
    (hcall : ∀ c, s.stepCall i.1 i.2 = some c → ¬ c.touches .discover) (k : String) :
    ((step E s i).state.stateAt k).discovered = (s.state.stateAt k).discovered := by
  refine hs.carries (step_path (E := E) hs i)
    (I := fun u => (u.state.stateAt k).discovered = (s.state.stateAt k).discovered) rfl
    fun l u hl _ hu hsame => ?_
  by_cases hk : l.kind = .call
  · cases l with
    | call c =>
      obtain ⟨c', hc', hlabel | ⟨_, _, hlabel⟩⟩ := call_of_stepLabel hl (by simp [callKinds, Label.kind])
      · obtain rfl := Label.call.inj hlabel
        rw [← hsame]
        exact StateManager.discovered_of_path (hcall c hc')
          ((StateManager.call_touches hu.keyed c).device k)
      · exact absurd hlabel id
    | _ => simp [Label.kind] at hk
  · rw [apply_state hk]
    exact hsame

/-- A call other than the one of a new connection keeps the flag truthful. -/
theorem truthful_of_call (now : Timestamp) (hs : Sound s) {c : Call} (hc : c.FromBridge)
    (hne : c ≠ .mqttConnected) (h : s.Truthful)
    (hann : ∀ k, s.state.Flags c k → s.Announceable k) :
    (exec (executeActions E now (s.state.call c).2)
      { s with state := (s.state.call c).1 }).2.Truthful := by
  have hpath := executeActions_takes (E := E) (s := { s with state := (s.state.call c).1 }) now
    (StateManager.call_concerns hs.keyed hc)
  have hkinds : ∀ l : Label, (∃ x ∈ (s.state.call c).2, l.Of x) → l.kind ∉ [.call, .mqtt] := by
    rintro l ⟨x, _, hl⟩ hk
    have hkind := kind_of_of hl
    revert hkind hk
    cases l.kind <;> decide
  have hstate := state_of_path (fun l hl hk => hkinds l hl (by simp [hk])) hpath
  have hlink := hpath.frame (fun u => u.mqtt.connected) fun l u hl _ =>
    apply_connected fun hk => hkinds l hl (by simp [hk])
  intro hconn k hd
  rw [hstate] at hd
  have hconn' : s.mqtt.connected = true := hlink.symm.trans hconn
  exact call_shown now hs hc hne hconn' (h hconn') hann hd

/-- A message with a supported device command keeps the flag truthful, if it
marks no device that cannot be announced. -/
theorem truthful_of_command (hs : Sound s) (hlive : s.crashed = false) (h : s.Truthful)
    {now : Timestamp} {topic payload : String} {c : Command}
    (hm : s.messageCommand topic payload = some (a, c)) (hc : c ∈ (s.deviceAt a).supportedCommands)
    (hann : ∀ k, s.state.Flags (.optimisticUpdate now a c) k → s.Announceable k) :
    (step E s (now, .mqttMessage topic payload)).Truthful := by
  rw [step_callback hlive rfl, callback, exec_onMessage_command hs now hm hc]
  have hsame : ∀ k, (s.withDevice a).state.Flags (.optimisticUpdate now a c) k →
      (s.withDevice a).Announceable k := by
    intro k hk
    rw [Announceable, deviceAt_withDevice]
    exact hann k hk
  exact truthful_of_call (s := s.withDevice a) now (hs.withDevice a)
    (c := .optimisticUpdate now a c) (sendable_of_messageCommand hm) Call.noConfusion h hsame

/-- So does a line with an event. -/
theorem truthful_of_line (hs : Sound s) (hlive : s.crashed = false) (h : s.Truthful)
    {now : Timestamp} {line : String} {c : Call} (hcall : s.stepCall now (.mochadLine line) = some c)
    (hann : ∀ k, s.state.Flags c k → s.Announceable k) :
    (step E s (now, .mochadLine line)).Truthful := by
  have hfrom := fromBridge_of_stepCall hs hcall
  cases hd : lineDiagnostic line with
  | some diagnostic =>
    rw [stepCall, hd] at hcall
    cases hcall
  | none =>
    rw [step_callback hlive rfl, callback, exec_onMochadLine now hd]
    rw [stepCall, hd] at hcall
    cases hp : s.parser.parseLine now (stripChars ['\r', '\n'] line) with
    | error e =>
      rw [hp] at hcall
      cases hcall
    | ok r =>
      obtain ⟨event, parser⟩ := r
      rw [hp] at hcall
      obtain rfl : Call.apply now event = c := Option.some.inj hcall
      have hsound : Sound { s with parser := parser } := hs.apply (E := E) (l := .parser parser)
        (ProtocolParser.parseLine_event hs.parser hp).1
      exact truthful_of_call (s := { s with parser := parser }) now hsound hfrom Call.noConfusion h
        hann

/-- A new connection announces every known device. -/
theorem truthful_of_connect (hs : Sound s) (hlive : s.crashed = false) {now : Timestamp}
    (hann : ∀ k ∈ s.state.devices.keys, s.Announceable k) :
    (step E s (now, .mqttConnected)).Truthful := by
  intro _ k hd
  have hstep : step E s (now, .mqttConnected) = (exec (onConnect E now) s).2 :=
    step_callback hlive rfl
  have hkeys : (step E s (now, .mqttConnected)).state.devices.keys = s.state.devices.keys := by
    refine (step_path (E := E) hs (now, .mqttConnected)).frame (fun u => u.state.devices.keys)
      fun l u hl _ => ?_
    by_cases hk : l.kind = .call
    · cases l with
      | call c =>
        obtain ⟨c', hc', hlabel | ⟨_, _, hlabel⟩⟩ :=
          call_of_stepLabel hl (by simp [callKinds, Label.kind])
        · obtain rfl := Label.call.inj hlabel
          obtain rfl : Call.mqttConnected = c := Option.some.inj hc'
          exact (StateManager.onMqttConnected_notified u.state).keys
        · exact absurd hlabel id
      | _ => simp [Label.kind] at hk
    · exact congrArg (fun sm => sm.devices.keys) (apply_state hk)
  have hknown : k ∈ s.state.devices.keys := by
    rw [← hkeys]
    refine Dict.mem_keys.mpr fun hnone => ?_
    rw [StateManager.stateAt, hnone] at hd
    cases hd
  have htabled := onConnect_tabled (E := E) now hs hann hknown
  rw [← hstep] at htabled
  exact htabled.shown (step_sound hs _)

/-- The steps that neither clear nor mark keep the flag truthful. -/
theorem truthful_of_quiet (hs : Sound s) (h : s.Truthful) (hi : i.2 ≠ .mqttConnected)
    (hconfig : s.inputConfig i.2 = none)
    (hcommand : s.config.enableMaintenanceButtons = true →
      s.inputBridgeCommand i.2 ≠ some .pruneDiscovery ∧
        s.inputBridgeCommand i.2 ≠ some .resetDiscovery)
    (hcall : ∀ c, s.stepCall i.1 i.2 = some c → ¬ c.touches .discover) :
    (step E s i).Truthful := by
  intro hconn k hd
  rw [discovered_of_step hs hcall] at hd
  exact shown_of_path (spares_of_stepLabel hi hconfig hcommand) (step_path hs i)
    (h (connected_of_step hs hi hconn) k hd)

/-- A maintenance command that hides no discovered device keeps the flag truthful. -/
theorem truthful_of_maintenance (hlive : s.crashed = false) {now : Timestamp}
    {topic payload : String} (henabled : s.config.enableMaintenanceButtons = true)
    (hspare : ¬ s.Sweeps (now, .mqttMessage topic payload)) {command : BridgeCommand}
    (hm : s.messageBridgeCommand topic payload = some command)
    (hcommand : command = .pruneDiscovery ∨ command = .resetDiscovery) :
    (step E s (now, .mqttMessage topic payload)).Truthful := by
  have hother : ∀ {l : Label} {k : Kind}, l.kind = k → k ∉ [.call, .mqtt] →
      l.kind ∉ [.call, .mqtt] := fun hk hnot => by rw [hk]; exact hnot
  rw [step_callback hlive rfl, callback, (exec_onMessage_bridge now hm).2]
  rcases hcommand with rfl | rfl
  · refine truthful_of_path s.Stale (fun l hl => ?_) (fun topic' hl => ?_)
      (fun _ a ha => hspare ⟨henabled, .inl ⟨hm, a, ha⟩⟩) (prune_takes now henabled)
    · rcases hl with hk | hk | ⟨topic', rfl, _⟩
      · exact hother hk (by decide)
      · exact hother hk (by decide)
      · exact hother (k := .clear) rfl (by decide)
    · rcases hl with (hk | hk | ⟨_, hk, hstale, _⟩) | (hk | hk | ⟨_, hk, _⟩)
      · exact Kind.noConfusion hk
      · exact Kind.noConfusion hk
      · rw [Label.clear.inj hk]
        exact hstale
      · exact Kind.noConfusion hk
      · exact Kind.noConfusion hk
      · exact Label.noConfusion hk
  · refine truthful_of_path s.Tracked (fun l hl => ?_) (fun topic' hl => ?_)
      (fun _ a ha => hspare ⟨henabled, .inr ⟨hm, a, ha⟩⟩) (reset_takes now henabled)
    · rcases hl with hk | hk | ⟨topic', rfl, _⟩
      · exact hother hk (by decide)
      · exact hother hk (by decide)
      · exact hother (k := .reset) rfl (by decide)
    · rcases hl with (hk | hk | ⟨_, hk, _⟩) | (hk | hk | ⟨_, hk, htracked⟩)
      · exact Kind.noConfusion hk
      · exact Kind.noConfusion hk
      · exact Label.noConfusion hk
      · exact Kind.noConfusion hk
      · exact Kind.noConfusion hk
      · rw [Label.reset.inj hk]
        exact htracked

/-- Publishing the current discovery shows every device of the table. -/
theorem tabled_of_discoveryMessages (hs : Sound s) {ms : List DiscoveryMessage}
    (hms : s.discoveryMessages = .ok ms) (ha : a ∈ s.devices.keys) :
    (s.emitAll (ms.map messageOutput)).Tabled a := by
  obtain ⟨m, hm, htopic⟩ := message_of_listed hs ha hms
  refine ⟨ha, m.topic, htopic, ?_⟩
  refine retained_of_mem (fun payload retain hpublish => ?_) (List.mem_map.mpr ⟨m, hm, rfl⟩)
  obtain ⟨m', hm', ho⟩ := List.mem_map.mp hpublish
  obtain ⟨_, rfl, _⟩ := Output.publish.inj ho
  exact obj_of_announces (mem_discoveryMessages hms hm')

/-- Announcing a new table hides no device that it lists. -/
theorem truthful_of_announceReload (hs : Sound s) (h : s.Truthful)
    (hspare : s.mqtt.connected = true → s.config.discoveryCleanup = true →
      ∀ a, a ∉ s.devices.keys → ¬ s.Hides a (· ∈ s.registered)) :
    (exec (do
      let s ← get
      if s.mqtt.connected then
        let _ ← publishCurrentDiscovery
        let _ ← runDiscoveryCleanup E false
        let s ← get
        publishStatus (.obj s.bridgeStatusPayload) true) s).2.Truthful := by
  rw [exec_bind, exec_get]
  dsimp only
  split
  · next hconn =>
    rw [exec_bind, exec_publishCurrentDiscovery]
    cases hms : s.discoveryMessages with
    | error e => exact h
    | ok ms =>
      dsimp only
      set u := s.emitAll (ms.map messageOutput) with hu
      have hsound : Sound u := hs.of_same rfl rfl rfl rfl rfl rfl rfl
      have hpublish : Path (system E) (Kinds [.config]) s u := by
        have hdoes := publishCurrentDiscovery_does (E := E) (s := s)
        rw [Does, Takes, exec_publishCurrentDiscovery, hms] at hdoes
        exact hdoes
      have hrest : Takes (system E) (fun l => l.kind = .own ∨ u.CleanupLabel false l) (do
          let _ ← runDiscoveryCleanup E false
          let s ← get
          publishStatus (.obj s.bridgeStatusPayload) true) u :=
        .bind ((runDiscoveryCleanup_takes false).mono fun _ => .inr) fun _ _ _ =>
          .get_bind ((publishStatus_does _ true).mono fun _ hl => .inl (List.mem_singleton.mp hl))
      rw [Takes] at hrest
      intro _ a hd
      have hd' : (s.state.stateAt a).discovered = true := by
        rw [state_of_path (fun l hl => ?_) hrest] at hd
        · exact hd
        · rcases hl with hk | hk | ⟨_, rfl, _⟩
          · rw [hk]; decide
          · rw [hk]; decide
          · exact Kind.noConfusion
      by_cases ha : a ∈ s.devices.keys
      · refine Tabled.shown ?_ (hsound.path hrest)
        refine (tabled_of_discoveryMessages hs hms ha).path hsound (fun l hl => ?_) hrest
        rcases hl with hk | hk | ⟨_, rfl, _⟩
        · rw [hk]; decide
        · rw [hk]; decide
        · rw [Label.kind]; decide
      · have hspared : ∃ topic, ConfigTopic s.discovery.discoveryPrefix a topic ∧
            Shows s.journal.outputs topic ∧
              (s.config.discoveryCleanup = true → topic ∉ s.registered) := by
          by_cases hcleanup : s.config.discoveryCleanup = true
          · obtain ⟨topic, hc, hshows, hnot⟩ :=
              spared_of_not_hides (hspare hconn hcleanup a ha) hd'
            exact ⟨topic, hc, hshows, fun _ => hnot⟩
          · obtain ⟨topic, hc, hshows⟩ := h hconn a hd'
            exact ⟨topic, hc, hshows, fun henabled => absurd henabled hcleanup⟩
        obtain ⟨topic, hc, hshows, hnot⟩ := hspared
        have hshows' : Shows u.journal.outputs topic := by
          refine shows_of_path hc (fun l hl => ?_) hpublish hshows
          have hk := List.mem_singleton.mp hl
          constructor <;> rintro rfl <;> exact Kind.noConfusion hk
        have hc' : ConfigTopic u.discovery.discoveryPrefix a topic := hc
        refine ⟨topic, by rw [discovery_of_path hrest]; exact hc',
          shows_of_path hc' (fun l hl => ?_) hrest hshows'⟩
        · rcases hl with hk | hk | ⟨_, rfl, ⟨hlisted, _⟩, henabled⟩
          · constructor <;> rintro rfl <;> exact Kind.noConfusion hk
          · constructor <;> rintro rfl <;> exact Kind.noConfusion hk
          · constructor
            · intro heq
              rw [Label.clear.inj heq] at hlisted
              exact hnot (henabled.resolve_left Bool.noConfusion) hlisted
            · exact Label.noConfusion
  · exact h

/-- A reload that hides no discovered device keeps the flag truthful. -/
theorem truthful_of_reload (hs : Sound s) (hlive : s.crashed = false) (hruns : s.stopping = false)
    (h : s.Truthful) {newConfig : Config} (hi : s.inputConfig i.2 = some newConfig)
    (hspare : ¬ s.Drops i) : (step E s i).Truthful := by
  obtain ⟨next, hstep⟩ := reload_applies (E := E) hlive hruns hi
  set w := (Label.watch s.configFileSignature next).apply s
  have hsound : Sound w := hs.apply (E := E) (l := .watch s.configFileSignature next) trivial
  have hloads : s.loads i = some newConfig := by
    rw [loads, if_neg (by simp [hlive, hruns])]
    exact hi
  have happlied : (exec (applyRuntimeConfig E newConfig) w).2.Truthful := by
    rw [applyRuntimeConfig, exec_bind, exec_get]
    dsimp only
    split
    · exact h
    · rw [exec_bind_ok _ _ _ (exec_modify _ _)]
      refine truthful_of_announceReload (s := w.install newConfig) (hsound.install newConfig) h ?_
      intro hconn hcleanup a ha hhides
      exact hspare ⟨hconn, hcleanup, newConfig, hloads, a, ha, hhides⟩
  refine truthful_of_path (fun _ => False) (fun l hl => ?_) (fun topic hl => ?_)
    (fun hconn a => happlied.not_hides hconn a) hstep
  · rcases List.mem_pair.mp hl with hk | hk <;> rw [hk] <;> decide
  · rcases hl with hl | hl <;> exact absurd hl (by simp [Kinds, Label.kind])

/-- A message that betrays nobody keeps the flag truthful. -/
theorem truthful_of_message (hs : Sound s) (hlive : s.crashed = false) (h : s.Truthful)
    {now : Timestamp} {topic payload : String} (hi : ¬ s.Betrays (now, .mqttMessage topic payload)) :
    (step E s (now, .mqttMessage topic payload)).Truthful := by
  by_cases hmaintain : s.config.enableMaintenanceButtons = true ∧
      ∃ command, s.messageBridgeCommand topic payload = some command ∧
        (command = .pruneDiscovery ∨ command = .resetDiscovery)
  · obtain ⟨henabled, command, hm, hcommand⟩ := hmaintain
    exact truthful_of_maintenance hlive henabled (fun hsweeps => hi (.inr (.inl hsweeps))) hm
      hcommand
  · cases hcall : s.stepCall now (.mqttMessage topic payload) with
    | none =>
      refine truthful_of_quiet hs h Input.noConfusion rfl (fun henabled => ?_) fun c hc => ?_
      · exact ⟨fun hm => hmaintain ⟨henabled, _, hm, .inl rfl⟩,
          fun hm => hmaintain ⟨henabled, _, hm, .inr rfl⟩⟩
      · rw [hcall] at hc
        exact absurd hc (by simp)
    | some call =>
      have hbind := hcall
      simp only [stepCall] at hbind
      obtain ⟨⟨a, c⟩, hm, hc⟩ := Option.bind_eq_some_iff.mp hbind
      dsimp only at hc
      split at hc
      · next hsupported =>
        obtain rfl := Option.some.inj hc
        refine truthful_of_command hs hlive h hm hsupported fun k hk => ?_
        exact by_contra fun hnot => hi (.inl ⟨_, hcall, k, hk, hnot⟩)
      · exact absurd hc (by simp)

/-- So does a turn of the polling loop. -/
theorem truthful_of_poll (hs : Sound s) (hlive : s.crashed = false) (h : s.Truthful)
    {now : Timestamp} {monotonic : Nat} {signature : Option (Int × Nat)}
    {loaded : Except PyError Config} (hi : ¬ s.Betrays (now, .poll monotonic signature loaded)) :
    (step E s (now, .poll monotonic signature loaded)).Truthful := by
  cases hconfig : s.inputConfig (.poll monotonic signature loaded) with
  | none =>
    refine truthful_of_quiet hs h Input.noConfusion hconfig (fun _ => ?_) fun c hc => ?_
    · simp [inputBridgeCommand]
    · simp [stepCall] at hc
  | some newConfig =>
    cases hruns : s.stopping with
    | true =>
      have hsame : step E s (now, .poll monotonic signature loaded) = s := by
        rw [step, hlive, hruns]
        rfl
      rw [hsame]
      exact h
    | false =>
      exact truthful_of_reload hs hlive hruns h hconfig fun hdrops => hi (.inr (.inr hdrops))

/-- Every step that betrays nobody keeps the flag truthful. -/
theorem step_truthful (hs : Sound s) (h : s.Truthful) (hi : ¬ s.Betrays i) :
    (step E s i).Truthful := by
  cases hlive : s.crashed with
  | true =>
    rw [step, if_pos hlive]
    exact h
  | false =>
    obtain ⟨now, input⟩ := i
    have hann : ∀ c, s.stepCall now input = some c → ∀ k, s.state.Flags c k → s.Announceable k :=
      fun c hc k hk => by_contra fun hnot => hi (.inl ⟨c, hc, k, hk, hnot⟩)
    cases input with
    | mqttConnected => exact truthful_of_connect hs hlive fun k hk => hann _ rfl k hk
    | mqttMessage topic payload => exact truthful_of_message hs hlive h hi
    | poll monotonic signature loaded => exact truthful_of_poll hs hlive h hi
    | mochadLine line =>
      cases hcall : s.stepCall now (.mochadLine line) with
      | none =>
        refine truthful_of_quiet hs h Input.noConfusion rfl (fun _ => ?_) fun c hc => ?_
        · simp [inputBridgeCommand]
        · rw [hcall] at hc
          exact absurd hc (by simp)
      | some c => exact truthful_of_line hs hlive h hcall (hann c hcall)
    | mqttDisconnected | mochadConnected | mochadDisconnected | stop =>
      refine truthful_of_quiet hs h Input.noConfusion rfl (fun _ => ?_) fun c hc => ?_
      · simp [inputBridgeCommand]
      · revert hc
        simp only [stepCall]
        first
          | (split
             · simp
             · rintro ⟨⟩
               exact id)
          | (rintro ⟨⟩
             exact Touch.noConfusion)
          | simp

end Steps

/-! ## Runs -/

section Runs
variable {E : Env} {config : Config} {signature : Option (Int × Nat)} {monotonic : Nat}
  {registry : RegistryFile} {journal : Journal} {s₀ s : Bridge} {a : String} {st : DeviceState}

/-- In a run that betrays no discovered device, each one is shown while MQTT is
connected. -/
theorem discovered_shown (h₀ : init E config signature monotonic registry journal = .ok s₀)
    (hr : Run.Reaches (step E) (fun s i => ¬ s.Betrays i) s₀ s) (hconn : s.mqtt.connected = true)
    (hst : s.state.devices.get? a = some st) (hd : st.discovered = true) : s.Shown a := by
  have hsound := init_sound h₀
  have hstart : s₀.Truthful := by
    obtain ⟨_, _, rfl⟩ := init_ok h₀
    exact fun hconn => absurd hconn (by simp)
  have htruthful : s.Truthful :=
    hr.invariant_under (reaches_sound hsound) hstart fun _ _ hs h hi => step_truthful hs h hi
  refine htruthful hconn a ?_
  rw [StateManager.stateAt, hst]
  exact hd

end Runs

/-! ## A lamp that is discovered -/

/-- The lamp is discovered. -/
def lampDiscovered (s : Bridge) : Bool := (s.state.devices.get? "A1").any DeviceState.discovered

theorem discovered_of_lamp {s : Bridge} (h : s.lampDiscovered = true) :
    ∃ st, s.state.devices.get? "A1" = some st ∧ st.discovered = true :=
  (Option.any_eq_true _ _).mp h

/-- The messages of all known devices can be generated. -/
def announceable (s : Bridge) : Bool := s.state.devices.keys.all fun k =>
  (s.discovery.discoveryMessages (s.deviceAt k) s.mochadDiagnostics).toOption.isSome

/-- A new connection betrays nobody if all known devices can be announced. -/
theorem not_betrays_connect {s : Bridge} (h : s.announceable = true) (now : Timestamp) :
    ¬ s.Betrays (now, .mqttConnected) := by
  rintro (⟨c, hc, k, hk, hnot⟩ | ⟨_, h | h⟩ | ⟨_, _, newConfig, hloads, _⟩)
  · obtain rfl := Option.some.inj hc
    have hk' := List.all_eq_true.mp h k hk
    cases hms : s.discovery.discoveryMessages (s.deviceAt k) s.mochadDiagnostics with
    | ok ms => exact hnot ⟨ms, hms⟩
    | error e =>
      rw [hms] at hk'
      exact Bool.noConfusion hk'
  · exact absurd h.1 (by simp [inputBridgeCommand])
  · exact absurd h.1 (by simp [inputBridgeCommand])
  · rw [loads] at hloads
    split at hloads <;> exact absurd hloads (by simp [inputConfig])

theorem discovered_shown_lamp : ∃ s₀, lampBridge = .ok s₀ ∧
    (step {} s₀ (1, .mqttConnected)).Shown "A1" := by
  have hrun : lampBridge.map (fun s₀ => (s₀.announceable,
      (step {} s₀ (1, .mqttConnected)).mqtt.connected,
      (step {} s₀ (1, .mqttConnected)).lampDiscovered)) = .ok (true, true, true) := by
    decide +kernel
  obtain ⟨s₀, h₀, hrun⟩ := map_ok hrun
  simp only [Prod.mk.injEq] at hrun
  obtain ⟨hann, hconn, hdiscovered⟩ := hrun
  obtain ⟨st, hst, hd⟩ := discovered_of_lamp hdiscovered
  exact ⟨s₀, h₀, discovered_shown h₀ (.next .start (not_betrays_connect hann 1)) hconn hst hd⟩

/-- The discovery topics of `A1`. -/
def lampTopics : List String :=
  ["homeassistant/switch/x10_A1/config", "homeassistant/light/x10_A1/config",
    "homeassistant/button/x10_A1/config"]

theorem mem_lampTopics {topic : String} (h : ConfigTopic "homeassistant" "A1" topic) :
    topic ∈ lampTopics := by
  obtain ⟨d, hd, h⟩ := h
  obtain ⟨pre, hpre, h⟩ := bind_ok h
  obtain ⟨uid, huid, h⟩ := bind_ok h
  obtain ⟨k, hk, huid⟩ := bind_ok huid
  cases huid
  cases h
  have hclean : Topics.cleanSegment "homeassistant" = .ok "homeassistant" :=
    Topics.cleanSegment_fixed _ (by simp)
  obtain rfl := Except.ok.inj (hclean.symm.trans hpre)
  obtain rfl : k = "A1" := (Topics.address_ok.mp hk).1.trans hd
  rw [Topics.entityType]
  cases d.entityType <;> decide

/-- The outputs end with a config on a discovery topic of `A1`. -/
def lampShown (os : List Output) : Bool := lampTopics.any fun topic =>
  match retained os topic with
  | some (.obj _) => true
  | _ => false

theorem lampShown_of_shown {s : Bridge} (hhome : s.discovery.discoveryPrefix = "homeassistant")
    (h : s.Shown "A1") : lampShown s.journal.outputs = true := by
  obtain ⟨topic, hc, payload, hretained, fields, rfl⟩ := h
  rw [hhome] at hc
  refine List.any_eq_true.mpr ⟨topic, mem_lampTopics hc, ?_⟩
  rw [hretained]

/-- With cleanups enabled, a reload that removes the lamp clears its config, and
leaves it discovered. -/
theorem reloaded_lamp_hidden : ∃ s₀,
    init {} { Config.watched "A1:Lamp" with discoveryCleanup := true } none 0 .absent = .ok s₀ ∧
    (Run.exec (step {}) s₀ [(1, .mqttConnected), emptied]).mqtt.connected = true ∧
    (∃ st, (Run.exec (step {}) s₀ [(1, .mqttConnected), emptied]).state.devices.get? "A1" =
      some st ∧ st.discovered = true) ∧
    ¬ (Run.exec (step {}) s₀ [(1, .mqttConnected), emptied]).Shown "A1" := by
  have hrun : (init {} { Config.watched "A1:Lamp" with discoveryCleanup := true } none 0
      .absent).map (fun s₀ =>
        let s := Run.exec (step {}) s₀ [(1, .mqttConnected), emptied]
        (s.mqtt.connected, s.lampDiscovered, s.discovery.discoveryPrefix,
          lampShown s.journal.outputs)) = .ok (true, true, "homeassistant", false) := by
    decide +kernel
  obtain ⟨s₀, h₀, hrun⟩ := map_ok hrun
  simp only [Prod.mk.injEq] at hrun
  obtain ⟨hconn, hdiscovered, hhome, hhidden⟩ := hrun
  refine ⟨s₀, h₀, hconn, discovered_of_lamp hdiscovered, fun hshown => ?_⟩
  rw [lampShown_of_shown hhome hshown] at hhidden
  exact Bool.noConfusion hhidden

end Bridge

end MochadBridge
