import Mathlib.Algebra.GroupWithZero.Nat
import MochadBridge.DiscoveryTopics
import MochadBridge.PendingCommands

/-!
# Removed devices

A reload replaces the device table of the bridge, not the devices the state
manager knows, and a lookup of an address that the table lacks adds it again. So
a device that a reload removed comes back when MQTT connects while the state
manager knows it, or when a health report flushes a command for it.

Results:
1. `Gone.apply`: a label that does not add the device to the table leaves it gone
   and announces nothing about it.
2. `step_gone`: nor does a step that brings nothing about the device and looks
   nothing up (`Revives`).
3. `stays_removed`: so a run of such steps never announces it again.
-/

namespace MochadBridge

open Py Effect

namespace Bridge

/-- Nothing but empty messages is published on a discovery topic of the device. -/
def Withheld (pre a : String) (os : List Output) : Prop :=
  ∀ topic payload retain, .publish topic payload retain ∈ os → ConfigTopic pre a topic →
    payload = .str ""

/-- The device is not in the table, and nothing was announced about it since the
outputs were `base`. -/
structure Gone (a : String) (base : List Output) (s : Bridge) : Prop where
  absent : s.devices.get? a = none
  withheld : ∃ later, s.journal.outputs = base ++ later ∧
    Withheld s.discovery.discoveryPrefix a later

/-- The label does not put the device into the table. -/
def Spares (a : String) (s : Bridge) : Label → Prop
  | .insert b | .commanded b | .direct b _ _ => b ≠ a
  | .install newConfig => (s.install newConfig).devices.get? a = none
  | .resume _ => ∀ q rest, s.queuedDeviceCommands = q :: rest → q.address ≠ a
  | _ => True

/-! ## Labels -/

section Labels
variable {E : Env} {s : Bridge} {l : Label} {a pre : String} {base : List Output}

theorem Withheld.append {os os' : List Output} (h : Withheld pre a os) (h' : Withheld pre a os') :
    Withheld pre a (os ++ os') := fun topic payload retain hm =>
  (List.mem_append.mp hm).elim (h topic payload retain) (h' topic payload retain)

/-- No device topic and no topic of the bridge itself is a discovery topic. -/
theorem not_configTopic_of_device {device suffix base topic : String}
    (h : Topics.deviceTopic device suffix base = .ok topic)
    (hs : suffix ∈ ["state", "event", "attributes"]) : ¬ ConfigTopic pre a topic :=
  fun ⟨_, _, htopic⟩ => (Topics.isDiscovery_discovery htopic).not_device hs h

theorem not_configTopic_of_own {suffix base topic : String}
    (h : Topics.bridgeTopic suffix base = .ok topic)
    (hs : suffix ∈ ["availability", "status", "response"]) : ¬ ConfigTopic pre a topic :=
  fun ⟨_, _, htopic⟩ => (Topics.isDiscovery_discovery htopic).not_own hs h

/-- A message that is announced is not for a device that the table lacks. -/
theorem not_configTopic_of_announces (hs : Sound s) (ha : s.devices.get? a = none)
    {m : DiscoveryMessage} (h : s.Announces m) :
    ¬ ConfigTopic s.discovery.discoveryPrefix a m.topic := by
  rcases h with ⟨k, d, ms, hk, hms, hm⟩ | ⟨ms, hms, hm⟩
  · rw [DiscoveryManager.configTopic_of_device hms hm]
    obtain ⟨hd, hn⟩ := hs.table k d hk
    rw [hd, hn]
    rintro rfl
    rw [hk] at ha
    cases ha
  · exact DiscoveryManager.not_configTopic_of_bridge hms hm

/-- While the table lacks the device, labels publish nothing about it. -/
theorem withheld_outputs (hs : Sound s) (hg : l.guard E s) (ha : s.devices.get? a = none) :
    Withheld s.discovery.discoveryPrefix a (l.outputs s) := by
  intro topic payload retain hm hc
  rcases publish_of_outputs hm with rfl | ⟨b, rfl⟩ | ⟨b, c, rfl, _⟩ | ⟨m, rfl, rfl, _⟩ | ⟨_, hp, _⟩
  · obtain ⟨suffix, hsuffix, htopic⟩ := hg
    exact absurd hc (not_configTopic_of_own htopic hsuffix)
  · rcases hg.2 with htopic | htopic
    · exact absurd hc (not_configTopic_of_device htopic (by simp))
    · exact absurd hc (not_configTopic_of_device htopic (by simp))
  · exact absurd hc (not_configTopic_of_device hg.2 (by simp))
  · exact absurd hc (not_configTopic_of_announces hs ha hg)
  · exact hp

theorem absent_withDevice {b : String} (ha : s.devices.get? a = none) (hb : normalize b ≠ a) :
    (s.withDevice b).devices.get? a = none := by
  rw [Bridge.withDevice, Dict.get?_insert_of_ne _ _ hb]
  exact ha

/-- A label that spares the device leaves it out of the table. -/
theorem absent_apply (hs : Sound s) (hg : l.guard E s) (hl : s.Spares a l)
    (ha : s.devices.get? a = none) : (l.apply s).devices.get? a = none := by
  have haddress : ∀ {b c}, Protocol.Sendable b c → b ≠ a → normalize b ≠ a := fun hb hne => by
    rwa [StateManager.normalize_of_isAddress hb.1]
  cases l with
  | insert b =>
    refine absent_withDevice ha ?_
    rw [(hs.known b hg).2]
    exact hl
  | commanded b =>
    refine absent_withDevice ha ?_
    rw [StateManager.normalize_of_isAddress hg]
    exact hl
  | direct b c sent => exact absent_withDevice (s := s.accept b c) ha (haddress hg.2.1 hl)
  | resume sent =>
    obtain ⟨_, q, rest, hq, _⟩ := hg
    have hsend := (hs.queue q (by rw [hq]; exact List.mem_cons_self)).2
    have hgone := absent_withDevice ha (haddress hsend (hl q rest hq))
    simp only [Label.apply, Bridge.resume, hq]
    exact hgone
  | install newConfig => exact hl
  | enqueue b c =>
    simp only [Label.apply, Bridge.enqueue]
    split
    · split <;> exact ha
    · exact ha
  | mqtt connected => cases connected <;> exact ha
  | _ => exact ha

/-- A label that spares the device leaves it gone. -/
theorem Gone.apply (h : Gone a base s) (hs : Sound s) (hg : l.guard E s) (hl : s.Spares a l) :
    Gone a base (l.apply s) where
  absent := absent_apply hs hg hl h.absent
  withheld := by
    obtain ⟨later, heq, hlater⟩ := h.withheld
    refine ⟨later ++ l.outputs s, by rw [outputs_apply, heq, List.append_assoc], ?_⟩
    rw [apply_discovery]
    exact hlater.append (withheld_outputs hs hg h.absent)

/-- Labels of kinds that never touch the table. -/
theorem spares_of_kinds {ks : List Kind}
    (h : ks.all (· ∉ [.insert, .commanded, .command, .install, .resume]) = true)
    (hl : Kinds ks l) : s.Spares a l := by
  have hkind := List.all_eq_true.mp h l.kind hl
  cases l <;> first | exact trivial | exact absurd hkind (by simp [Label.kind])

end Labels

/-! ## Conditions on a step -/

/-- The input brings nothing about the device: no command for it, no event or
snapshot that mentions it, no configuration that lists it. -/
structure Silent (a : String) (s : Bridge) (i : Timestamp × Input) : Prop where
  command : ∀ c, s.inputCommand i.2 ≠ some (a, c)
  call : ∀ c, s.stepCall i.1 i.2 = some c → mentions a c = false
  config : ∀ newConfig, s.inputConfig i.2 = some newConfig →
    (s.install newConfig).devices.get? a = none

/-- A flush of the queue gets to a command for the device: the sends of the
commands before it do not fail. -/
def FlushReaches (E : Env) (a : String) (s : Bridge) : Prop :=
  s.deviceCommandQueueReason = none ∧ ∃ before q after,
    s.queuedDeviceCommands = before ++ q :: after ∧ q.address = a ∧
      ∀ n < (before.map fun q => repeats (s.deviceAt q.address) q.command).sum,
        E.sendFault (s.journal.sends.length + n) = none

/-- The step looks the device up: MQTT connects while the state manager knows
it, or a health report whose discovery succeeds flushes a command for it. -/
def Revives (E : Env) (a : String) (s : Bridge) (i : Timestamp × Input) : Prop :=
  s.crashed = false ∧
    match i.2 with
    | .mqttConnected => s.Known a
    | .mochadLine line => ∃ payload, lineDiagnostic line = some (payload, .health) ∧
        (s.merged payload i.1).FlushReaches E a ∧
        ¬ (s.mqtt.connected = true ∧ ∃ e, (s.merged payload i.1).discoveryMessages = .error e)
    | _ => False

/-- The step reloads a configuration that does not list the device. -/
def Removes (a : String) (s : Bridge) (i : Timestamp × Input) : Prop :=
  s.crashed = false ∧ s.stopping = false ∧ ∃ newConfig, s.inputConfig i.2 = some newConfig ∧
    (s.install newConfig).devices.get? a = none

/-! ## Steps -/

section Steps
variable {E : Env} {s t : Bridge} {a : String} {base : List Output}

/-- Labels of kinds that never touch the table leave the device gone. -/
theorem gone_of_kinds {ks : List Kind}
    (h : ks.all (· ∉ [.insert, .commanded, .command, .install, .resume]) = true) (hs : Sound s)
    (hgone : Gone a base s) (hp : Path (system E) (Kinds ks) s t) : Gone a base t :=
  hs.carries hp hgone fun _ _ hl hg hu hgone => hgone.apply hu hg (spares_of_kinds h hl)

/-- The kinds of an input that is no diagnostic line never touch the table. -/
theorem kinds_of_input {i : Input} (hi : ∀ line, i = .mochadLine line → lineDiagnostic line = none) :
    (s.inputKinds i).all (· ∉ [.insert, .commanded, .command, .install, .resume]) = true := by
  cases i with
  | mqttMessage topic payload =>
    simp only [inputKinds]
    split
    · rfl
    · rcases s.maintenanceKinds_cases (s.messageBridgeCommand topic payload) with hk | hk | hk <;>
        rw [hk] <;> rfl
  | mochadLine line =>
    rw [inputKinds, hi line rfl]
    rfl
  | poll monotonic signature loaded =>
    simp only [inputKinds]
    split <;> rfl
  | _ => rfl

/-- The labels of the actions of a call that is silent about the device. -/
theorem spares_of_call (hs : Sound s) {c : Call} (hm : mentions a c = false)
    (hc : c = .mqttConnected → ¬ s.Known a) {l : Label} (h : s.CallLabel c l) (u : Bridge) :
    u.Spares a l := by
  rcases h with rfl | ⟨x, hx, hl⟩
  · trivial
  · cases l with
    | insert b =>
      rintro rfl
      rw [hl] at hx
      rcases StateManager.discovery_of_call hs.keyed hx with h | ⟨rfl, hk⟩
      · rw [hm] at h
        exact Bool.noConfusion h
      · exact hc rfl hk
    | direct b command sent =>
      rintro rfl
      rw [hl] at hx
      obtain ⟨now, a', rfl, hn, _⟩ := StateManager.sends_of_call hs.keyed hx
      rw [mentions, decide_eq_false_iff_not] at hm
      exact hm hn
    | own | dropped | report | state | config | line | enqueue => trivial
    | _ => exact absurd hl id

/-- The labels of a silent step, apart from a flush, spare the device. -/
theorem spares_of_step (hs : Sound s) (hlive : s.crashed = false) {i : Timestamp × Input}
    (hq : s.Silent a i) (hr : ¬ s.Revives E a i)
    (hi : ∀ line, i.2 = .mochadLine line → lineDiagnostic line = none) {l : Label}
    (h : StepLabel s i.1 i.2 l) {u : Bridge}
    (hu : u.config.x10Housecodes = s.config.x10Housecodes) : u.Spares a l := by
  have hother : (l.kind ∈ s.inputKinds i.2 ∨ ∃ c, s.stepCall i.1 i.2 = some c ∧ s.CallLabel c l) →
      u.Spares a l := by
    rintro (h | ⟨c, hc, h⟩)
    · exact spares_of_kinds (kinds_of_input hi) h
    · refine spares_of_call hs (hq.call c hc) ?_ h u
      rintro rfl hk
      have hinput := mqttConnected_of_stepCall hc
      refine hr ⟨hlive, ?_⟩
      rw [hinput]
      exact hk
  cases l with
  | commanded b =>
    rintro rfl
    obtain ⟨ac, hac, hfst⟩ := Option.map_eq_some_iff.mp h
    exact hq.command ac.2 (by rw [hac, ← hfst])
  | install newConfig =>
    rw [Spares, install_devices_congr hu]
    exact hq.config newConfig h
  | mqtt | mochad => trivial
  | _ => exact hother h

/-! ### Flushing -/

/-- The head of the queue goes through, and the flush gets no further than
before. -/
theorem flushReaches_cons {q : QueuedCommand} {rest : List QueuedCommand}
    (hq : s.queuedDeviceCommands = q :: rest) (hr : s.deviceCommandQueueReason = none)
    {sent : Nat} (hsends : SendsUpTo E s.journal.sends.length sent
      (repeats (s.deviceAt q.address) q.command))
    (heq : sent = repeats (s.deviceAt q.address) q.command)
    (h : (s.resume sent).FlushReaches E a) : s.FlushReaches E a := by
  obtain ⟨_, before, q', after, hqueue, haddr, hfaults⟩ := h
  rw [resume_queue hq, if_neg (not_lt.mpr heq.ge)] at hqueue
  have hat : ∀ b, (s.resume sent).deviceAt b = s.deviceAt b := by
    intro b
    simp only [Bridge.resume, hq]
    exact deviceAt_withDevice b q.address
  have hlen : (s.resume sent).journal.sends.length = s.journal.sends.length + sent := by
    simp only [Bridge.resume, hq, transmit, wrote, attemptCalls, List.length_append,
      List.length_map, List.length_range', ← heq, Nat.min_eq_right (Nat.le_succ sent)]
    rfl
  refine ⟨hr, q :: before, q', after, by rw [hq, hqueue, List.cons_append], haddr, fun n hn => ?_⟩
  rw [List.map_cons, List.sum_cons, ← heq] at hn
  by_cases hlt : n < sent
  · exact hsends.through n hlt
  · have hrest := hfaults (n - sent) (by simp only [hat]; omega)
    rw [hlen] at hrest
    rwa [show s.journal.sends.length + sent + (n - sent) = s.journal.sends.length + n by omega]
      at hrest

/-- A flush that does not get to a command for the device leaves it gone. -/
theorem flushLoop_gone (hs : Sound s) (hr : s.deviceCommandQueueReason = none)
    {qs : List QueuedCommand} (hq : s.queuedDeviceCommands = qs) (hgone : Gone a base s)
    (hn : ¬ s.FlushReaches E a) : Gone a base (exec (flushLoop E qs) s).2 ∧
      Sound (exec (flushLoop E qs) s).2 := by
  induction qs generalizing s with
  | nil => exact ⟨hgone, hs⟩
  | cons q rest ih =>
    have hsend := (hs.queue q (by rw [hq]; exact List.mem_cons_self)).2
    obtain ⟨sent, hsends, hout⟩ := exec_flush_head (E := E) hq hr hsend
    have hne : q.address ≠ a := by
      rintro rfl
      exact hn ⟨hr, [], q, rest, hq, rfl, nofun⟩
    have hguard : (Label.resume sent).guard E s := ⟨hr, q, rest, hq, hsends⟩
    have hhead : Gone a base (s.resume sent) := hgone.apply (l := .resume sent) hs hguard
      fun q' rest' hq' => by
        obtain ⟨rfl, _⟩ := List.cons.inj (hq.symm.trans hq')
        exact hne
    rcases hout with ⟨heq, hex⟩ | ⟨_, hex⟩
    · rw [hex]
      refine ih (hs.resume sent) (by rw [resume_reason]; exact hr) ?_ hhead fun h => ?_
      · rw [resume_queue hq, if_neg (not_lt.mpr heq.ge)]
      · exact hn (flushReaches_cons hq hr hsends heq h)
    · rw [hex]
      exact ⟨hhead, hs.resume sent⟩

theorem flush_gone (hs : Sound s) (hgone : Gone a base s) (hn : ¬ s.FlushReaches E a) :
    Gone a base (exec (flushQueuedDeviceCommands E) s).2 := by
  rw [flushQueuedDeviceCommands, exec_bind, exec_get]
  dsimp only
  split
  · exact hgone
  · split
    · exact hgone
    · next hr =>
      have hr' : s.deviceCommandQueueReason = none := by simpa using hr
      have hloop := flushLoop_gone (E := E) hs hr' rfl hgone hn
      rw [exec_bind]
      generalize exec (flushLoop E s.queuedDeviceCommands) s = outcome at hloop
      obtain ⟨result, t⟩ := outcome
      cases result with
      | error e => exact hloop.1
      | ok drained =>
        dsimp only
        split
        · exact gone_of_kinds (E := E) rfl hloop.2 hloop.1 publishOwnStatus_does
        · exact hloop.1

/-- Publishing leaves alone what a flush depends on. -/
theorem flushReaches_of_path {ks : List Kind}
    (h : ks.all (· ∈ [.own, .config, .registry]) = true) (hp : Path (system E) (Kinds ks) s t) :
    t.FlushReaches E a → s.FlushReaches E a := by
  have hkind : ∀ l, Kinds ks l → l.kind ∈ [.own, .config, .registry] := fun l hl =>
    of_decide_eq_true (List.all_eq_true.mp h l.kind hl)
  have hquiet := quiet_path (fun l hl => by
    have hk := hkind l hl
    rw [Quiet]
    revert hk
    generalize l.kind = k
    cases k <;> simp) hp
  have hdevices : t.devices = s.devices := hp.frame Bridge.devices fun l u hl _ => by
    have hk := hkind l hl
    cases l <;> first | rfl | exact absurd hk (by simp [Label.kind])
  have hsends : t.journal.sends = s.journal.sends := hp.frame (·.journal.sends) fun l u hl _ => by
    have hk := hkind l hl
    cases l <;> first | rfl | exact absurd hk (by simp [Label.kind])
  have hat : ∀ b, t.deviceAt b = s.deviceAt b := fun b => by simp only [deviceAt, hdevices]
  rintro ⟨hr, before, q, after, hqueue, haddr, hfaults⟩
  rw [hquiet.1] at hr
  rw [hquiet.2] at hqueue
  simp only [hat, hsends] at hfaults
  exact ⟨hr, before, q, after, hqueue, haddr, hfaults⟩

/-- A diagnostic object whose flush does not get to a command for the device. -/
theorem handleDiagnostics_gone (hs : Sound s) (hgone : Gone a base s) (now : Timestamp)
    (payload : List (String × Json)) (kind : DiagnosticKind)
    (hn : kind = .health → (s.merged payload now).FlushReaches E a →
      s.mqtt.connected = true ∧ ∃ e, (s.merged payload now).discoveryMessages = .error e) :
    Gone a base (exec (handleDiagnostics E now payload kind) s).2 := by
  have hsound := merged_sound hs payload now
  have hmerged : Gone a base (s.merged payload now) :=
    hgone.apply (E := E) (l := .diagnostics _) hs trivial trivial
  have hpath := publishDiagnostics_does (E := E) (s := s.merged payload now) kind
  have hraises := publishDiagnostics_raises (E := E) hsound
  rw [exec_handleDiagnostics]
  generalize hrun : exec (publishDiagnostics E kind) (s.merged payload now) = outcome
  rw [Does, Takes, hrun] at hpath
  have hgone' := gone_of_kinds rfl hsound hmerged hpath
  obtain ⟨result, t⟩ := outcome
  cases result with
  | error e => exact hgone'
  | ok u =>
    dsimp only
    split
    · next hkind =>
      subst hkind
      refine flush_gone (hsound.path hpath) hgone' fun h => ?_
      have hreaches := flushReaches_of_path rfl hpath h
      rw [hrun] at hraises
      obtain ⟨e, he⟩ := hraises.mpr (hn rfl hreaches)
      cases he
    · exact hgone'

/-- A silent step that looks nothing up leaves the device gone. -/
theorem step_gone (hs : Sound s) (hgone : Gone a base s) {i : Timestamp × Input}
    (hq : s.Silent a i) (hr : ¬ s.Revives E a i) : Gone a base (step E s i) := by
  by_cases hcrashed : s.crashed = true
  · rw [step, if_pos hcrashed]
    exact hgone
  · have hlive : s.crashed = false := by simpa using hcrashed
    by_cases hi : ∀ line, i.2 = .mochadLine line → lineDiagnostic line = none
    · refine (hs.carries (I := fun u => Gone a base u ∧
        u.config.x10Housecodes = s.config.x10Housecodes) (step_path hs i) ⟨hgone, rfl⟩
        fun l u hl hg hu hinv => ⟨?_, ?_⟩).1
      · exact hinv.1.apply hu hg (spares_of_step hs hlive hq hr hi hl hinv.2)
      · rw [apply_housecodes]
        exact hinv.2
    · obtain ⟨now, i⟩ := i
      obtain ⟨line, rfl, hd⟩ : ∃ line, i = .mochadLine line ∧ lineDiagnostic line ≠ none := by
        simpa using hi
      obtain ⟨⟨payload, kind⟩, hd⟩ := Option.ne_none_iff_exists'.mp hd
      rw [step_callback hlive rfl, callback, exec_onMochadLine_diagnostic now hd]
      refine handleDiagnostics_gone hs hgone now payload kind fun hkind hreaches => ?_
      subst hkind
      by_contra hfails
      exact hr ⟨hlive, payload, hd, hreaches, hfails⟩

/-- The reload that removes the device announces nothing about it any more. -/
theorem gone_of_removes (hs : Sound s) {i : Timestamp × Input} (h : s.Removes a i) :
    Gone a s.journal.outputs (step E s i) := by
  obtain ⟨hlive, hruns, newConfig, hloads, ha⟩ := h
  obtain ⟨u, hinstall, hdevices, hrest⟩ := reload_path (E := E) hlive hruns hloads
  have hquiet : u.journal.outputs = s.journal.outputs :=
    hinstall.frame (·.journal.outputs) fun l v hl _ => by
      rcases hl with rfl | hl
      · rfl
      · cases l <;> first | rfl | simp [Label.kind] at hl
  have hgone : Gone a s.journal.outputs u :=
    ⟨by rw [hdevices]; exact ha, [], by rw [hquiet, List.append_nil],
      fun _ _ _ hm => absurd hm List.not_mem_nil⟩
  exact gone_of_kinds rfl (hs.path hinstall) hgone hrest

end Steps

/-! ## Runs -/

section Runs
variable {E : Env} {config : Config} {signature : Option (Int × Nat)} {monotonic : Nat}
  {registry : RegistryFile} {journal : Journal} {s₀ s : Bridge} {a : String}

/-- No step changes how discovery is set up. -/
theorem step_discovery (h : Sound s) (i : Timestamp × Input) :
    (step E s i).discovery = s.discovery :=
  (step_path h i).frame Bridge.discovery fun l u _ _ => apply_discovery l u

theorem reaches_discovery {ok : Bridge → Timestamp × Input → Prop} {t : Bridge} (h : Sound s)
    (hr : Run.Reaches (step E) ok s t) : t.discovery = s.discovery :=
  hr.invariant_under (I := fun u => u.discovery = s.discovery) (reaches_sound h) rfl
    fun _ i hs hd _ => (step_discovery hs i).trans hd

/-- Once a reload has removed the device, it is never announced again in a run
whose steps bring nothing about it and do not look it up. -/
theorem stays_removed (h₀ : init E config signature monotonic registry journal = .ok s₀)
    (hr : Run.Reaches (step E) (fun _ _ => True) s₀ s) {i : Timestamp × Input}
    (hi : s.Removes a i) {t : Bridge}
    (ht : Run.Reaches (step E) (fun u j => u.Silent a j ∧ ¬ u.Revives E a j) (step E s i) t) :
    ∃ later, t.journal.outputs = s.journal.outputs ++ later ∧
      Withheld config.mqttDiscoveryPrefix a later := by
  have hs := reaches_sound (init_sound h₀) hr
  have hs' := step_sound (E := E) hs i
  have hgone : Gone a s.journal.outputs t :=
    ht.invariant_under (B := Sound) (reaches_sound hs') (gone_of_removes hs hi)
      fun u j hu hgone hj => step_gone hu hgone hj.1 hj.2
  have hpre : t.discovery.discoveryPrefix = config.mqttDiscoveryPrefix := by
    rw [reaches_discovery hs' ht, step_discovery hs i, reaches_discovery (init_sound h₀) hr]
    obtain ⟨_, file, rfl⟩ := init_ok h₀
    rfl
  obtain ⟨later, heq, hlater⟩ := hgone.withheld
  rw [hpre] at hlater
  exact ⟨later, heq, hlater⟩

end Runs

/-! ## A lamp that is removed -/

/-- A reload of a config file that lists no devices. -/
def emptied : Timestamp × Input := (1, .poll 5000000 (some (1, 2)) (.ok (.plain "")))

/-- The outputs announce `A1`. -/
def announcesLamp (os : List Output) : Bool :=
  os.any fun
    | .publish topic (.obj _) _ => topic == "homeassistant/switch/x10_A1/config"
    | _ => false

theorem not_withheld_lamp {os : List Output} (h : announcesLamp os = true) :
    ¬ Withheld "homeassistant" "A1" os := by
  intro hw
  obtain ⟨o, ho, hmatch⟩ := List.any_eq_true.mp h
  split at hmatch
  · next topic fields retain =>
    obtain rfl := eq_of_beq hmatch
    have hconfig : ConfigTopic "homeassistant" "A1" "homeassistant/switch/x10_A1/config" :=
      ⟨.unlisted "A1", by decide, by decide⟩
    exact Json.noConfusion (hw _ _ _ ho hconfig)
  · cases hmatch

/-- A new connection brings nothing about a device. -/
theorem silent_of_link (s : Bridge) (a : String) (now : Timestamp) {i : Input}
    (hi : i = .mqttConnected ∨ i = .mochadConnected) : s.Silent a (now, i) := by
  have hnone : s.inputCommand i = none ∧ s.inputConfig i = none := by
    rcases hi with rfl | rfl <;> exact ⟨rfl, rfl⟩
  refine ⟨fun c hc => ?_, fun c hc => ?_, fun newConfig hc => ?_⟩
  · rw [hnone.1] at hc
    cases hc
  · rcases hi with rfl | rfl
    · rw [← Option.some.inj hc]
      rfl
    · simp only [stepCall] at hc
      split at hc
      · cases hc
      · rw [← Option.some.inj hc]
        rfl
  · rw [hnone.2] at hc
    cases hc

/-- A reload of a file without devices removes every device. -/
theorem removes_emptied {s : Bridge} (h : (s.crashed, s.stopping, (s.inputConfig emptied.2).isSome) =
    (false, false, true)) (a : String) : s.Removes a emptied := by
  simp only [Prod.mk.injEq] at h
  obtain ⟨hlive, hruns, hloads⟩ := h
  obtain ⟨newConfig, hc⟩ := Option.isSome_iff_exists.mp hloads
  refine ⟨hlive, hruns, newConfig, hc, ?_⟩
  rw [emptied, inputConfig] at hc
  split at hc
  · rw [← Option.some.inj hc]
    rfl
  · cases hc

/-- A new bridge with a config file that lists `A1`. -/
def lampBridge : Except PyError Bridge := init {} (.watched "A1:Lamp") none 0 .absent

theorem removes_lampBridge : ∃ s, lampBridge = .ok s ∧ s.Removes "A1" emptied := by
  have hrun : lampBridge.map (fun s => (s.crashed, s.stopping, (s.inputConfig emptied.2).isSome)) =
      .ok (false, false, true) := by
    decide +kernel
  obtain ⟨s, hs, h⟩ := map_ok hrun
  exact ⟨s, hs, removes_emptied h "A1"⟩

theorem stays_removed_lamp : ∃ s, lampBridge = .ok s ∧ ∃ later,
    (step {} (step {} s emptied) (2, .mochadConnected)).journal.outputs =
      s.journal.outputs ++ later ∧ Withheld "homeassistant" "A1" later := by
  obtain ⟨s, hs, hremoves⟩ := removes_lampBridge
  refine ⟨s, hs, stays_removed hs .start hremoves (.next .start ⟨?_, ?_⟩)⟩
  · exact silent_of_link _ _ _ (.inr rfl)
  · exact fun h => h.2

/-- After a reload has removed `A1`, a new MQTT connection announces it. -/
theorem removed_lamp_announced : ∃ s, lampBridge = .ok s ∧ s.Removes "A1" emptied ∧
    (step {} s emptied).Silent "A1" (2, .mqttConnected) ∧
    ¬ ∃ later, (step {} (step {} s emptied) (2, .mqttConnected)).journal.outputs =
      s.journal.outputs ++ later ∧ Withheld "homeassistant" "A1" later := by
  have hrun : lampBridge.map (fun s => announcesLamp ((step {} (step {} s emptied)
      (2, .mqttConnected)).journal.outputs.drop s.journal.outputs.length)) = .ok true := by
    decide +kernel
  obtain ⟨s, hs, hremoves⟩ := removes_lampBridge
  rw [hs] at hrun
  refine ⟨s, hs, hremoves, silent_of_link _ _ _ (.inl rfl), ?_⟩
  rintro ⟨later, heq, hlater⟩
  refine not_withheld_lamp ?_ hlater
  rw [Except.map, Except.ok.injEq, heq, List.drop_left] at hrun
  exact hrun

end Bridge

end MochadBridge
