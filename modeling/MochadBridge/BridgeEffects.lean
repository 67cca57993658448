import MochadBridge.ActionSpec
import MochadBridge.BridgeOutcomes

/-!
# What the methods of the bridge do

A `Label` is one elementary change of the bridge, with a guard that says what is
known when it happens. Each method takes a path of labels of certain kinds
(`Does`), and the execution of an action one of labels of this action
(`Label.Of`). The theorems about runs cite these lemmas and never unfold a
method.

Results:
1. `Sound.apply`: every label keeps the bridge sound.
2. `runDiscoveryCleanup_does`, `flushQueuedDeviceCommands_does` and their kin:
   the kinds of labels of each method.
3. `executeActions_takes`, `calls_takes`: the labels of the actions of a call.
-/

namespace MochadBridge

open Py Effect

namespace Bridge

/-! ## Labels -/

/-- Count a command as accepted; its ticket is the count before. -/
def accept (s : Bridge) (a : String) (c : Command) : Bridge :=
  { s with journal := { s.journal with accepted := s.journal.accepted ++ [(a, c)] } }

/-- Append a command to the queue; a full queue drops its oldest one. -/
def enqueue (s : Bridge) (queued : QueuedCommand) : Bridge :=
  match s.queuedDeviceCommands with
  | dropped :: rest =>
    if maxQueuedDeviceCommands ≤ (dropped :: rest).length then
      { s with
        queuedDeviceCommands := rest ++ [queued]
        droppedDeviceCommands := s.droppedDeviceCommands + 1
        journal := { s.journal with evicted := s.journal.evicted ++ [dropped.ticket] } }
    else { s with queuedDeviceCommands := dropped :: rest ++ [queued] }
  | [] => { s with queuedDeviceCommands := [queued] }

/-- Transmit the oldest command of the queue; it stays there unless all its
lines were written. -/
def resume (s : Bridge) (sent : Nat) : Bridge :=
  match s.queuedDeviceCommands with
  | queued :: rest =>
    { s.transmit queued.ticket queued.address queued.command sent with
      queuedDeviceCommands :=
        if sent < repeats (s.deviceAt queued.address) queued.command then queued :: rest
        else rest }
  | [] => s

/-- The bridge with the device table of a reloaded configuration. -/
def install (s : Bridge) (newConfig : Config) : Bridge :=
  { s with
    config := { s.config with
      devices := newConfig.devices
      configured := newConfig.configured
      useFriendlyNames := newConfig.useFriendlyNames }
    devices := newConfig.devices.filterKeys (addressAllowedByConfig s.config) }

/-- One elementary change of the bridge. -/
inductive Label where
  | own (topic : String) (payload : Json) (retain : Bool)
  | dropped
  | report (address topic : String) (payload : Json) (retain : Bool)
  | state (address : String) (command : Command) (topic : String) (retain : Bool)
  | config (message : DiscoveryMessage)
  | clear (topic : String)
  | reset (topic : String)
  | visit (file : RegistryFile)
  | insert (address : String)
  | line (text : String) (written : Bool)
  | direct (address : String) (command : Command) (sent : Nat)
  | enqueue (address : String) (command : Command)
  | resume (sent : Nat)
  | commanded (address : String)
  | call (call : Call)
  | parser (parser : ProtocolParser)
  | diagnostics (diagnostics : MochadDiagnostics)
  | install (config : Config)
  | mqtt (connected : Bool)
  | mochad (connected : Bool)
  | stopping
  | crashed
  | watch (signature : Option (Int × Nat)) (next : Nat)

/-- The kinds of labels. -/
inductive Kind where
  | own | report | state | config | clear | reset | registry | insert | line | command | resume
  | commanded | call | parser | diagnostics | install | mqtt | mochad | stopping | crashed | watch
  deriving DecidableEq, Repr

def Label.kind : Label → Kind
  | .own .. | .dropped => .own
  | .report .. => .report
  | .state .. => .state
  | .config _ => .config
  | .clear _ => .clear
  | .reset _ => .reset
  | .visit _ => .registry
  | .insert _ => .insert
  | .line .. => .line
  | .direct .. | .enqueue .. => .command
  | .resume _ => .resume
  | .commanded _ => .commanded
  | .call _ => .call
  | .parser _ => .parser
  | .diagnostics _ => .diagnostics
  | .install _ => .install
  | .mqtt _ => .mqtt
  | .mochad _ => .mochad
  | .stopping => .stopping
  | .crashed => .crashed
  | .watch .. => .watch

/-- The state manager has a state for the address. -/
def Known (s : Bridge) (a : String) : Prop := a ∈ s.state.devices.keys

/-- The message is about a device of the table, or about the bridge. -/
def Announces (s : Bridge) (m : DiscoveryMessage) : Prop :=
  (∃ k d ms, s.devices.get? k = some d ∧
      s.discovery.discoveryMessages d s.mochadDiagnostics = .ok ms ∧ m ∈ ms) ∨
    ∃ ms, s.discovery.bridgeDiagnosticMessages s.mochadDiagnostics = .ok ms ∧ m ∈ ms

/-- The topics that the registry file lists. -/
def registered (s : Bridge) : List String := s.registry.topics s.config.discoveryRegistryPath

/-- The topics of `_desired_discovery_topics`, where it raises nothing. -/
def Desires (s : Bridge) (topics : List String) : Prop :=
  ∃ ms, s.discoveryMessages = .ok ms ∧ ms.map DiscoveryMessage.topic = topics

/-- The registry lists the topic, and it is not desired. -/
def Stale (s : Bridge) (topic : String) : Prop :=
  topic ∈ s.registered ∧ ∃ desired, s.Desires desired ∧ topic ∉ desired

/-- The topic is desired, or the registry lists it. -/
def Tracked (s : Bridge) (topic : String) : Prop :=
  ∃ desired, s.Desires desired ∧ (topic ∈ desired ∨ topic ∈ s.registered)

/-- What is known when a label is taken. -/
def Label.guard (E : Env) : Label → Bridge → Prop
  | .own topic _ _, s => ∃ suffix ∈ ["availability", "status", "response"],
      Topics.bridgeTopic suffix s.mqtt.baseTopic = .ok topic
  | .report a topic _ _, s => s.Known a ∧
      (Topics.event a s.mqtt.baseTopic = .ok topic ∨
        Topics.attributes a s.mqtt.baseTopic = .ok topic)
  | .state a _ topic _, s => s.Known a ∧ Topics.state a s.mqtt.baseTopic = .ok topic
  | .config message, s => s.Announces message
  | .clear topic, s => s.Stale topic
  | .reset topic, s => s.Tracked topic
  | .visit file, s => ∀ topic ∈ file.topics s.config.discoveryRegistryPath, topic ∈ s.registered ∨
      ∃ desired, s.Desires desired ∧ ∃ t ∈ desired, strip t = topic
  | .insert a, s => s.Known a
  | .line text _, _ => text ∈ ["st", "hello", "capabilities", "health"]
  | .direct a c sent, s => s.Known a ∧ Protocol.Sendable a c ∧ s.deviceCommandQueueReason = none ∧
      SendsUpTo E s.journal.sends.length sent (repeats (s.deviceAt a) c)
  | .enqueue a c, s => s.Known a ∧ Protocol.Sendable a c ∧ s.deviceCommandQueueReason ≠ none
  | .resume sent, s => s.deviceCommandQueueReason = none ∧
      ∃ queued rest, s.queuedDeviceCommands = queued :: rest ∧
        SendsUpTo E s.journal.sends.length sent
          (repeats (s.deviceAt queued.address) queued.command)
  | .commanded a, _ => IsAddress a
  | .call c, _ => c.FromBridge
  | .parser p, _ => p.Canonical
  | _, _ => True

/-- What a label does. -/
def Label.apply : Label → Bridge → Bridge
  | .own topic payload retain, s => s.emit (.publish topic payload retain)
  | .dropped, s => { s with droppedMqttPublishes := s.droppedMqttPublishes + 1 }
  | .report _ topic payload retain, s => s.emit (.publish topic payload retain)
  | .state _ c topic retain, s => s.emit (.publish topic (.str c.name) retain)
  | .config message, s => s.emit (messageOutput message)
  | .clear topic, s | .reset topic, s => s.emit (.publish topic (.str "") true)
  | .visit file, s => { s with
      registry := file, journal := { s.journal with visits := s.journal.visits + 1 } }
  | .insert a, s => s.withDevice a
  | .line text written, s => s.wrote (if written then [.line text none] else [])
      [⟨text, none, s.deviceCommandQueueReason.isNone⟩]
  | .direct a c sent, s => (s.accept a c).transmit s.journal.accepted.length a c sent
  | .enqueue a c, s => (s.accept a c).enqueue ⟨s.journal.accepted.length, a, c⟩
  | .resume sent, s => s.resume sent
  | .commanded a, s => s.withDevice a
  | .call c, s => { s with state := (s.state.call c).1 }
  | .parser p, s => { s with parser := p }
  | .diagnostics d, s => { s with mochadDiagnostics := d }
  | .install newConfig, s => s.install newConfig
  | .mqtt true, s => { s with mqtt := { s.mqtt with connected := true } }.emit .session
  | .mqtt false, s => { s with mqtt := { s.mqtt with connected := false } }
  | .mochad connected, s => { s with mochad := { s.mochad with connected := connected } }
  | .stopping, s => { s with stopping := true, mochad := { s.mochad with connected := false } }
  | .crashed, s => { s with crashed := true }
  | .watch signature next, s => { s with
      configFileSignature := signature, nextConfigReloadCheck := next }

/-- The bridge as a labelled transition system. -/
def system (E : Env) : System Label Bridge where
  guard := Label.guard E
  apply := Label.apply

/-- The labels of some kinds. -/
def Kinds (ks : List Kind) (l : Label) : Prop := l.kind ∈ ks

/-- The label belongs to the action. A publish of the bridge's own status and a
dropped publish may belong to any. -/
def Label.Of : Label → BridgeAction → Prop
  | .own .., _ | .dropped, _ => True
  | .report a .., x => x.address = some a
  | .state a c _ retain, x => x = .publishState a c retain
  | .insert a, x => x = .publishDiscovery a
  | .config _, x => ∃ a, x = .publishDiscovery a
  | .line text _, x => x = .sendMochadCommand text ∨ (x = .requestStatus ∧ text = "st")
  | .direct a c _, x | .enqueue a c, x => x = .sendDeviceCommand a c
  | _, _ => False

/-- The program takes a path of labels of the kinds `ks`. -/
abbrev Does {α : Type} (E : Env) (ks : List Kind) (p : BridgeM α) (s : Bridge) : Prop :=
  Takes (system E) (Kinds ks) p s

/-! ## Soundness -/

/-- What holds of the bridge at every moment, also between two labels. -/
structure Sound (s : Bridge) : Prop where
  keyed : s.state.Keyed
  known : s.state.NormalKeys
  table : ∀ k d, s.devices.get? k = some d → d.address = k ∧ normalize k = k
  queue : ∀ q ∈ s.queuedDeviceCommands, s.Known q.address ∧ Protocol.Sendable q.address q.command
  parser : s.parser.Canonical
  configBase : s.config.mqttBaseTopic = s.mqtt.baseTopic
  discoveryBase : s.discovery.baseTopic = s.mqtt.baseTopic
  clean : ∃ b, Topics.cleanSegment s.mqtt.baseTopic = .ok b

section Sound
variable {E : Env} {s t : Bridge}

/-- Soundness depends on these parts only. -/
theorem Sound.of_same (h : Sound s) (hstate : t.state = s.state) (hdevices : t.devices = s.devices)
    (hqueue : t.queuedDeviceCommands = s.queuedDeviceCommands) (hparser : t.parser = s.parser)
    (hconfig : t.config = s.config) (hdiscovery : t.discovery = s.discovery)
    (hbase : t.mqtt.baseTopic = s.mqtt.baseTopic) : Sound t where
  keyed := hstate ▸ h.keyed
  known := hstate ▸ h.known
  table := hdevices ▸ h.table
  queue := by rw [hqueue]; unfold Known; rw [hstate]; exact h.queue
  parser := hparser ▸ h.parser
  configBase := by rw [hconfig, hbase]; exact h.configBase
  discoveryBase := by rw [hdiscovery, hbase]; exact h.discoveryBase
  clean := hbase ▸ h.clean

theorem deviceAt_address (h : Sound s) (a : String) : (s.deviceAt a).address = normalize a := by
  unfold deviceAt
  cases hd : s.devices.get? (normalize a) with
  | none => exact DeviceConfig.unlisted_address _
  | some d => exact (h.table _ _ hd).1

theorem Sound.withDevice (h : Sound s) (a : String) : Sound (s.withDevice a) where
  keyed := h.keyed
  known := h.known
  table k d hd := by
    rw [Bridge.withDevice, Dict.get?_insert] at hd
    split at hd
    · next hk =>
      subst hk
      cases hd
      exact ⟨deviceAt_address h a, normalize_normalize a⟩
    · exact h.table k d hd
  queue := h.queue
  parser := h.parser
  configBase := h.configBase
  discoveryBase := h.discoveryBase
  clean := h.clean

theorem Sound.transmit (h : Sound s) (ticket : Nat) (a : String) (c : Command) (sent : Nat) :
    Sound (s.transmit ticket a c sent) :=
  (h.withDevice a).of_same rfl rfl rfl rfl rfl rfl rfl

/-- Soundness of a bridge with another queue. -/
theorem Sound.withQueue (h : Sound s) {qs : List QueuedCommand}
    (hq : ∀ q ∈ qs, s.Known q.address ∧ Protocol.Sendable q.address q.command) :
    Sound { s with queuedDeviceCommands := qs } :=
  ⟨h.keyed, h.known, h.table, hq, h.parser, h.configBase, h.discoveryBase, h.clean⟩

theorem Sound.enqueue (h : Sound s) {q : QueuedCommand} (hk : s.Known q.address)
    (hs : Protocol.Sendable q.address q.command) : Sound (s.enqueue q) := by
  have hnew : ∀ q' ∈ s.queuedDeviceCommands ++ [q],
      s.Known q'.address ∧ Protocol.Sendable q'.address q'.command := by
    intro q' hq'
    rcases List.mem_append.mp hq' with hq' | hq'
    · exact h.queue q' hq'
    · rw [List.mem_singleton.mp hq']
      exact ⟨hk, hs⟩
  unfold Bridge.enqueue
  split
  · next dropped rest hqueue =>
    rw [hqueue] at hnew
    split
    · exact (h.withQueue fun q' hq' => hnew q' (List.mem_cons_of_mem _ hq')).of_same
        rfl rfl rfl rfl rfl rfl rfl
    · exact h.withQueue hnew
  · next hqueue =>
    rw [hqueue] at hnew
    exact h.withQueue hnew

theorem Sound.resume (h : Sound s) (sent : Nat) : Sound (s.resume sent) := by
  unfold Bridge.resume
  split
  · next q rest hqueue =>
    have hq : ∀ q' ∈ q :: rest, s.Known q'.address ∧ Protocol.Sendable q'.address q'.command :=
      hqueue ▸ h.queue
    refine (h.transmit q.ticket q.address q.command sent).withQueue fun q' hq' => ?_
    split at hq'
    · exact hq q' hq'
    · exact hq q' (List.mem_cons_of_mem _ hq')
  · exact h

theorem Sound.call (h : Sound s) {c : Call} (hc : c.FromBridge) :
    Sound { s with state := (s.state.call c).1 } where
  keyed := (StateManager.call_effect h.keyed c).keyed
  known := StateManager.call_normalKeys h.keyed h.known hc
  table := h.table
  queue q hq :=
    ⟨((StateManager.call_effect h.keyed c).known _).mpr (.inl (h.queue q hq).1), (h.queue q hq).2⟩
  parser := h.parser
  configBase := h.configBase
  discoveryBase := h.discoveryBase
  clean := h.clean

theorem Sound.install (h : Sound s) (newConfig : Config) : Sound (s.install newConfig) where
  keyed := h.keyed
  known := h.known
  table k d hd := by
    rw [Bridge.install, Dict.get?_filterKeys] at hd
    split at hd
    · have hc := newConfig.configured k d hd
      exact ⟨hc.address, hc.normal⟩
    · cases hd
  queue := h.queue
  parser := h.parser
  configBase := h.configBase
  discoveryBase := h.discoveryBase
  clean := h.clean

/-- Every label keeps the bridge sound. -/
theorem Sound.apply (h : Sound s) {l : Label} (hg : l.guard E s) : Sound (l.apply s) := by
  cases l with
  | insert a => exact h.withDevice a
  | commanded a => exact h.withDevice a
  | direct a c sent =>
    exact (h.of_same (t := s.accept a c) rfl rfl rfl rfl rfl rfl rfl).transmit _ a c sent
  | enqueue a c =>
    exact (h.of_same (t := s.accept a c) rfl rfl rfl rfl rfl rfl rfl).enqueue hg.1 hg.2.1
  | resume sent => exact h.resume sent
  | call c => exact h.call hg
  | parser p =>
    exact ⟨h.keyed, h.known, h.table, h.queue, hg, h.configBase, h.discoveryBase, h.clean⟩
  | install newConfig => exact h.install newConfig
  | mqtt connected => cases connected <;> exact h.of_same rfl rfl rfl rfl rfl rfl rfl
  | own | dropped | report | state | config | clear | reset | visit | line | diagnostics | mochad
  | stopping | crashed | watch => exact h.of_same rfl rfl rfl rfl rfl rfl rfl

theorem Sound.path {K : Label → Prop} (h : Sound s) (hp : Path (system E) K s t) : Sound t :=
  hp.invariant (fun _ _ _ hg hs => Sound.apply hs hg) h

/-- The invariant rule, where every label is taken in a sound state. -/
theorem Sound.carries {K : Label → Prop} {I : Bridge → Prop} (h : Sound s)
    (hp : Path (system E) K s t) (hi : I s)
    (hstep : ∀ l u, K l → l.guard E u → Sound u → I u → I (l.apply u)) : I t := by
  have hboth : Sound t ∧ I t := hp.invariant (I := fun u => Sound u ∧ I u)
    (fun l u hl hg hu => ⟨hu.1.apply hg, hstep l u hl hg hu.1 hu.2⟩) ⟨h, hi⟩
  exact hboth.2

end Sound

/-! ## What labels leave alone -/

section Frame
variable {s : Bridge} {l : Label}

@[simp] theorem enqueue_state (q : QueuedCommand) : (s.enqueue q).state = s.state := by
  unfold Bridge.enqueue
  split
  · split <;> rfl
  · rfl

@[simp] theorem resume_state (sent : Nat) : (s.resume sent).state = s.state := by
  unfold Bridge.resume
  split <;> rfl

theorem apply_state (h : l.kind ≠ .call) : (l.apply s).state = s.state := by
  cases l with
  | call c => exact absurd rfl h
  | enqueue a c => exact enqueue_state _
  | resume sent => exact resume_state sent
  | mqtt connected => cases connected <;> rfl
  | _ => rfl

/-- What a label puts out. -/
def Label.outputs : Label → Bridge → List Output
  | .own topic payload retain, _ | .report _ topic payload retain, _ =>
    [.publish topic payload retain]
  | .state _ c topic retain, _ => [.publish topic (.str c.name) retain]
  | .config message, _ => [messageOutput message]
  | .clear topic, _ | .reset topic, _ => [.publish topic (.str "") true]
  | .line text written, _ => if written then [.line text none] else []
  | .direct a c sent, s => attemptLines (commandLine a c) s.journal.accepted.length
      (repeats (s.deviceAt a) c) (List.range' 1 sent)
  | .resume sent, s =>
    match s.queuedDeviceCommands with
    | queued :: _ => attemptLines (commandLine queued.address queued.command) queued.ticket
        (repeats (s.deviceAt queued.address) queued.command) (List.range' 1 sent)
    | [] => []
  | .mqtt true, _ => [.session]
  | _, _ => []

theorem outputs_apply (l : Label) (s : Bridge) :
    (l.apply s).journal.outputs = s.journal.outputs ++ l.outputs s := by
  cases l with
  | mqtt connected =>
    cases connected
    · exact (List.append_nil _).symm
    · rfl
  | resume sent =>
    simp only [Label.apply, Label.outputs, Bridge.resume]
    split
    · rfl
    · exact (List.append_nil _).symm
  | enqueue a c =>
    simp only [Label.apply, Label.outputs, Bridge.enqueue, List.append_nil]
    split
    · split <;> rfl
    · rfl
  | own | report | state | config | clear | reset | line | direct => rfl
  | _ => exact (List.append_nil _).symm

theorem publish_not_mem_attemptLines {line topic : String} {ticket r : Nat} {attempts : List Nat}
    {payload : Json} {retain : Bool} :
    .publish topic payload retain ∉ attemptLines line ticket r attempts := by
  intro h
  obtain ⟨_, _, h⟩ := List.mem_map.mp h
  exact Output.noConfusion h

/-- A label that publishes carries the message. -/
theorem publish_of_outputs {topic : String} {payload : Json} {retain : Bool}
    (h : .publish topic payload retain ∈ l.outputs s) :
    l = .own topic payload retain ∨ (∃ a, l = .report a topic payload retain) ∨
      (∃ a c, l = .state a c topic retain ∧ payload = .str c.name) ∨
      (∃ m : DiscoveryMessage, l = .config m ∧ m.topic = topic ∧ m.payload = payload ∧
        m.retain = retain) ∨
      ((l = .clear topic ∨ l = .reset topic) ∧ payload = .str "" ∧ retain = true) := by
  cases l with
  | own t p r =>
    obtain ⟨rfl, rfl, rfl⟩ := Output.publish.inj (List.mem_singleton.mp h)
    exact .inl rfl
  | report a t p r =>
    obtain ⟨rfl, rfl, rfl⟩ := Output.publish.inj (List.mem_singleton.mp h)
    exact .inr (.inl ⟨a, rfl⟩)
  | state a c t r =>
    obtain ⟨rfl, hp, rfl⟩ := Output.publish.inj (List.mem_singleton.mp h)
    exact .inr (.inr (.inl ⟨a, c, rfl, hp⟩))
  | config m =>
    obtain ⟨ht, hp, hr⟩ := Output.publish.inj (List.mem_singleton.mp h)
    exact .inr (.inr (.inr (.inl ⟨m, rfl, ht.symm, hp.symm, hr.symm⟩)))
  | clear t =>
    obtain ⟨rfl, hp, hr⟩ := Output.publish.inj (List.mem_singleton.mp h)
    exact .inr (.inr (.inr (.inr ⟨.inl rfl, hp, hr⟩)))
  | reset t =>
    obtain ⟨rfl, hp, hr⟩ := Output.publish.inj (List.mem_singleton.mp h)
    exact .inr (.inr (.inr (.inr ⟨.inr rfl, hp, hr⟩)))
  | line text written =>
    simp only [Label.outputs] at h
    split at h
    · exact Output.noConfusion (List.mem_singleton.mp h)
    · exact absurd h List.not_mem_nil
  | direct a c sent => exact absurd h publish_not_mem_attemptLines
  | resume sent =>
    simp only [Label.outputs] at h
    split at h
    · exact absurd h publish_not_mem_attemptLines
    · exact absurd h List.not_mem_nil
  | mqtt connected =>
    cases connected with
    | true => exact Output.noConfusion (List.mem_singleton.mp h)
    | false => exact absurd h List.not_mem_nil
  | _ => exact absurd h List.not_mem_nil

/-- Looking a device up changes no entry of the table. -/
@[simp] theorem deviceAt_withDevice (a b : String) : (s.withDevice b).deviceAt a = s.deviceAt a := by
  unfold deviceAt withDevice
  rw [Dict.get?_insert]
  split
  · next h => rw [deviceAt, h, Option.getD_some]
  · rfl

theorem apply_discovery (l : Label) (s : Bridge) : (l.apply s).discovery = s.discovery := by
  cases l with
  | mqtt connected => cases connected <;> rfl
  | enqueue a c =>
    simp only [Label.apply, Bridge.enqueue]
    split
    · split <;> rfl
    · rfl
  | resume sent =>
    simp only [Label.apply, Bridge.resume]
    split <;> rfl
  | _ => rfl

theorem apply_housecodes (l : Label) (s : Bridge) :
    (l.apply s).config.x10Housecodes = s.config.x10Housecodes := by
  cases l with
  | mqtt connected => cases connected <;> rfl
  | enqueue a c =>
    simp only [Label.apply, Bridge.enqueue]
    split
    · split <;> rfl
    · rfl
  | resume sent =>
    simp only [Label.apply, Bridge.resume]
    split <;> rfl
  | _ => rfl

theorem install_devices_congr {t : Bridge} {newConfig : Config}
    (h : t.config.x10Housecodes = s.config.x10Housecodes) :
    (t.install newConfig).devices = (s.install newConfig).devices := by
  have hallowed : addressAllowedByConfig t.config = addressAllowedByConfig s.config := by
    funext address
    simp only [addressAllowedByConfig, h]
  show newConfig.devices.filterKeys _ = newConfig.devices.filterKeys _
  rw [hallowed]

theorem apply_base (l : Label) (s : Bridge) : (l.apply s).mqtt.baseTopic = s.mqtt.baseTopic := by
  cases l with
  | mqtt connected => cases connected <;> rfl
  | enqueue a c =>
    simp only [Label.apply, Bridge.enqueue]
    split
    · split <;> rfl
    · rfl
  | resume sent =>
    simp only [Label.apply, Bridge.resume]
    split <;> rfl
  | _ => rfl

theorem apply_connected (h : l.kind ≠ .mqtt) : (l.apply s).mqtt.connected = s.mqtt.connected := by
  cases l with
  | mqtt => exact absurd rfl h
  | enqueue a c =>
    simp only [Label.apply, Bridge.enqueue]
    split
    · split <;> rfl
    · rfl
  | resume sent =>
    simp only [Label.apply, Bridge.resume]
    split <;> rfl
  | _ => rfl

theorem apply_diagnostics (h : l.kind ≠ .diagnostics) :
    (l.apply s).mochadDiagnostics = s.mochadDiagnostics := by
  cases l with
  | diagnostics => exact absurd rfl h
  | mqtt connected => cases connected <;> rfl
  | enqueue a c =>
    simp only [Label.apply, Bridge.enqueue]
    split
    · split <;> rfl
    · rfl
  | resume sent =>
    simp only [Label.apply, Bridge.resume]
    split <;> rfl
  | _ => rfl

theorem apply_registered (h : l.kind ≠ .registry) : (l.apply s).registered = s.registered := by
  cases l with
  | visit => exact absurd rfl h
  | mqtt connected => cases connected <;> rfl
  | enqueue a c =>
    simp only [Label.apply, Bridge.enqueue]
    split
    · split <;> rfl
    · rfl
  | resume sent =>
    simp only [Label.apply, Bridge.resume]
    split <;> rfl
  | _ => rfl

/-- No label but an installation takes a device out of the table. -/
theorem apply_listed (h : l.kind ≠ .install) {a : String} (ha : a ∈ s.devices.keys) :
    a ∈ (l.apply s).devices.keys := by
  have hinsert : ∀ b, a ∈ (s.withDevice b).devices.keys := fun b =>
    Dict.mem_keys_insert.mpr (.inr ha)
  cases l with
  | insert b | commanded b | direct b => exact hinsert b
  | install => exact absurd rfl h
  | mqtt connected => cases connected <;> exact ha
  | enqueue b c =>
    simp only [Label.apply, Bridge.enqueue]
    split
    · split <;> exact ha
    · exact ha
  | resume sent =>
    simp only [Label.apply, Bridge.resume]
    split
    · exact hinsert _
    · exact ha
  | _ => exact ha

/-- No label but an installation changes what the table says of an address. -/
theorem apply_deviceAt (h : l.kind ≠ .install) (a : String) :
    (l.apply s).deviceAt a = s.deviceAt a := by
  cases l with
  | insert b | commanded b | direct b => exact deviceAt_withDevice a b
  | install => exact absurd rfl h
  | mqtt connected => cases connected <;> rfl
  | enqueue b c =>
    simp only [Label.apply, Bridge.enqueue]
    split
    · split <;> rfl
    · rfl
  | resume sent =>
    simp only [Label.apply, Bridge.resume]
    split
    · exact deviceAt_withDevice a _
    · rfl
  | _ => rfl

theorem install_deviceAt {newConfig : Config} {a : String} (ha : IsAddress a)
    (hallowed : addressAllowedByConfig s.config a = true) :
    (s.install newConfig).deviceAt a = newConfig.deviceAt a := by
  rw [deviceAt, StateManager.normalize_of_isAddress ha, Config.deviceAt]
  show ((newConfig.devices.filterKeys _).get? a).getD _ = _
  rw [Dict.get?_filterKeys, if_pos hallowed]

end Frame

/-! ## Publishing -/

section Does
variable {E : Env} {s : Bridge}

theorem own_does (suffix : String) (h : suffix ∈ ["availability", "status", "response"])
    (payload : Json) (retain : Bool) :
    Does E [.own] (publishOn (Topics.bridgeTopic suffix) payload retain) s := by
  have hex := exec_publishOn (s := s) (Topics.bridgeTopic suffix) payload retain
  cases ht : Topics.bridgeTopic suffix s.mqtt.baseTopic with
  | error e =>
    rw [ht] at hex
    exact .nothing (by rw [hex])
  | ok topic =>
    rw [ht] at hex
    exact .label (.own topic payload retain) (by rw [hex]; rfl) List.mem_cons_self ⟨suffix, h, ht⟩

theorem publishStatus_does (payload : Json) (retain : Bool) :
    Does E [.own] (publishStatus payload retain) s :=
  own_does "status" (by simp) payload retain

/-- What the bridge publishes about itself may belong to any action. -/
theorem own_of {x : BridgeAction} (l : Label) (h : Kinds [.own] l) : l.Of x := by
  cases l <;> first | exact trivial | simp [Kinds, Label.kind] at h

theorem publishOwnStatus_does : Does E [.own] publishOwnStatus s := by
  refine .get_bind ?_
  split
  · exact publishStatus_does _ true
  · exact .refl

theorem Announces.emit {m : DiscoveryMessage} (h : s.Announces m) (o : Output) :
    (s.emit o).Announces m := h

/-- Messages the bridge announces may be published. -/
theorem publishAll_does {ms : List DiscoveryMessage} (h : ∀ m ∈ ms, s.Announces m) :
    Does E [.config] (ms.forM publishDiscovery) s := by
  refine .forM (fun t => ∀ m ∈ ms, t.Announces m) h fun m hm t ht => ⟨?_, ?_⟩
  · exact .label (.config m) rfl List.mem_cons_self (ht m hm)
  · exact ht

theorem mem_discoveryMessages {ms : List DiscoveryMessage} (h : s.discoveryMessages = .ok ms)
    {m : DiscoveryMessage} (hm : m ∈ ms) : s.Announces m := by
  obtain ⟨lists, hlists, h⟩ := bind_ok h
  obtain ⟨own, hown, h⟩ := bind_ok h
  cases h
  rcases List.mem_append.mp hm with hm | hm
  · obtain ⟨ms', hms', hm⟩ := List.mem_flatten.mp hm
    obtain ⟨d, hd, hd'⟩ := exists_of_mapM_ok hlists hms'
    obtain ⟨k, hk⟩ := Dict.mem_values.mp hd
    exact .inl ⟨k, d, ms', hk, hd', hm⟩
  · exact .inr ⟨own, hown, hm⟩

theorem publishBridgeDiagnosticDiscovery_does :
    Does E [.config] publishBridgeDiagnosticDiscovery s :=
  .get_bind (.ofExcept_bind fun ms hms => publishAll_does fun _ hm => .inr ⟨ms, hms, hm⟩)

theorem publishCurrentDiscovery_does : Does E [.config] publishCurrentDiscovery s :=
  .get_bind (.ofExcept_bind fun _ hms =>
    (publishAll_does fun _ hm => mem_discoveryMessages hms hm).bind fun _ _ _ => .refl)

theorem desiredDiscoveryTopics_does (ks : List Kind) : Does E ks desiredDiscoveryTopics s :=
  .get_bind (.ofExcept_bind fun _ _ => .refl)

/-! ## The registry -/

/-- The registry file after a visit. -/
def visited (s : Bridge) (file : RegistryFile) : Bridge :=
  { s with registry := file, journal := { s.journal with visits := s.journal.visits + 1 } }

theorem exec_loadRegistry : exec (loadRegistry E) s =
    ((s.registry.load s.config.discoveryRegistryPath (E.ioFaults s.journal.visits)).1,
      s.visited
        (s.registry.load s.config.discoveryRegistryPath (E.ioFaults s.journal.visits)).2) := by
  simp only [loadRegistry, exec_bind, exec_get, exec_modify, exec_ofExcept]
  rfl

/-- Saving the registry raises nothing. -/
theorem exec_saveDiscoveryRegistry (topics : List String) :
    ∃ saved, exec (saveDiscoveryRegistry E topics) s = (.ok saved, s.visited
      (s.registry.save s.config.discoveryRegistryPath (E.ioFaults s.journal.visits) topics).2) := by
  simp only [saveDiscoveryRegistry, exec_bind, exec_get, exec_modify]
  rcases RegistryFile.save_outcome s.config.discoveryRegistryPath
    (E.ioFaults s.journal.visits) s.registry topics with h | ⟨message, h⟩
  · rw [h]
    exact ⟨true, rfl⟩
  · rw [h]
    exact ⟨false, rfl⟩

theorem subset_of_all {K L : List Kind} (h : K.all (· ∈ L) = true) :
    ∀ l, Kinds K l → Kinds L l := by
  intro l hl
  show l.kind ∈ L
  exact of_decide_eq_true (List.all_eq_true.mp h l.kind hl)

theorem of_kind {ks : List Kind} {l : Label} (h : decide (l.kind ∈ ks) = true) : Kinds ks l := by
  show l.kind ∈ ks
  exact of_decide_eq_true h

/-- The desired topics are the ones of the messages. -/
theorem desires_of_exec {desired : List String} {t : Bridge}
    (h : exec desiredDiscoveryTopics s = (.ok desired, t)) : s.Desires desired ∧ t = s := by
  rw [exec_desiredDiscoveryTopics, Prod.mk.injEq] at h
  obtain ⟨ms, hms, htopics⟩ := map_ok h.1
  exact ⟨⟨ms, hms, htopics⟩, h.2.symm⟩

theorem loadRegistry_does : Does E [.registry] (loadRegistry E) s := by
  refine .label (.visit _) (by rw [exec_loadRegistry]; rfl) List.mem_cons_self fun topic ht => ?_
  exact .inl (RegistryFile.load_subset ht)

/-- What a load returns, the file listed before and lists afterwards. -/
theorem loadRegistry_ok {listed : List String} {t : Bridge}
    (h : exec (loadRegistry E) s = (.ok listed, t)) :
    (∃ file, t = s.visited file) ∧ t.registered = listed ∧ listed ⊆ s.registered := by
  rw [exec_loadRegistry, Prod.mk.injEq] at h
  obtain ⟨hlisted, rfl⟩ := h
  have htopics := RegistryFile.load_topics hlisted
  refine ⟨⟨_, rfl⟩, htopics, fun topic ht => ?_⟩
  rw [← htopics] at ht
  exact RegistryFile.load_subset ht

/-- The same of a load whose errors count as an empty registry. -/
theorem previous_of_exec {previous : List String} {t : Bridge}
    (h : exec (tryCatch (loadRegistry E) fun e =>
      if isRegistryError e then pure [] else throw e) s = (.ok previous, t)) :
    (∃ file, t = s.visited file) ∧ previous ⊆ t.registered ∧ previous ⊆ s.registered := by
  rw [exec_tryCatch] at h
  split at h
  · next hload =>
    cases h
    obtain ⟨hfile, hlisted, hold⟩ := loadRegistry_ok hload
    exact ⟨hfile, fun x hx => hlisted ▸ hx, hold⟩
  · next hload =>
    rw [exec_loadRegistry, Prod.mk.injEq] at hload
    obtain ⟨-, rfl⟩ := hload
    split at h
    · cases h
      exact ⟨⟨_, rfl⟩, List.nil_subset _, List.nil_subset _⟩
    · cases h

/-- The same of a load whose errors are handed on. -/
theorem loaded_of_exec {previous : List String} {t : Bridge}
    (h : exec (tryCatch (do let topics ← loadRegistry E; return Except.ok topics) fun e =>
      if isRegistryError e then pure (Except.error e) else throw e) s =
        (.ok (.ok previous), t)) :
    (∃ file, t = s.visited file) ∧ t.registered = previous ∧ previous ⊆ s.registered := by
  rw [exec_tryCatch, exec_bind] at h
  split at h
  · next hload =>
    split at hload
    · next hload' =>
      cases hload
      cases h
      exact loadRegistry_ok hload'
    · cases hload
  · split at h <;> cases h

/-- A save of topics that were listed or are desired. -/
theorem saveDiscoveryRegistry_does {topics : List String}
    (h : ∀ topic ∈ topics, topic ∈ s.registered ∨ ∃ desired, s.Desires desired ∧ topic ∈ desired) :
    Does E [.registry] (saveDiscoveryRegistry E topics) s := by
  obtain ⟨saved, hex⟩ := exec_saveDiscoveryRegistry (E := E) (s := s) topics
  refine .label (.visit _) (by rw [hex]; rfl) List.mem_cons_self fun topic hlists => ?_
  rcases RegistryFile.mem_topics_of_save hlists with hold | ⟨t, ht, rfl⟩
  · exact .inl hold
  · rcases h t ht with hlisted | ⟨desired, hdesired, hmem⟩
    · rw [RegistryFile.strip_of_mem_topics hlisted]
      exact .inl hlisted
    · exact .inr ⟨desired, hdesired, t, hmem, rfl⟩

/-- The empty messages of a set of topics. -/
def clearings (topics : List String) : List Output :=
  (sortedSet topics).map fun topic => .publish topic (.str "") true

theorem exec_clearTopics (topics : List String) :
    exec (clearTopics topics) s = (.ok ⟨⟩, s.emitAll (clearings topics)) := by
  have hmap : clearTopics topics =
      ((sortedSet topics).map emptyDiscoveryMessage).forM publishDiscovery := by
    rw [clearTopics, List.forM_eq_forM, List.forM_eq_forM, List.forM_map]
  rw [hmap, exec_publishAll, List.map_map]
  rfl

theorem clearTopics_takes {K : Label → Prop} {topics : List String} {l : String → Label}
    (hl : ∀ topic u, (l topic).apply u = u.emit (.publish topic (.str "") true))
    (hg : ∀ topic u o, (l topic).guard E u → (l topic).guard E (u.emit o))
    (hK : ∀ topic ∈ topics, K (l topic)) (h : ∀ topic ∈ topics, (l topic).guard E s) :
    Takes (system E) K (clearTopics topics) s := by
  refine .forM (fun t => ∀ topic ∈ topics, (l topic).guard E t) h fun topic hm t ht => ⟨?_, ?_⟩
  · have hmem := mem_sortedSet.mp hm
    exact .label (l topic) (hl topic t).symm (hK topic hmem) (ht topic hmem)
  · exact fun u hu => hg u t _ (ht u hu)

/-- The labels of a cleanup: what is stale is cleared, if cleanups are enabled or
this one is forced. -/
def CleanupLabel (s : Bridge) (force : Bool) (l : Label) : Prop :=
  l.kind = .registry ∨
    ∃ topic, l = .clear topic ∧ s.Stale topic ∧ (force = true ∨ s.config.discoveryCleanup = true)

theorem runDiscoveryCleanup_takes (force : Bool) :
    Takes (system E) (s.CleanupLabel force) (runDiscoveryCleanup E force) s := by
  have hregistry : ∀ l, Kinds [.registry] l → s.CleanupLabel force l := fun l hl =>
    .inl (List.mem_singleton.mp hl)
  refine .bind ((desiredDiscoveryTopics_does [.registry]).mono hregistry) fun desired _ hdesired => ?_
  obtain ⟨hdesired, rfl⟩ := desires_of_exec hdesired
  refine .get_bind ?_
  dsimp only
  split
  · refine .bind (.tryCatch (loadRegistry_does.mono hregistry) fun e _ _ => ?_)
      fun previous _ hprevious => ?_
    · split <;> exact .refl
    · obtain ⟨⟨file, rfl⟩, hlisted, _⟩ := previous_of_exec hprevious
      refine .bind ((saveDiscoveryRegistry_does fun topic ht => ?_).mono hregistry)
        fun _ _ _ => .refl
      rcases List.mem_append.mp ht with ht | ht
      · exact .inl (hlisted ht)
      · exact .inr ⟨desired, hdesired, ht⟩
  · next henabled =>
    refine .bind (.tryCatch (.bind (loadRegistry_does.mono hregistry)
      fun _ _ _ => .refl) fun e _ _ => ?_) fun loaded _ hloaded => ?_
    · split <;> exact .refl
    · split
      · exact .refl
      · next previous =>
        obtain ⟨⟨file, rfl⟩, hlisted, hold⟩ := loaded_of_exec hloaded
        refine .bind (clearTopics_takes (l := .clear) (fun _ _ => rfl) (fun _ _ _ h => h)
          (fun topic ht => ?_) fun topic ht => ?_) fun _ _ hclear => ?_
        · obtain ⟨hmem, hnot⟩ := mem_setDiff.mp ht
          refine .inr ⟨topic, rfl, ⟨hold hmem, desired, hdesired, hnot⟩, ?_⟩
          cases force with
          | true => exact .inl rfl
          | false => exact .inr (by simpa using henabled)
        · obtain ⟨hmem, hnot⟩ := mem_setDiff.mp ht
          exact ⟨hlisted ▸ hmem, desired, hdesired, hnot⟩
        · rw [exec_clearTopics] at hclear
          cases hclear
          exact .bind (.mono hregistry (saveDiscoveryRegistry_does fun topic ht =>
            .inr ⟨desired, hdesired, ht⟩)) fun _ _ _ => .refl

theorem runDiscoveryCleanup_does (force : Bool) :
    Does E [.registry, .clear] (runDiscoveryCleanup E force) s := by
  refine (runDiscoveryCleanup_takes force).mono fun l hl => ?_
  rcases hl with hl | ⟨topic, rfl, _⟩
  · rw [Kinds, hl]
    exact List.mem_cons_self
  · exact List.mem_cons_of_mem _ List.mem_cons_self

/-- The labels of a reset: what is desired or listed is cleared. -/
def ResetLabel (s : Bridge) (l : Label) : Prop :=
  l.kind = .registry ∨ ∃ topic, l = .reset topic ∧ s.Tracked topic

theorem resetDiscovery_takes : Takes (system E) s.ResetLabel (resetDiscovery E) s := by
  have hregistry : ∀ l, Kinds [.registry] l → s.ResetLabel l := fun l hl =>
    .inl (List.mem_singleton.mp hl)
  refine .bind ((desiredDiscoveryTopics_does [.registry]).mono hregistry) fun desired _ hdesired => ?_
  obtain ⟨hdesired, rfl⟩ := desires_of_exec hdesired
  refine .bind (.tryCatch (loadRegistry_does.mono hregistry) fun e _ _ => ?_)
    fun previous _ hprevious => ?_
  · split <;> exact .refl
  · obtain ⟨⟨file, rfl⟩, hlisted, hold⟩ := previous_of_exec hprevious
    refine .bind (clearTopics_takes (l := .reset) (fun _ _ => rfl) (fun _ _ _ h => h)
      (fun topic ht => ?_) fun topic ht => ?_) fun _ _ _ => ?_
    · rcases List.mem_append.mp ht with ht | ht
      · exact .inr ⟨topic, rfl, desired, hdesired, .inl ht⟩
      · exact .inr ⟨topic, rfl, desired, hdesired, .inr (hold ht)⟩
    · rcases List.mem_append.mp ht with ht | ht
      · exact ⟨desired, hdesired, .inl ht⟩
      · exact ⟨desired, hdesired, .inr (hlisted ht)⟩
    · exact .bind (.mono hregistry (saveDiscoveryRegistry_does fun topic ht =>
        absurd ht List.not_mem_nil)) fun _ _ _ => .refl

theorem resetDiscovery_does : Does E [.registry, .reset] (resetDiscovery E) s := by
  refine resetDiscovery_takes.mono fun l hl => ?_
  rcases hl with hl | ⟨topic, rfl, _⟩
  · rw [Kinds, hl]
    exact List.mem_cons_self
  · exact List.mem_cons_of_mem _ List.mem_cons_self

/-! ## Actions -/

/-- Labels that call nothing leave the state manager alone. -/
theorem state_of_path {K : Label → Prop} (hK : ∀ l, K l → l.kind ≠ .call) {t : Bridge}
    (h : Path (system E) K s t) : t.state = s.state :=
  h.frame Bridge.state fun l _ hl _ => apply_state (hK l hl)

theorem kind_of_of {l : Label} {x : BridgeAction} (h : l.Of x) : l.kind ∈
    [.own, .report, .state, .insert, .config, .line, .command] := by
  cases l <;> first | exact absurd h id | simp [Label.kind]

theorem report_takes {a : String} {x : BridgeAction} (hx : x.address = some a) (hk : s.Known a)
    {topic : String → Except PyError String}
    (ht : ∀ b, topic b = Topics.event a b ∨ topic b = Topics.attributes a b) (payload : Json)
    (retain : Bool) : Takes (system E) (Label.Of · x) (publishOn topic payload retain) s := by
  have hex := exec_publishOn (s := s) topic payload retain
  have hor := ht s.mqtt.baseTopic
  cases h : topic s.mqtt.baseTopic with
  | error e =>
    rw [h] at hex
    exact .nothing (by rw [hex])
  | ok t =>
    rw [h] at hex hor
    exact .label (.report a t payload retain) (by rw [hex]; rfl) hx ⟨hk, hor.imp Eq.symm Eq.symm⟩

theorem publishState_takes {a : String} (hk : s.Known a) (c : Command) (retain : Bool) :
    Takes (system E) (Label.Of · (.publishState a c retain)) (publishState a c retain) s := by
  have hex := exec_publishOn (s := s) (Topics.state a) (.str c.name) retain
  cases h : Topics.state a s.mqtt.baseTopic with
  | error e =>
    rw [h] at hex
    exact .nothing (by rw [publishState, hex])
  | ok t =>
    rw [h] at hex
    exact .label (.state a c t retain) (by rw [publishState, hex]; rfl) rfl ⟨hk, h⟩

/-- The device of an announced message is in the table. -/
theorem announces_withDevice {a : String} {ms : List DiscoveryMessage}
    (h : s.discovery.discoveryMessages (s.deviceAt a) s.mochadDiagnostics = .ok ms)
    {m : DiscoveryMessage} (hm : m ∈ ms) : (s.withDevice a).Announces m :=
  .inl ⟨normalize a, s.deviceAt a, ms, Dict.get?_insert_self _ _ _, h, hm⟩

theorem exec_sendLine_label {text : String} (h : text ∈ ["st", "hello", "capabilities", "health"]) :
    ∃ written, (exec (sendLine E text none) s).2 = (Label.line text written).apply s := by
  have hstrip : rstripLineEnds text = text := by
    simp only [List.mem_cons, List.not_mem_nil, or_false] at h
    rcases h with rfl | rfl | rfl | rfl <;> decide
  cases hc : s.mochad.connected with
  | false => exact ⟨false, by rw [exec_sendLine_disconnected E hc]; rfl⟩
  | true =>
    have hex := exec_sendLine E hc text none
    rw [hstrip] at hex
    cases hf : E.sendFault s.journal.sends.length with
    | some fault =>
      rw [hf] at hex
      exact ⟨false, by rw [hex]; rfl⟩
    | none =>
      rw [hf] at hex
      exact ⟨true, by rw [hex]; rfl⟩

theorem sendLine_takes {K : Label → Prop} {text : String}
    (h : text ∈ ["st", "hello", "capabilities", "health"]) (hK : ∀ written, K (.line text written)) :
    Takes (system E) K (sendLine E text none) s := by
  obtain ⟨written, hex⟩ := exec_sendLine_label (E := E) (s := s) h
  exact .label (.line text written) hex (hK written) h

theorem exec_queueDeviceCommand (q : QueuedCommand) :
    exec (queueDeviceCommand q) s = exec publishOwnStatus (s.enqueue q) := by
  simp only [queueDeviceCommand, exec_bind, exec_get, Bridge.enqueue]
  cases h : s.queuedDeviceCommands with
  | nil => simp only [exec_bind, exec_modify, h, List.nil_append]
  | cons dropped rest =>
    by_cases hfull : maxQueuedDeviceCommands ≤ (dropped :: rest).length
    · simp only [hfull, if_true, exec_bind, exec_modify]
    · simp only [hfull, if_false, exec_bind, exec_modify, h]

/-- A device command that is queued. -/
theorem exec_deviceCommand_queued {a : String} {c : Command}
    (hq : s.deviceCommandQueueReason ≠ none) :
    exec (executeDeviceCommand E a c) s =
      exec publishOwnStatus ((Label.enqueue a c).apply s) := by
  obtain ⟨reason, hr⟩ := Option.ne_none_iff_exists'.mp hq
  simp only [executeDeviceCommand, exec_bind, exec_get, exec_modify, hr]
  exact exec_queueDeviceCommand _

/-- A device command that is sent. -/
theorem exec_deviceCommand_direct {a : String} {c : Command}
    (hq : s.deviceCommandQueueReason = none) :
    exec (executeDeviceCommand E a c) s =
      exec (sendDeviceCommand E s.journal.accepted.length a c) (s.accept a c) := by
  simp only [executeDeviceCommand, exec_bind, exec_get, exec_modify, hq]
  rfl

theorem executeDeviceCommand_takes {a : String} {c : Command} (hk : s.Known a)
    (hs : Protocol.Sendable a c) : Takes (system E) (Label.Of · (.sendDeviceCommand a c))
      (executeDeviceCommand E a c) s := by
  by_cases hq : s.deviceCommandQueueReason = none
  · obtain ⟨sent, hsends, hout⟩ := exec_transmission E (s := s.accept a c) hq hs
      s.journal.accepted.length
    refine .label (.direct a c sent) ?_ rfl ⟨hk, hs, hq, hsends⟩
    rw [exec_deviceCommand_direct hq]
    rcases hout with ⟨_, hex⟩ | ⟨_, fault, hex⟩ <;> rw [hex] <;> rfl
  · have hlabel : Path (system E) (Label.Of · (.sendDeviceCommand a c)) s
        ((Label.enqueue a c).apply s) :=
      Path.single (G := system E) (l := .enqueue a c) rfl ⟨hk, hs, hq⟩
    rw [Takes, exec_deviceCommand_queued hq]
    exact hlabel.trans (publishOwnStatus_does.mono own_of)

/-- An action about known devices takes its labels. -/
theorem executeAction_takes (now : Timestamp) {action : BridgeAction}
    (h : s.state.Concerns action) :
    Takes (system E) (Label.Of · action) (executeAction E now action) s := by
  refine .get_bind ?_
  split
  · exact .label .dropped rfl trivial trivial
  · cases action with
    | publishState a c retain => exact publishState_takes h c retain
    | publishEvent e => exact report_takes rfl h (fun _ => .inl rfl) _ _
    | publishCommandEvent a payload retain => exact report_takes rfl h (fun _ => .inl rfl) _ _
    | publishAttributes a payload retain => exact report_takes rfl h (fun _ => .inr rfl) _ _
    | publishDiscovery a =>
      refine .bind ?_ fun d t ht => ?_
      · exact .label (.insert a) (by rw [exec_deviceConfig]; rfl) rfl h
      · rw [exec_deviceConfig] at ht
        cases ht
        refine .get_bind (.ofExcept_bind fun ms hms =>
          (publishAll_does fun m hm => announces_withDevice hms hm).mono fun l hl => ?_)
        cases l <;> first | exact ⟨a, rfl⟩ | simp [Kinds, Label.kind] at hl
    | publishAvailability online => exact (own_does "availability" (by simp) _ _).mono own_of
    | publishStatus => exact (publishStatus_does _ _).mono own_of
    | publishBridgeResponse => exact (own_does "response" (by simp) _ _).mono own_of
    | sendMochadCommand command => exact sendLine_takes (List.mem_cons_of_mem _ h) fun _ => .inl rfl
    | sendDeviceCommand a c => exact executeDeviceCommand_takes h.1 h.2
    | requestStatus => exact sendLine_takes List.mem_cons_self fun _ => .inr ⟨rfl, rfl⟩
    | logUnknownEvent => exact .refl

/-- What `execute_actions` makes of one action: whether the list goes on. -/
def attempt (E : Env) (now : Timestamp) (action : BridgeAction) : BridgeM Bool :=
  tryCatch
    (do
      executeAction E now action
      return true)
    fun e => if e.isTransport then pure (!isSend action) else throw e

theorem exec_attempt {t : Bridge} (now : Timestamp) {x : BridgeAction}
    (h : exec (executeAction E now x) s = (.ok (), t)) : exec (attempt E now x) s = (.ok true, t) := by
  rw [attempt, exec_tryCatch, exec_bind_ok _ _ _ h]
  rfl

/-- An attempt leaves what the action leaves. -/
theorem exec_attempt_state (now : Timestamp) (x : BridgeAction) :
    (exec (attempt E now x) s).2 = (exec (executeAction E now x) s).2 := by
  rw [attempt, exec_tryCatch, exec_bind]
  cases h : exec (executeAction E now x) s with
  | mk result t =>
    cases result with
    | ok u => rfl
    | error e =>
      dsimp only
      split <;> rfl

theorem executeActions_cons (now : Timestamp) (action : BridgeAction)
    (actions : List BridgeAction) :
    executeActions E now (action :: actions) = attempt E now action >>= fun goOn =>
      if goOn then executeActions E now actions else return () := rfl

theorem attempt_takes (now : Timestamp) {action : BridgeAction} (h : s.state.Concerns action) :
    Takes (system E) (Label.Of · action) (attempt E now action) s :=
  .tryCatch (.bind (executeAction_takes now h) fun _ _ _ => .refl) fun e _ _ => by
    split <;> exact .refl

theorem call_not_of {l : Label} {x : BridgeAction} (h : l.Of x) : l.kind ≠ .call := by
  intro hk
  have := kind_of_of h
  rw [hk] at this
  exact absurd this (by decide)

/-- A list of actions takes the labels of its actions. -/
theorem executeActions_takes (now : Timestamp) {actions : List BridgeAction}
    (h : ∀ x ∈ actions, s.state.Concerns x) :
    Takes (system E) (fun l => ∃ x ∈ actions, l.Of x) (executeActions E now actions) s := by
  induction actions generalizing s with
  | nil => exact .refl
  | cons action actions ih =>
    have hhead := attempt_takes (E := E) now (h action List.mem_cons_self)
    rw [executeActions_cons]
    refine .bind (hhead.mono fun l hl => ⟨action, List.mem_cons_self, hl⟩) fun goOn t ht => ?_
    -- the rest starts from a bridge with the same state manager
    rw [Takes, ht] at hhead
    have hstate := state_of_path (fun _ => call_not_of) hhead
    split
    · refine (ih fun x hx => ?_).mono fun l => ?_
      · rw [hstate]
        exact h x (List.mem_cons_of_mem _ hx)
      · rintro ⟨x, hx, hl⟩
        exact ⟨x, List.mem_cons_of_mem _ hx, hl⟩
    · exact .refl

/-! ## Bridge commands -/

theorem respond_does (now : Timestamp) (command : Option BridgeCommand) (success : Bool)
    (message : String) (payload : List (String × Json)) :
    Does E [.own] (respond E now command success message payload) s := by
  refine .get_bind ?_
  split
  · exact .label .dropped rfl List.mem_cons_self trivial
  · exact own_does "response" (by simp) _ _

/-- The kinds of labels of a bridge command. -/
def bridgeCommandKinds : List Kind := [.own, .line, .config, .registry]

/-- Only maintenance commands clear topics, and only where they are enabled. -/
def maintenanceKinds (s : Bridge) (command : Option BridgeCommand) : List Kind :=
  if s.config.enableMaintenanceButtons then
    match command with
    | some .pruneDiscovery => [.clear]
    | some .resetDiscovery => [.reset]
    | _ => []
  else []

theorem maintenanceKinds_cases (s : Bridge) (command : Option BridgeCommand) :
    s.maintenanceKinds command = [] ∨ s.maintenanceKinds command = [.clear] ∨
      s.maintenanceKinds command = [.reset] := by
  unfold maintenanceKinds
  split
  · split
    · exact .inr (.inl rfl)
    · exact .inr (.inr rfl)
    · exact .inl rfl
  · exact .inl rfl

/-- A prune that is enabled clears what is stale. -/
theorem prune_takes (now : Timestamp) (henabled : s.config.enableMaintenanceButtons = true) :
    Takes (system E) (fun l => l.kind = .own ∨ s.CleanupLabel true l)
      (handleBridgeCommand E now .pruneDiscovery) s := by
  have hown : ∀ l, Kinds [.own] l → l.kind = .own ∨ s.CleanupLabel true l := fun l hl =>
    .inl (List.mem_singleton.mp hl)
  refine .get_bind ?_
  rw [if_neg (by simp [henabled])]
  exact .bind ((runDiscoveryCleanup_takes true).mono fun _ => .inr) fun _ _ _ =>
    (respond_does ..).mono hown

/-- A reset that is enabled clears what is desired or listed. -/
theorem reset_takes (now : Timestamp) (henabled : s.config.enableMaintenanceButtons = true) :
    Takes (system E) (fun l => l.kind = .own ∨ s.ResetLabel l)
      (handleBridgeCommand E now .resetDiscovery) s := by
  have hown : ∀ l, Kinds [.own] l → l.kind = .own ∨ s.ResetLabel l := fun l hl =>
    .inl (List.mem_singleton.mp hl)
  refine .get_bind ?_
  rw [if_neg (by simp [henabled])]
  exact .bind (resetDiscovery_takes.mono fun _ => .inr) fun _ _ _ => (respond_does ..).mono hown

theorem handleBridgeCommand_does (now : Timestamp) (command : BridgeCommand) :
    Does E (bridgeCommandKinds ++ s.maintenanceKinds (some command))
      (handleBridgeCommand E now command) s := by
  have hrespond : ∀ t command success message payload,
      Does E bridgeCommandKinds (respond E now command success message payload) t :=
    fun _ _ _ _ _ => (respond_does ..).mono (subset_of_all rfl)
  have hmono : ∀ l, Kinds bridgeCommandKinds l →
      Kinds (bridgeCommandKinds ++ s.maintenanceKinds (some command)) l :=
    fun l hl => List.mem_append_left _ hl
  refine .get_bind ?_
  split
  · exact (hrespond ..).mono hmono
  · next henabled =>
    cases command with
    | ping => exact (hrespond ..).mono hmono
    | status => exact (hrespond ..).mono hmono
    | sync =>
      dsimp only
      split
      · exact (hrespond ..).mono hmono
      · refine .mono hmono (.bind (.tryCatch (.bind ?_ fun _ _ _ => .refl) fun e _ _ => ?_)
          fun failure _ _ => ?_)
        · exact sendLine_takes List.mem_cons_self fun _ => of_kind rfl
        · split <;> exact .refl
        · split <;> exact hrespond ..
    | rediscover =>
      refine .mono hmono ?_
      refine (publishCurrentDiscovery_does.mono (subset_of_all rfl)).bind fun _ _ _ => ?_
      refine (desiredDiscoveryTopics_does _).bind fun desired _ hdesired => ?_
      obtain ⟨hdesired, rfl⟩ := desires_of_exec hdesired
      refine ((saveDiscoveryRegistry_does fun _ ht => .inr ⟨desired, hdesired, ht⟩).mono
        (subset_of_all rfl)).bind fun _ _ _ => ?_
      exact hrespond ..
    | pruneDiscovery =>
      have hkinds : s.maintenanceKinds (some .pruneDiscovery) = [.clear] := by
        rw [maintenanceKinds, if_pos (by simpa using henabled)]
      rw [hkinds]
      exact .bind ((runDiscoveryCleanup_does true).mono (subset_of_all rfl)) fun _ _ _ =>
        (respond_does ..).mono (subset_of_all rfl)
    | resetDiscovery =>
      have hkinds : s.maintenanceKinds (some .resetDiscovery) = [.reset] := by
        rw [maintenanceKinds, if_pos (by simpa using henabled)]
      rw [hkinds]
      exact .bind (resetDiscovery_does.mono (subset_of_all rfl)) fun _ _ _ =>
        (respond_does ..).mono (subset_of_all rfl)

theorem onMqttBridgeCommand_does (now : Timestamp) (topic payload : String) :
    Does E (bridgeCommandKinds ++ s.maintenanceKinds (parseBridgeCommandPayload payload))
      (onMqttBridgeCommand E now topic payload) s := by
  unfold onMqttBridgeCommand
  split
  · exact (respond_does ..).mono fun l hl =>
      List.mem_append_left _ (subset_of_all (K := [.own]) rfl l hl)
  · next command hcommand =>
    rw [hcommand]
    exact handleBridgeCommand_does now command

/-! ## The queue -/

theorem sendFault_isTransport (fault : SendFault) : fault.error.isTransport = true := by
  cases fault <;> rfl

/-- The oldest command of a queue that is being flushed: it goes through, or the
flush pauses. -/
theorem exec_flush_head {q : QueuedCommand} {rest : List QueuedCommand}
    (hq : s.queuedDeviceCommands = q :: rest) (hr : s.deviceCommandQueueReason = none)
    (hs : Protocol.Sendable q.address q.command) :
    ∃ sent, SendsUpTo E s.journal.sends.length sent (repeats (s.deviceAt q.address) q.command) ∧
      ((sent = repeats (s.deviceAt q.address) q.command ∧
          exec (flushLoop E (q :: rest)) s = exec (flushLoop E rest) (s.resume sent)) ∨
        (sent < repeats (s.deviceAt q.address) q.command ∧
          exec (flushLoop E (q :: rest)) s = (.ok false, s.resume sent))) := by
  obtain ⟨sent, hsends, hout⟩ := exec_transmission E
    (s := { s with queuedDeviceCommands := rest }) hr hs q.ticket
  have hat : { s with queuedDeviceCommands := rest }.deviceAt q.address = s.deviceAt q.address :=
    rfl
  rw [hat] at hsends hout
  refine ⟨sent, hsends, ?_⟩
  rcases hout with ⟨heq, hex⟩ | ⟨hlt, fault, hex⟩
  · refine .inl ⟨heq, ?_⟩
    have hres : s.resume sent =
        { s with queuedDeviceCommands := rest }.transmit q.ticket q.address q.command sent := by
      simp only [Bridge.resume, hq]
      rw [if_neg (not_lt.mpr heq.ge)]
      rfl
    simp only [flushLoop, exec_bind, exec_modify, exec_tryCatch, hex, exec_pure, if_true, hres]
  · refine .inr ⟨hlt, ?_⟩
    have hres : s.resume sent =
        { { s with queuedDeviceCommands := rest }.transmit q.ticket q.address q.command sent with
          queuedDeviceCommands := q :: rest } := by
      simp only [Bridge.resume, hq]
      rw [if_pos hlt]
      rfl
    simp only [flushLoop, exec_bind, exec_modify, exec_tryCatch, hex, sendFault_isTransport,
      if_true, exec_pure, Bool.false_eq_true, if_false, hres]
    rfl

theorem resume_reason (sent : Nat) :
    (s.resume sent).deviceCommandQueueReason = s.deviceCommandQueueReason := by
  unfold Bridge.resume
  split <;> rfl

theorem resume_queue {q : QueuedCommand} {rest : List QueuedCommand}
    (hq : s.queuedDeviceCommands = q :: rest) (sent : Nat) : (s.resume sent).queuedDeviceCommands =
      if sent < repeats (s.deviceAt q.address) q.command then q :: rest else rest := by
  simp only [Bridge.resume, hq]

theorem flushLoop_does (h : Sound s) (hr : s.deviceCommandQueueReason = none)
    {qs : List QueuedCommand} (hq : s.queuedDeviceCommands = qs) :
    Does E [.resume] (flushLoop E qs) s := by
  induction qs generalizing s with
  | nil => exact .refl
  | cons q rest ih =>
    have hs := (h.queue q (by rw [hq]; exact List.mem_cons_self)).2
    obtain ⟨sent, hsends, hout⟩ := exec_flush_head (E := E) hq hr hs
    have hhead : Path (system E) (Kinds [.resume]) s (s.resume sent) :=
      Path.single (G := system E) (l := .resume sent) (of_kind rfl) ⟨hr, q, rest, hq, hsends⟩
    rcases hout with ⟨heq, hex⟩ | ⟨_, hex⟩
    · rw [Does, Takes, hex]
      refine hhead.trans (ih (h.resume sent) (by rw [resume_reason]; exact hr) ?_)
      rw [resume_queue hq, if_neg (not_lt.mpr heq.ge)]
    · rw [Does, Takes, hex]
      exact hhead

theorem flushQueuedDeviceCommands_does (h : Sound s) :
    Does E [.resume, .own] (flushQueuedDeviceCommands E) s := by
  refine .get_bind ?_
  split
  · exact .refl
  · split
    · exact .refl
    · next hr =>
      have hr' : s.deviceCommandQueueReason = none := by simpa using hr
      refine .bind ((flushLoop_does h hr' rfl).mono (subset_of_all rfl)) fun drained _ _ => ?_
      split
      · exact publishOwnStatus_does.mono (subset_of_all rfl)
      · exact .refl

/-! ## Calls of the state manager -/

/-- The labels of a call of the state manager: the call itself, and the labels
of the actions it returns. -/
def CallLabel (s : Bridge) (c : Call) (l : Label) : Prop :=
  l = .call c ∨ ∃ x ∈ (s.state.call c).2, l.Of x

/-- The state manager is called and the actions it returns are executed. -/
theorem calls_takes (now : Timestamp) (h : Sound s) {c : Call} (hc : c.FromBridge) :
    Path (system E) (s.CallLabel c) s (exec (executeActions E now (s.state.call c).2)
      { s with state := (s.state.call c).1 }).2 := by
  have hcall : Path (system E) (s.CallLabel c) s { s with state := (s.state.call c).1 } :=
    Path.single (G := system E) (l := .call c) (.inl rfl) hc
  exact hcall.trans ((executeActions_takes now (StateManager.call_concerns h.keyed hc)).mono
    fun _ => .inr)

theorem notify_takes (now : Timestamp) (h : Sound s) {c : Call} (hc : c.FromBridge)
    {notification : StateManager → StateManager × List BridgeAction}
    (hn : ∀ sm : StateManager, notification sm = sm.call c) :
    Takes (system E) (s.CallLabel c) (notify E now notification) s := by
  have hrun : exec (notify E now notification) s =
      exec (executeActions E now (s.state.call c).2) { s with state := (s.state.call c).1 } := by
    simp only [notify, exec_bind, exec_get, exec_set, hn]
  rw [Takes, hrun]
  exact calls_takes now h hc

end Does

end Bridge

end MochadBridge
