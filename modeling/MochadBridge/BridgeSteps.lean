import MochadBridge.BridgeEffects
import MochadBridge.Lib.Run

/-!
# Steps of the bridge

Every callback is a path of labels from any sound state. What a message brings
is read off its topic and payload first (`messageCommand`); which labels a step
may take depends on that and on the kind of its input (`StepLabel`).

Results:
1. `exec_onMessage_command`: a message with a device command ends at the device
   table, or calls the state manager and executes what it returns.
2. `step_path`: so every step is a path of labels.
3. `init_sound`, `reaches_sound`: every state of a run is sound.
-/

namespace MochadBridge

open Py Effect

namespace Bridge

/-! ## What an input brings -/

/-- The device command of a message: the address of its topic and the command
its payload names. -/
def messageCommand (s : Bridge) (topic payload : String) : Option (String × Command) :=
  match Topics.parseBridgeCommandTopic topic s.mqtt.baseTopic with
  | .ok () => none
  | .error _ =>
    match Topics.parseCommandTopic topic s.mqtt.baseTopic with
    | .ok a => (parseCommandPayload (strip payload)).map fun c => (a, c)
    | .error _ => none

/-- The bridge command of a message. -/
def messageBridgeCommand (s : Bridge) (topic payload : String) : Option BridgeCommand :=
  match Topics.parseBridgeCommandTopic topic s.mqtt.baseTopic with
  | .ok () => parseBridgeCommandPayload (strip payload)
  | .error _ => none

/-- The device command of an input. -/
def inputCommand (s : Bridge) : Input → Option (String × Command)
  | .mqttMessage topic payload => s.messageCommand topic payload
  | _ => none

/-- The configuration that an input makes the bridge load: the check of the
file is due and the file is another one. -/
def inputConfig (s : Bridge) : Input → Option Config
  | .poll monotonic signature (.ok newConfig) =>
    if s.config.configFile.isSome ∧ s.nextConfigReloadCheck ≤ monotonic ∧
        signature ≠ s.configFileSignature then some newConfig
    else none
  | _ => none

/-- The diagnostic object of a mochad line. -/
def lineDiagnostic (line : String) : Option (List (String × Json) × DiagnosticKind) :=
  diagnosticLine (stripChars ['\r', '\n'] line)

/-- The call of the state manager that an input brings. -/
def stepCall (s : Bridge) (now : Timestamp) : Input → Option Call
  | .mqttMessage topic payload =>
    (s.messageCommand topic payload).bind fun (a, c) =>
      if c ∈ (s.deviceAt a).supportedCommands then some (.optimisticUpdate now a c) else none
  | .mqttConnected => some .mqttConnected
  | .mqttDisconnected => if s.stopping then none else some .mqttDisconnected
  | .mochadConnected => if s.stopping then none else some .mochadConnected
  | .mochadDisconnected => some .mochadDisconnected
  | .mochadLine line =>
    if (lineDiagnostic line).isSome then none
    else
      (s.parser.parseLine now (stripChars ['\r', '\n'] line)).toOption.map fun r =>
        .apply now r.1
  | _ => none

/-- The input is a turn of the polling loop. -/
def Input.polls : Input → Bool
  | .poll .. => true
  | _ => false

/-- The kinds of labels of an input, apart from the ones that carry what the
input brings. -/
def inputKinds (s : Bridge) : Input → List Kind
  | .mqttMessage topic payload =>
    if (s.messageCommand topic payload).isSome then []
    else bridgeCommandKinds ++ s.maintenanceKinds (s.messageBridgeCommand topic payload)
  | .mqttConnected => [.config, .registry, .clear]
  | .mqttDisconnected => []
  | .mochadConnected => [.line]
  | .mochadDisconnected => [.diagnostics]
  | .mochadLine line =>
    if (lineDiagnostic line).isSome then [.diagnostics, .own, .config, .registry, .resume]
    else [.parser]
  | .poll monotonic signature loaded => [.watch, .crashed] ++
    if (s.inputConfig (.poll monotonic signature loaded)).isSome then
      [.own, .config, .registry, .clear]
    else []
  | .stop => [.own, .stopping]

/-- The kinds of a message without a device command. -/
theorem kind_of_message {s : Bridge} {topic payload : String} {k : Kind}
    (h : k ∈ s.inputKinds (.mqttMessage topic payload)) :
    k ∈ [.own, .line, .config, .registry, .clear, .reset] := by
  simp only [inputKinds] at h
  split at h
  · exact absurd h List.not_mem_nil
  · rcases s.maintenanceKinds_cases (s.messageBridgeCommand topic payload) with hk | hk | hk <;>
      rw [hk] at h <;> revert h <;> cases k <;> decide

/-- The labels a step may take. -/
def StepLabel (s : Bridge) (now : Timestamp) (i : Input) : Label → Prop
  | .commanded a => (s.inputCommand i).map Prod.fst = some a
  | .install newConfig => s.inputConfig i = some newConfig
  | .mqtt connected => i = if connected then .mqttConnected else .mqttDisconnected
  | .mochad connected => i = if connected then .mochadConnected else .mochadDisconnected
  | l => l.kind ∈ s.inputKinds i ∨ ∃ c, s.stepCall now i = some c ∧ s.CallLabel c l

/-- Labels of the kinds of an input are labels of its step. -/
theorem stepLabel_of_kinds {s : Bridge} {now : Timestamp} {i : Input} {ks : List Kind}
    (h : ks ⊆ s.inputKinds i)
    (hks : ks.all (· ∉ [.commanded, .install, .mqtt, .mochad]) = true) (l : Label)
    (hl : Kinds ks l) : StepLabel s now i l := by
  have hkind := List.all_eq_true.mp hks l.kind hl
  cases l <;> first | exact .inl (h hl) | exact absurd hkind (by simp [Label.kind])

/-- Labels of the call of an input are labels of its step. -/
theorem stepLabel_of_call {s t : Bridge} {now : Timestamp} {i : Input} {c : Call}
    (h : s.stepCall now i = some c) (ht : t.state = s.state) (l : Label) (hl : t.CallLabel c l) :
    StepLabel s now i l := by
  have hl' : s.CallLabel c l := by
    unfold CallLabel
    rw [← ht]
    exact hl
  cases l <;> first
    | exact .inr ⟨c, h, hl'⟩
    | (rcases hl' with hl' | ⟨x, _, hl'⟩
       · exact absurd hl' (by simp)
       · exact absurd hl' id)

/-- The kinds of labels that only a call takes. -/
def callKinds : List Kind := [.report, .state, .insert, .command, .call]

theorem not_mem_inputKinds {s : Bridge} {k : Kind} (h : k ∈ callKinds) (i : Input) :
    k ∉ s.inputKinds i := by
  intro hi
  have hother : ∀ ks : List Kind, ks.all (· ∉ callKinds) = true → k ∉ ks := fun ks hks hk =>
    of_decide_eq_true (List.all_eq_true.mp hks k hk) h
  cases i with
  | mqttMessage topic payload => exact hother _ rfl (kind_of_message hi)
  | mochadLine line =>
    simp only [inputKinds] at hi
    split at hi <;> exact hother _ rfl hi
  | poll monotonic signature loaded =>
    simp only [inputKinds] at hi
    split at hi <;> exact hother _ rfl hi
  | _ => exact hother _ rfl hi

/-- A label that only a call takes belongs to the call of the input. -/
theorem call_of_stepLabel {s : Bridge} {now : Timestamp} {i : Input} {l : Label}
    (h : StepLabel s now i l) (hk : l.kind ∈ callKinds) :
    ∃ c, s.stepCall now i = some c ∧ s.CallLabel c l := by
  have hi := not_mem_inputKinds (s := s) hk i
  cases l with
  | commanded | install | mqtt | mochad => exact absurd hk (by simp [Label.kind, callKinds])
  | _ => exact Or.resolve_left h hi

section Messages
variable {E : Env} {s : Bridge} {topic payload : String} {a : String} {c : Command}

/-- A message with a bridge command is handled as this command. -/
theorem exec_onMessage_bridge (now : Timestamp) {command : BridgeCommand}
    (h : s.messageBridgeCommand topic payload = some command) :
    s.messageCommand topic payload = none ∧
      exec (onMessage E now topic payload) s = exec (handleBridgeCommand E now command) s := by
  rw [messageBridgeCommand] at h
  split at h
  · next hb =>
    refine ⟨by rw [messageCommand, hb], ?_⟩
    rw [onMessage, exec_bind, exec_get]
    dsimp only
    rw [hb]
    dsimp only
    rw [onMqttBridgeCommand, h]
  · cases h

theorem parseCommandTopic_isAddress {base : String}
    (h : Topics.parseCommandTopic topic base = .ok a) : IsAddress a := by
  obtain ⟨b, _, h⟩ := bind_ok h
  split at h
  · split at h
    · cases h
    · exact Topics.address_isAddress h
  · cases h

theorem parseCommandPayload_encodes {text : String} (h : parseCommandPayload text = some c) :
    (Protocol.encodeCommandMap c).isSome = true := by
  simp only [parseCommandPayload, commandPayloads, List.lookup_cons, List.lookup_nil] at h
  split at h
  · cases h; rfl
  · split at h
    · cases h; rfl
    · split at h
      · cases h; rfl
      · split at h
        · cases h; rfl
        · cases h

/-- The parts of a message with a device command. -/
theorem messageCommand_some (h : s.messageCommand topic payload = some (a, c)) :
    (∃ e, Topics.parseBridgeCommandTopic topic s.mqtt.baseTopic = .error e) ∧
      Topics.parseCommandTopic topic s.mqtt.baseTopic = .ok a ∧
      parseCommandPayload (strip payload) = some c := by
  unfold messageCommand at h
  split at h
  · cases h
  · next e he =>
    split at h
    · next a' ha =>
      obtain ⟨c', hc, he'⟩ := Option.map_eq_some_iff.mp h
      cases he'
      exact ⟨⟨e, he⟩, ha, hc⟩
    · cases h

theorem sendable_of_messageCommand (h : s.messageCommand topic payload = some (a, c)) :
    Protocol.Sendable a c := by
  obtain ⟨_, ha, hc⟩ := messageCommand_some h
  exact ⟨parseCommandTopic_isAddress ha, parseCommandPayload_encodes hc⟩

/-- The state manager gets the command of a message that the device table
supports. -/
theorem command_of_stepCall {now now' : Timestamp} {i : Input}
    (h : s.stepCall now i = some (.optimisticUpdate now' a c)) :
    s.inputCommand i = some (a, c) ∧ c ∈ (s.deviceAt a).supportedCommands := by
  cases i with
  | mqttMessage topic payload =>
    simp only [stepCall] at h
    obtain ⟨ac, hm, h⟩ := Option.bind_eq_some_iff.mp h
    split at h
    · next hc =>
      obtain ⟨_, rfl, rfl⟩ := Call.optimisticUpdate.inj (Option.some.inj h)
      exact ⟨hm, hc⟩
    · cases h
  | mochadLine line =>
    simp only [stepCall] at h
    split at h
    · cases h
    · obtain ⟨_, _, h⟩ := Option.map_eq_some_iff.mp h
      exact Call.noConfusion h
  | mqttConnected | mochadDisconnected => exact Call.noConfusion (Option.some.inj h)
  | mqttDisconnected | mochadConnected =>
    simp only [stepCall] at h
    split at h
    · cases h
    · exact Call.noConfusion (Option.some.inj h)
  | poll | stop => cases h

/-- Only a new MQTT connection calls `mqtt_connected`. -/
theorem mqttConnected_of_stepCall {now : Timestamp} {i : Input}
    (h : s.stepCall now i = some .mqttConnected) : i = .mqttConnected := by
  cases i with
  | mqttConnected => rfl
  | mqttMessage topic payload =>
    simp only [stepCall] at h
    obtain ⟨ac, _, h⟩ := Option.bind_eq_some_iff.mp h
    split at h
    · exact Call.noConfusion (Option.some.inj h)
    · cases h
  | mochadLine line =>
    simp only [stepCall] at h
    split at h
    · cases h
    · obtain ⟨_, _, h⟩ := Option.map_eq_some_iff.mp h
      exact Call.noConfusion h
  | mochadDisconnected => exact Call.noConfusion (Option.some.inj h)
  | mqttDisconnected | mochadConnected =>
    simp only [stepCall] at h
    split at h
    · cases h
    · exact Call.noConfusion (Option.some.inj h)
  | poll | stop => cases h

/-- A message with a device command that the device table does not support. -/
theorem exec_onMessage_unsupported (h : Sound s) (now : Timestamp)
    (hm : s.messageCommand topic payload = some (a, c))
    (hc : c ∉ (s.deviceAt a).supportedCommands) :
    exec (onMessage E now topic payload) s = (.ok (), s.withDevice a) := by
  obtain ⟨⟨e, hb⟩, ht, hp⟩ := messageCommand_some hm
  have haddr := Protocol.normalizeAddress_of_isAddress (parseCommandTopic_isAddress ht)
  simp only [onMessage, onMqttCommand, exec_bind, exec_get, hb, ht, hp, h.configBase, haddr,
    ne_eq, not_true_eq_false, if_false, exec_deviceConfig, hc, not_false_eq_true, if_true]
  rfl

/-- A message with a device command that the device table supports. -/
theorem exec_onMessage_command (h : Sound s) (now : Timestamp)
    (hm : s.messageCommand topic payload = some (a, c))
    (hc : c ∈ (s.deviceAt a).supportedCommands) :
    exec (onMessage E now topic payload) s =
      exec (executeActions E now (s.state.call (.optimisticUpdate now a c)).2)
        { s.withDevice a with state := (s.state.call (.optimisticUpdate now a c)).1 } := by
  obtain ⟨⟨e, hb⟩, ht, hp⟩ := messageCommand_some hm
  have hs := sendable_of_messageCommand hm
  have haddr := Protocol.normalizeAddress_of_isAddress hs.1
  simp only [onMessage, onMqttCommand, exec_bind, exec_get, hb, ht, hp, h.configBase, haddr,
    ne_eq, not_true_eq_false, if_false, exec_deviceConfig, hc, encode_of_sendable hs, exec_set]
  rfl

/-- A message without a device command. -/
theorem onMessage_other_does (h : Sound s) (now : Timestamp)
    (hm : s.messageCommand topic payload = none) :
    Does E (bridgeCommandKinds ++ s.maintenanceKinds (s.messageBridgeCommand topic payload))
      (onMessage E now topic payload) s := by
  unfold messageCommand at hm
  refine .get_bind ?_
  split
  · next hb =>
    have hcommand : s.messageBridgeCommand topic payload =
        parseBridgeCommandPayload (strip payload) := by
      rw [messageBridgeCommand, hb]
    rw [hcommand]
    exact onMqttBridgeCommand_does now _ _
  · next e he =>
    simp only [he] at hm
    split
    · next device hd =>
      have hp : parseCommandPayload (strip payload) = none := by
        simpa only [hd, Option.map_eq_none_iff] using hm
      refine .nothing ?_
      simp only [onMqttCommand, exec_bind, exec_get, h.configBase, hd, ne_eq, not_true_eq_false,
        if_false, hp]
      rfl
    · exact .refl

end Messages

/-! ## Callbacks -/

section Callbacks
variable {E : Env} {s : Bridge}

/-- The labels of a message. -/
theorem onMessage_takes (h : Sound s) (now : Timestamp) (topic payload : String) :
    Takes (system E) (StepLabel s now (.mqttMessage topic payload))
      (onMessage E now topic payload) s := by
  cases hm : s.messageCommand topic payload with
  | none =>
    refine (onMessage_other_does h now hm).mono (stepLabel_of_kinds ?_ ?_)
    · simp only [inputKinds, hm, Option.isSome_none, Bool.false_eq_true, if_false,
        List.Subset.refl]
    · rcases s.maintenanceKinds_cases (s.messageBridgeCommand topic payload) with hk | hk | hk <;>
        rw [hk] <;> decide
  | some ac =>
    obtain ⟨a, c⟩ := ac
    have hs := sendable_of_messageCommand hm
    have hcmd : StepLabel s now (.mqttMessage topic payload) (.commanded a) := by
      simp only [StepLabel, inputCommand, hm, Option.map_some]
    have hinsert : Path (system E) (StepLabel s now (.mqttMessage topic payload)) s
        (s.withDevice a) := Path.single (G := system E) (l := .commanded a) hcmd hs.1
    by_cases hc : c ∈ (s.deviceAt a).supportedCommands
    · have hrest := calls_takes (E := E) now (h.withDevice a) (c := .optimisticUpdate now a c) hs
      rw [Takes, exec_onMessage_command h now hm hc]
      refine hinsert.trans (hrest.mono (stepLabel_of_call ?_ rfl))
      simp only [stepCall, hm, Option.bind_some, if_pos hc]
    · rw [Takes, exec_onMessage_unsupported h now hm hc]
      exact hinsert

/-- What follows a new MQTT connection: the state manager is called, and discovery is
published. -/
theorem onMqttConnected_takes (h : Sound s) (now : Timestamp) :
    Takes (system E) (fun l => s.CallLabel .mqttConnected l ∨ Kinds [.config, .registry, .clear] l)
      (onMqttConnected E now) s := by
  refine .bind ((notify_takes now h (c := .mqttConnected) trivial fun _ => rfl).mono
    fun _ => .inl) fun _ _ _ => ?_
  refine .bind (publishBridgeDiagnosticDiscovery_does.mono fun l hl => .inr ?_) fun _ _ _ => ?_
  · exact subset_of_all (K := [.config]) rfl l hl
  · refine .bind ((runDiscoveryCleanup_does false).mono fun l hl => .inr ?_) fun _ _ _ => .refl
    exact subset_of_all (K := [.registry, .clear]) rfl l hl

theorem onConnect_takes (h : Sound s) (now : Timestamp) :
    Takes (system E) (StepLabel s now .mqttConnected) (onConnect E now) s := by
  have hlink : Sound ((Label.mqtt true).apply s) := h.apply (E := E) trivial
  refine .bind (.label (.mqtt true) rfl rfl trivial) fun _ t ht => ?_
  cases ht
  refine (onMqttConnected_takes hlink now).mono fun l => ?_
  rintro (hl | hl)
  · exact stepLabel_of_call (i := .mqttConnected) rfl rfl l hl
  · exact stepLabel_of_kinds (List.Subset.refl _) rfl l hl

theorem exec_onDisconnect (now : Timestamp) : exec (onDisconnect E now) s =
    if s.stopping then (.ok (), (Label.mqtt false).apply s)
    else exec (notify E now StateManager.onMqttDisconnected) ((Label.mqtt false).apply s) := by
  rw [onDisconnect, exec_bind_ok _ _ _ (exec_modify _ _), exec_bind, exec_get]
  by_cases hstop : s.stopping = true
  · rw [if_pos hstop]
    exact congrArg (exec · _) (if_pos hstop)
  · rw [if_neg hstop]
    exact congrArg (exec · _) (if_neg hstop)

theorem onDisconnect_takes (h : Sound s) (now : Timestamp) :
    Takes (system E) (StepLabel s now .mqttDisconnected) (onDisconnect E now) s := by
  have hlink : Sound ((Label.mqtt false).apply s) := h.apply (E := E) trivial
  refine .bind (.label (.mqtt false) rfl rfl trivial) fun _ t ht => ?_
  cases ht
  refine .get_bind ?_
  split
  · exact .refl
  · next hstop =>
    refine (notify_takes now hlink (c := .mqttDisconnected) trivial fun _ => rfl).mono
      (stepLabel_of_call ?_ rfl)
    exact if_neg hstop

theorem requestMochadDiagnostics_does (now : Timestamp) {commands : List String}
    (hc : ∀ c ∈ commands, c ∈ ["hello", "capabilities", "health"]) :
    Does E [.line] (requestMochadDiagnostics E now commands) s := by
  induction commands generalizing s with
  | nil => exact .refl
  | cons command commands ih =>
    refine .bind (.tryCatch (.bind ?_ fun _ _ _ => .refl) fun e _ _ => ?_) fun sent _ _ => ?_
    · exact sendLine_takes (List.mem_cons_of_mem _ (hc command List.mem_cons_self))
        fun _ => of_kind rfl
    · split <;> exact .refl
    · split
      · exact ih fun c hm => hc c (List.mem_cons_of_mem _ hm)
      · exact .refl

/-- What follows a new mochad connection. -/
theorem onMochadConnected_takes (h : Sound s) (now : Timestamp) :
    Takes (system E) (fun l => s.CallLabel .mochadConnected l ∨ Kinds [.line] l)
      (onMochadConnected E now) s := by
  refine .bind ((notify_takes now h (c := .mochadConnected) trivial fun _ => rfl).mono
    fun _ => .inl) fun _ _ _ => ?_
  exact (requestMochadDiagnostics_does now fun c hc => hc).mono fun _ => .inr

theorem connect_takes (h : Sound s) (now : Timestamp) :
    Takes (system E) (StepLabel s now .mochadConnected) (connect E now) s := by
  refine .get_bind ?_
  split
  · exact .refl
  · next hstop =>
    have hlink : Sound ((Label.mochad true).apply s) := h.apply (E := E) trivial
    refine .bind (.label (.mochad true) rfl rfl trivial) fun _ t ht => ?_
    cases ht
    refine (onMochadConnected_takes hlink now).mono fun l => ?_
    rintro (hl | hl)
    · exact stepLabel_of_call (i := .mochadConnected) (if_neg hstop) rfl l hl
    · exact stepLabel_of_kinds (List.Subset.refl _) rfl l hl

/-- The bridge when it has noticed the end of a mochad connection. -/
def unlinked (s : Bridge) (now : Timestamp) : Bridge :=
  { s with
    mochad := { s.mochad with connected := false }
    mochadDiagnostics := { s.mochadDiagnostics with
      usbConnected := .null
      endpointsReady := .null
      transfersReady := .null
      lastUpdated := some now } }

theorem exec_disconnect (now : Timestamp) : exec (disconnect E now) s =
    exec (notify E now StateManager.onMochadDisconnected) (s.unlinked now) := by
  rw [disconnect, exec_bind_ok _ _ _ (exec_modify _ _), onMochadDisconnected,
    exec_bind_ok _ _ _ (exec_modify _ _)]
  rfl

theorem unlinked_path (now : Timestamp) :
    Path (system E) (StepLabel s now .mochadDisconnected) s (s.unlinked now) := by
  have hdown : Path (system E) (StepLabel s now .mochadDisconnected) s
      ((Label.mochad false).apply s) :=
    Path.single (G := system E) (l := .mochad false) rfl trivial
  exact hdown.trans (Path.single (G := system E) (l := .diagnostics _)
    (.inl List.mem_cons_self) trivial)

theorem disconnect_takes (h : Sound s) (now : Timestamp) :
    Takes (system E) (StepLabel s now .mochadDisconnected) (disconnect E now) s := by
  have hpath := unlinked_path (E := E) (s := s) now
  rw [Takes, exec_disconnect]
  exact hpath.trans ((notify_takes now (h.path hpath) (c := .mochadDisconnected) trivial
    fun _ => rfl).mono (stepLabel_of_call rfl rfl))

theorem publishDiagnostics_does (kind : DiagnosticKind) :
    Does E [.own, .config, .registry] (publishDiagnostics E kind) s := by
  refine .get_bind ?_
  split
  · refine .bind (publishStatus_does _ true |>.mono (subset_of_all rfl)) fun _ _ _ => ?_
    split
    · refine .bind (publishCurrentDiscovery_does.mono (subset_of_all rfl)) fun _ _ _ => ?_
      refine (desiredDiscoveryTopics_does _).bind fun desired _ hdesired => ?_
      obtain ⟨hdesired, rfl⟩ := desires_of_exec hdesired
      refine .bind (.mono (subset_of_all rfl) (saveDiscoveryRegistry_does fun _ ht =>
        .inr ⟨desired, hdesired, ht⟩)) fun _ _ _ => .refl
    · exact .refl
  · exact .refl

/-- The bridge with the fields of a diagnostic object. -/
def merged (s : Bridge) (payload : List (String × Json)) (now : Timestamp) : Bridge :=
  { s with mochadDiagnostics := mergeMochadDiagnostics s.mochadDiagnostics payload now }

theorem exec_handleDiagnostics (now : Timestamp) (payload : List (String × Json))
    (kind : DiagnosticKind) : exec (handleDiagnostics E now payload kind) s =
      match exec (publishDiagnostics E kind) (s.merged payload now) with
      | (.error e, t) => (.error e, t)
      | (.ok (), t) => if kind = .health then exec (flushQueuedDeviceCommands E) t
        else (.ok (), t) := by
  rw [handleDiagnostics, exec_bind_ok _ _ _ (exec_modify _ _), exec_bind, merged]
  generalize exec (publishDiagnostics E kind) _ = outcome
  obtain ⟨result, t⟩ := outcome
  cases result with
  | error e => rfl
  | ok u =>
    by_cases hk : kind = .health
    · simp only [if_pos hk]
    · simp only [if_neg hk, exec_pure]

theorem handleDiagnostics_does (h : Sound s) (now : Timestamp) (payload : List (String × Json))
    (kind : DiagnosticKind) : Does E [.diagnostics, .own, .config, .registry, .resume]
      (handleDiagnostics E now payload kind) s := by
  have hmerge : Path (system E) (Kinds [.diagnostics, .own, .config, .registry]) s
      (s.merged payload now) :=
    Path.single (G := system E) (l := .diagnostics _) (of_kind rfl) trivial
  have hpublish := hmerge.trans ((publishDiagnostics_does (E := E) kind).mono
    (subset_of_all rfl))
  rw [Does, Takes, exec_handleDiagnostics]
  split
  · next e t ht =>
    rw [ht] at hpublish
    exact hpublish.mono (subset_of_all rfl)
  · next t ht =>
    rw [ht] at hpublish
    split
    · exact (hpublish.mono (subset_of_all rfl)).trans
        ((flushQueuedDeviceCommands_does (h.path hpublish)).mono (subset_of_all rfl))
    · exact hpublish.mono (subset_of_all rfl)

/-- A line that is not a diagnostic: it is parsed, and the event is applied. -/
theorem exec_onMochadLine (now : Timestamp) {line : String} (hd : lineDiagnostic line = none) :
    exec (onMochadLine E now line) s =
      match s.parser.parseLine now (stripChars ['\r', '\n'] line) with
      | .error e => (.error e, s)
      | .ok (event, parser) =>
        exec (executeActions E now (s.state.call (.apply now event)).2)
          { s with parser := parser, state := (s.state.call (.apply now event)).1 } := by
  rw [lineDiagnostic] at hd
  simp only [onMochadLine, hd, exec_bind, exec_get, exec_ofExcept]
  cases s.parser.parseLine now (stripChars ['\r', '\n'] line) with
  | error e => rfl
  | ok r => rfl

theorem exec_onMochadLine_diagnostic (now : Timestamp) {line : String}
    {payload : List (String × Json)} {kind : DiagnosticKind}
    (hd : lineDiagnostic line = some (payload, kind)) :
    exec (onMochadLine E now line) s = exec (handleDiagnostics E now payload kind) s := by
  rw [lineDiagnostic] at hd
  simp only [onMochadLine, hd]

theorem onMochadLine_takes (h : Sound s) (now : Timestamp) (line : String) :
    Takes (system E) (StepLabel s now (.mochadLine line)) (onMochadLine E now line) s := by
  cases hd : lineDiagnostic line with
  | some diagnostic =>
    rw [Takes, exec_onMochadLine_diagnostic now hd]
    refine (handleDiagnostics_does h now _ _).mono (stepLabel_of_kinds ?_ (by decide))
    simp only [inputKinds, hd, Option.isSome_some, if_true, List.Subset.refl]
  | none =>
    rw [Takes, exec_onMochadLine now hd]
    cases hp : s.parser.parseLine now (stripChars ['\r', '\n'] line) with
    | error e => exact .refl
    | ok r =>
      obtain ⟨event, parser⟩ := r
      obtain ⟨hcanonical, hevent⟩ := ProtocolParser.parseLine_event h.parser hp
      have hkind : StepLabel s now (.mochadLine line) (.parser parser) := by
        simp [StepLabel, inputKinds, hd, Label.kind]
      have hparser : Path (system E) (StepLabel s now (.mochadLine line)) s
          { s with parser := parser } :=
        Path.single (G := system E) (l := .parser parser) hkind hcanonical
      have hsound : Sound { s with parser := parser } := h.apply (E := E)
        (l := .parser parser) hcanonical
      have hbridge : (Call.apply now event).FromBridge := by
        cases event with
        | none => trivial
        | some e => exact hevent e rfl
      refine hparser.trans ((calls_takes now hsound hbridge).mono (stepLabel_of_call ?_ rfl))
      simp only [stepCall, hd, hp, Option.isSome_none, Bool.false_eq_true, if_false,
        Except.toOption, Option.map_some]

/-- The calls of a step carry what the bridge hands on. -/
theorem fromBridge_of_stepCall (h : Sound s) {now : Timestamp} {i : Input} {c : Call}
    (hc : s.stepCall now i = some c) : c.FromBridge := by
  cases i with
  | mqttMessage topic payload =>
    simp only [stepCall] at hc
    obtain ⟨⟨a, command⟩, hm, hc⟩ := Option.bind_eq_some_iff.mp hc
    split at hc
    · rw [← Option.some.inj hc]
      exact sendable_of_messageCommand hm
    · cases hc
  | mochadLine line =>
    simp only [stepCall] at hc
    split at hc
    · cases hc
    · obtain ⟨⟨event, parser⟩, hp, rfl⟩ := Option.map_eq_some_iff.mp hc
      cases hparse : s.parser.parseLine now (stripChars ['\r', '\n'] line) with
      | error e =>
        rw [hparse] at hp
        cases hp
      | ok r =>
        rw [hparse] at hp
        cases hp
        obtain ⟨_, hevent⟩ := ProtocolParser.parseLine_event h.parser hparse
        cases event with
        | none => trivial
        | some e => exact hevent e rfl
  | mqttConnected | mochadDisconnected =>
    rw [← Option.some.inj hc]
    trivial
  | mqttDisconnected | mochadConnected =>
    simp only [stepCall] at hc
    split at hc
    · cases hc
    · rw [← Option.some.inj hc]
      trivial
  | poll | stop => cases hc

/-- What follows the installation of a reloaded table. -/
theorem announceReload_does : Does E [.config, .registry, .clear, .own] (do
    let s ← get
    if s.mqtt.connected then
      let _ ← publishCurrentDiscovery
      let _ ← runDiscoveryCleanup E false
      let s ← get
      publishStatus (.obj s.bridgeStatusPayload) true) s := by
  refine .get_bind ?_
  split
  · refine .bind (publishCurrentDiscovery_does.mono (subset_of_all rfl)) fun _ _ _ => ?_
    refine .bind ((runDiscoveryCleanup_does false).mono (subset_of_all rfl)) fun _ _ _ => ?_
    exact .get_bind ((publishStatus_does _ true).mono (subset_of_all rfl))
  · exact .refl

/-- A reload brings the table of the new configuration, and publishes. -/
theorem applyRuntimeConfig_path (newConfig : Config) :
    ∃ u, Path (system E) (· = .install newConfig) s u ∧
      (∀ k, u.devices.get? k = (s.install newConfig).devices.get? k) ∧
      Path (system E) (Kinds [.config, .registry, .clear, .own]) u
        (exec (applyRuntimeConfig E newConfig) s).2 := by
  rw [applyRuntimeConfig, exec_bind, exec_get]
  dsimp only
  split
  · next hsame => exact ⟨s, .refl, fun k => (Dict.sameItems_iff.mp hsame.1 k).symm, .refl⟩
  · refine ⟨s.install newConfig, Path.single (G := system E) (l := .install newConfig) rfl trivial,
      fun _ => rfl, ?_⟩
    rw [exec_bind_ok _ _ _ (exec_modify _ _)]
    exact announceReload_does (s := s.install newConfig)

theorem applyRuntimeConfig_takes (newConfig : Config) :
    Takes (system E) (fun l => l = .install newConfig ∨
        Kinds [.config, .registry, .clear, .own] l)
      (applyRuntimeConfig E newConfig) s := by
  obtain ⟨u, hinstall, _, hrest⟩ := applyRuntimeConfig_path (E := E) (s := s) newConfig
  exact (hinstall.mono fun _ => .inl).trans (hrest.mono fun _ => .inr)

theorem checkConfigFileReload_takes (now : Timestamp) (monotonic : Nat)
    (signature : Option (Int × Nat)) (loaded : Except PyError Config) :
    Takes (system E) (StepLabel s now (.poll monotonic signature loaded))
      (checkConfigFileReload E monotonic signature loaded) s := by
  have hwatch : ∀ signature' next, StepLabel s now (.poll monotonic signature loaded)
      (.watch signature' next) := fun _ _ => .inl List.mem_cons_self
  refine .get_bind ?_
  split
  · exact .refl
  · next hfile =>
    split
    · exact .refl
    · next hdue =>
      refine .bind (.label (.watch s.configFileSignature _) rfl (hwatch _ _) trivial)
        fun _ _ _ => ?_
      split
      · exact .refl
      · next hsame =>
        cases loaded with
        | error e => cases e <;> exact .refl
        | ok newConfig =>
          have hloads : s.inputConfig (.poll monotonic signature (.ok newConfig)) =
              some newConfig := by
            rw [inputConfig, if_pos]
            simpa [Option.isSome_iff_ne_none] using And.intro hfile (And.intro hdue hsame)
          refine .bind ((applyRuntimeConfig_takes newConfig).mono ?_) fun _ t _ => ?_
          · rintro l (rfl | hl)
            · exact hloads
            · exact stepLabel_of_kinds (by simp [inputKinds, hloads]) (by decide) l hl
          · exact .label (.watch signature t.nextConfigReloadCheck) rfl (hwatch _ _) trivial

theorem stop_does : Does E [.own, .stopping] stop s := by
  refine .bind (.label .stopping rfl (of_kind rfl) trivial) fun _ t ht => .get_bind ?_
  split
  · refine .bind ((publishStatus_does _ true).mono (subset_of_all rfl)) fun _ _ _ => ?_
    exact (own_does "availability" (by simp) _ _).mono (subset_of_all rfl)
  · exact .refl

/-- Every callback takes labels of its input. -/
theorem callback_takes (h : Sound s) (now : Timestamp) (i : Input) :
    Takes (system E) (StepLabel s now i) (callback E now i) s := by
  cases i with
  | mqttMessage topic payload => exact onMessage_takes h now topic payload
  | mqttConnected => exact onConnect_takes h now
  | mqttDisconnected => exact onDisconnect_takes h now
  | mochadConnected => exact connect_takes h now
  | mochadDisconnected => exact disconnect_takes h now
  | mochadLine line => exact onMochadLine_takes h now line
  | poll monotonic signature loaded =>
    exact checkConfigFileReload_takes now monotonic signature loaded
  | stop => exact stop_does.mono (stepLabel_of_kinds (List.Subset.refl _) rfl)

/-- Every step is a path of labels of its input. -/
theorem step_path (h : Sound s) (i : Timestamp × Input) :
    Path (system E) (StepLabel s i.1 i.2) s (step E s i) := by
  have hcall := callback_takes (E := E) h i.1 i.2
  rw [Takes] at hcall
  unfold step
  split
  · exact .refl
  · split
    · split
      · exact .refl
      · next hpoll _ =>
        split
        · next heq => rwa [heq] at hcall
        · next heq =>
          rw [heq] at hcall
          refine hcall.trans (Path.single (G := system E) (l := .crashed) ?_ trivial)
          rw [hpoll]
          exact .inl (by simp [inputKinds, Label.kind])
    · exact hcall

/-- Outside the polling loop, a step is its callback. -/
theorem step_callback (hlive : s.crashed = false) {now : Timestamp} {i : Input}
    (hi : i.polls = false) : step E s (now, i) = (exec (callback E now i) s).2 := by
  rw [step, hlive]
  cases i with
  | poll monotonic signature loaded => exact absurd hi (by simp [Input.polls])
  | _ => rfl

theorem step_sound (h : Sound s) (i : Timestamp × Input) : Sound (step E s i) :=
  h.path (step_path h i)

/-- A step that loads a configuration applies it, and notes the file. -/
theorem reload_applies (hlive : s.crashed = false) (hruns : s.stopping = false)
    {i : Timestamp × Input} {newConfig : Config} (hi : s.inputConfig i.2 = some newConfig) :
    ∃ next, Path (system E) (Kinds [.watch, .crashed])
      (exec (applyRuntimeConfig E newConfig) ((Label.watch s.configFileSignature next).apply s)).2
      (step E s i) := by
  obtain ⟨now, i⟩ := i
  cases i with
  | poll monotonic signature loaded =>
    cases loaded with
    | error e => cases hi
    | ok newConfig' =>
      rw [inputConfig] at hi
      split at hi
      · next hdue =>
        obtain rfl := Option.some.inj hi
        refine ⟨monotonic + s.config.configReloadIntervalMicros, ?_⟩
        set w : Bridge := (Label.watch s.configFileSignature
          (monotonic + s.config.configReloadIntervalMicros)).apply s
        have hexec : exec (callback E now (.poll monotonic signature (.ok newConfig'))) s =
            exec (do
              applyRuntimeConfig E newConfig'
              modify fun s => { s with configFileSignature := signature }) w := by
          have hfile : s.config.configFile.isNone = false := by
            cases h : s.config.configFile <;> simp_all
          simp only [callback, checkConfigFileReload, exec_bind, exec_get, hfile,
            Bool.false_eq_true, if_false, Bool.not_false, true_and,
            if_neg (not_lt.mpr hdue.2.1), if_neg hdue.2.2, exec_modify]
          rfl
        rw [step, hlive, hruns]
        simp only [Bool.false_eq_true, if_false, hexec, exec_bind]
        generalize exec (applyRuntimeConfig E newConfig') w = outcome
        obtain ⟨result, t⟩ := outcome
        cases result with
        | error e => exact Path.single (G := system E) (l := .crashed) (of_kind rfl) trivial
        | ok u =>
          exact Path.single (G := system E) (l := .watch signature t.nextConfigReloadCheck)
            (of_kind rfl) trivial
      · cases hi
  | _ => cases hi

/-- A step that loads a configuration brings its table, and publishes. -/
theorem reload_path (hlive : s.crashed = false) (hruns : s.stopping = false)
    {i : Timestamp × Input} {newConfig : Config} (hi : s.inputConfig i.2 = some newConfig) :
    ∃ u, Path (system E) (fun l => l = .install newConfig ∨ l.kind = .watch) s u ∧
      (∀ k, u.devices.get? k = (s.install newConfig).devices.get? k) ∧
      Path (system E) (Kinds [.config, .registry, .clear, .own, .watch, .crashed]) u
        (step E s i) := by
  obtain ⟨next, hstep⟩ := reload_applies (E := E) hlive hruns hi
  obtain ⟨u, hinstall, hdevices, hrest⟩ := applyRuntimeConfig_path (E := E)
    (s := (Label.watch s.configFileSignature next).apply s) newConfig
  have hwatch : Path (system E) (fun l => l = .install newConfig ∨ l.kind = .watch) s
      ((Label.watch s.configFileSignature next).apply s) :=
    Path.single (G := system E) (l := .watch s.configFileSignature next) (.inr rfl) trivial
  refine ⟨u, hwatch.trans (hinstall.mono fun _ => .inl), hdevices, ?_⟩
  exact (hrest.mono (subset_of_all rfl)).trans (hstep.mono (subset_of_all rfl))

/-- No label changes how the state manager was set up. -/
theorem apply_setup (h : Sound s) (l : Label) :
    StateManager.SameSetup s.state (l.apply s).state := by
  by_cases hl : l.kind = .call
  · cases l with
    | call c => exact (StateManager.call_effect h.keyed c).setup
    | _ => simp [Label.kind] at hl
  · rw [apply_state hl]
    exact .refl _

theorem path_setup {K : Label → Prop} {t : Bridge} (h : Sound s) (hp : Path (system E) K s t) :
    StateManager.SameSetup s.state t.state :=
  h.carries (I := fun u => StateManager.SameSetup s.state u.state) hp (.refl _)
    fun l _ _ _ hu hsetup => hsetup.trans (apply_setup hu l)

/-! ## Start -/

/-- The devices that a new bridge knows are the allowed ones of its table. -/
theorem known_init {config : Config} {k : String}
    (hk : k ∈ (StateManager.init (config.devices.filterKeys (addressAllowedByConfig config)).values
      config.optimisticUpdates config.x10Housecodes).devices.keys) :
    ∃ d, Config.Configured k d ∧ config.devices.get? k = some d := by
  obtain ⟨d, hd, _, rfl⟩ := (StateManager.init_keys _ _ _ k).mp hk
  obtain ⟨k, hget⟩ := Dict.mem_values.mp hd
  rw [Dict.get?_filterKeys] at hget
  split at hget
  · have hc := config.configured k d hget
    have hkey : normalize d.address = k := by
      rw [hc.address]
      exact hc.normal
    exact ⟨d, hkey ▸ hc, hkey ▸ hget⟩
  · cases hget

section Start
variable {config : Config} {signature : Option (Int × Nat)} {monotonic : Nat}
  {registry : RegistryFile} {journal : Journal}

/-- A new bridge, up to the registry file it leaves. -/
theorem init_ok (h : init E config signature monotonic registry journal = .ok s) :
    (∃ b, Topics.cleanSegment config.mqttBaseTopic = .ok b) ∧ ∃ file, s =
      { config := config
        devices := config.devices.filterKeys (addressAllowedByConfig config)
        state := StateManager.init
          (config.devices.filterKeys (addressAllowedByConfig config)).values
          config.optimisticUpdates config.x10Housecodes
        discovery := {
          discoveryPrefix := config.mqttDiscoveryPrefix
          baseTopic := config.mqttBaseTopic
          enableMaintenanceButtons := config.enableMaintenanceButtons }
        mqtt := { baseTopic := config.mqttBaseTopic }
        registry := file
        configFileSignature := signature
        nextConfigReloadCheck := monotonic + config.configReloadIntervalMicros
        journal := { journal with visits := journal.visits + 1 } } := by
  obtain ⟨topic, htopic, h⟩ := bind_ok h
  obtain ⟨base, hbase, _⟩ := bind_ok htopic
  split at h
  next created file _ => exact ⟨⟨base, hbase⟩, file, (Except.ok.inj h).symm⟩

/-- The registry file of a new bridge lists nothing new. -/
theorem init_registered (h : init E config signature monotonic registry journal = .ok s)
    {topic : String} (ht : topic ∈ s.registered) :
    topic ∈ registry.topics config.discoveryRegistryPath := by
  obtain ⟨_, _, h⟩ := bind_ok h
  split at h
  next created file heq =>
    rw [← Except.ok.inj h] at ht
    split at heq
    · rw [Prod.mk.injEq] at heq
      have hfile : topic ∈ file.topics config.discoveryRegistryPath := ht
      rw [← heq.2] at hfile
      exact RegistryFile.createIfMissing_subset hfile
    · rw [Prod.mk.injEq] at heq
      rw [heq.2]
      exact ht

/-- A new bridge is sound. -/
theorem init_sound (h : init E config signature monotonic registry journal = .ok s) : Sound s := by
  obtain ⟨hbase, file, rfl⟩ := init_ok h
  exact {
    keyed := (StateManager.init_fresh _ _ _).keyed
    known := fun k hk =>
      have ⟨_, hc, _⟩ := known_init hk
      ⟨hc.matched, hc.normal⟩
    table := fun k d hd => by
      rw [Dict.get?_filterKeys] at hd
      split at hd
      · have hc := config.configured k d hd
        exact ⟨hc.address, hc.normal⟩
      · cases hd
    queue := nofun
    parser := nofun
    configBase := rfl
    discoveryBase := rfl
    clean := hbase }

end Start

/-- Every state of a run is sound. -/
theorem reaches_sound {ok : Bridge → Timestamp × Input → Prop} {t : Bridge} (h : Sound s)
    (hr : Run.Reaches (step E) ok s t) : Sound t :=
  hr.invariant h fun _ i hs _ => step_sound hs i

theorem reaches_setup {ok : Bridge → Timestamp × Input → Prop} {t : Bridge} (h : Sound s)
    (hr : Run.Reaches (step E) ok s t) : StateManager.SameSetup s.state t.state :=
  hr.invariant_under (B := Sound) (I := fun u => StateManager.SameSetup s.state u.state)
    (reaches_sound h) (.refl _) fun _ i hs hsetup _ => hsetup.trans (path_setup hs (step_path hs i))

end Callbacks

end Bridge

end MochadBridge
