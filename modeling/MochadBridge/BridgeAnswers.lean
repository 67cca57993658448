import MochadBridge.Reload
import MochadBridge.StatePayloads

/-!
# Answers to bridge commands

`_on_mqtt_bridge_command` answers a payload with a `PublishBridgeResponseAction`.
Three commands generate discovery for the whole table first, and two of them load
the registry; `_save_discovery_registry` catches its errors and so does a load, but
nothing catches a `DiscoveryError`.

Results:
1. `Unanswered.takes`: what a command does before its response publishes no response.
2. `discoveryMessages_iff`: discovery can be generated for the table exactly if it is
   `Presented`.
3. `answered_iff`: a command is answered exactly once, with its own name, exactly if
   it is `Answerable`; otherwise it raises.
-/

namespace MochadBridge

open Py Effect

namespace Bridge

variable {E : Env} {s t u : Bridge}

/-! ## Responses -/

/-- The payload of an output on the response topic, save for the empty message that
clears a topic. -/
def response? (topic : String) : Output → Option Json
  | .publish t payload _ => if t = topic ∧ payload ≠ .str "" then some payload else none
  | _ => none

/-- The responses among outputs of the bridge. -/
def responses (base : String) (os : List Output) : List Json :=
  match Topics.bridgeResponse base with
  | .ok topic => os.filterMap (response? topic)
  | .error _ => []

/-- The `command` field of a response. -/
def commandField (command : Option BridgeCommand) : Json :=
  (command.map fun c => .str c.name).getD .null

/-- From `s` to `t` one response went out, and it names the command. -/
def Answered (s : Bridge) (command : Option BridgeCommand) (t : Bridge) : Prop :=
  t.droppedMqttPublishes = s.droppedMqttPublishes ∧
    ∃ os fields, t.journal.outputs = s.journal.outputs ++ os ∧
      responses s.mqtt.baseTopic os = [.obj fields] ∧
      Json.field? fields "command" = some (commandField command)

theorem responses_append (base : String) (os os' : List Output) :
    responses base (os ++ os') = responses base os ++ responses base os' := by
  unfold responses
  split
  · exact List.filterMap_append
  · rfl

/-- No later field of the response is its command. -/
theorem field_responsePayload (now : Timestamp) (command : Option BridgeCommand) (success : Bool)
    (message : String) {payload : List (String × Json)} (h : "command" ∉ payload.map Prod.fst) :
    ∃ fields, responsePayload now command success message payload = .obj fields ∧
      Json.field? fields "command" = some (commandField command) := by
  refine ⟨_, rfl, ?_⟩
  rw [Json.field?, Dict.lookup_entries]
  exact Dict.get?_ofPairs_cons _ (by simpa using h)

/-! ## Before the response -/

/-- No response went out from `s` to `t`. -/
structure Unanswered (s t : Bridge) : Prop where
  connected : t.mqtt.connected = s.mqtt.connected
  base : t.mqtt.baseTopic = s.mqtt.baseTopic
  dropped : t.droppedMqttPublishes = s.droppedMqttPublishes
  outputs : ∃ os, t.journal.outputs = s.journal.outputs ++ os ∧ responses s.mqtt.baseTopic os = []

theorem Unanswered.refl (s : Bridge) : Unanswered s s :=
  ⟨rfl, rfl, rfl, [], (List.append_nil _).symm, by unfold responses; split <;> rfl⟩

/-- The kinds of labels of a command before its response. -/
def preludeKinds : List Kind := [.line, .config, .registry, .clear, .reset]

/-- Discovery messages have other topics than responses, and a cleared topic gets an
empty message. -/
theorem responses_outputs {l : Label} (hk : Kinds preludeKinds l) (hg : l.guard E s) (base : String) :
    responses base (l.outputs s) = [] := by
  unfold responses
  split
  · next topic htopic =>
    rw [List.filterMap_eq_nil_iff]
    intro o ho
    cases o with
    | session | line => rfl
    | publish t payload retain =>
      rw [response?, if_neg]
      rintro ⟨rfl, hne⟩
      rcases publish_of_outputs ho with rfl | ⟨a, rfl⟩ | ⟨a, c, rfl, _⟩ | ⟨m, rfl, rfl, _⟩ | ⟨_, hp, _⟩
      · simp [Kinds, preludeKinds, Label.kind] at hk
      · simp [Kinds, preludeKinds, Label.kind] at hk
      · simp [Kinds, preludeKinds, Label.kind] at hk
      · have hsuffix : "response" ∈ ["availability", "status", "response"] := by simp
        exact (isDiscovery_of_announces hg).not_own hsuffix htopic
      · exact hne hp
  · rfl

theorem apply_dropped {l : Label} (hk : Kinds preludeKinds l) :
    (l.apply s).droppedMqttPublishes = s.droppedMqttPublishes := by
  cases l <;> first | rfl | simp [Kinds, preludeKinds, Label.kind] at hk

theorem Unanswered.apply {l : Label} (h : Unanswered s t) (hk : Kinds preludeKinds l) (hg : l.guard E t) :
    Unanswered s (l.apply t) where
  connected := by
    rw [apply_connected, h.connected]
    intro hmqtt
    simp [Kinds, preludeKinds, hmqtt] at hk
  base := (apply_base l t).trans h.base
  dropped := (apply_dropped hk).trans h.dropped
  outputs := by
    obtain ⟨os, hos, hnone⟩ := h.outputs
    refine ⟨os ++ l.outputs t, ?_, ?_⟩
    · rw [outputs_apply, hos, List.append_assoc]
    · rw [responses_append, hnone, responses_outputs hk hg]
      rfl

theorem Unanswered.takes {α : Type} {p : BridgeM α} {ks : List Kind} (h : Unanswered s t)
    (hp : Does E ks p t) (hks : ks.all (· ∈ preludeKinds) = true) : Unanswered s (exec p t).2 :=
  (Takes.mono (subset_of_all hks) hp).invariant (I := Unanswered s)
    (fun _ _ hk hg hq => hq.apply hk hg) h

/-! ## The response -/

/-- What is needed for a response to go out. -/
structure Online (s : Bridge) : Prop where
  connected : s.mqtt.connected = true
  clean : ∃ b, Topics.cleanSegment s.mqtt.baseTopic = .ok b

theorem exec_respond {topic : String} (hconn : s.mqtt.connected = true)
    (htopic : Topics.bridgeResponse s.mqtt.baseTopic = .ok topic) (now : Timestamp)
    (command : Option BridgeCommand) (success : Bool) (message : String)
    (payload : List (String × Json)) : exec (respond E now command success message payload) s =
      (.ok (), s.emit (.publish topic (responsePayload now command success message payload) false)) := by
  unfold respond executeAction
  rw [exec_bind_ok _ _ _ (exec_get s), if_neg (by simp [hconn])]
  exact (exec_publishOn _ _ _).trans (by rw [htopic])

/-- A response after a prelude is the answer. -/
theorem respond_answers (h : Online s) (hu : Unanswered s u) (now : Timestamp)
    (command : Option BridgeCommand) (success : Bool) (message : String)
    {payload : List (String × Json)} (hp : "command" ∉ payload.map Prod.fst) :
    Returns (fun _ t => Answered s command t) (respond E now command success message payload) u := by
  obtain ⟨base, hbase⟩ := h.clean
  obtain ⟨topic, htopic⟩ : ∃ topic, Topics.bridgeResponse s.mqtt.baseTopic = .ok topic :=
    ⟨_, Topics.bridgeTopic_eq hbase (Topics.cleanSegment_fixed "response" (by simp))⟩
  obtain ⟨fields, hfields, hcommand⟩ := field_responsePayload now command success message hp
  obtain ⟨os, hos, hnone⟩ := hu.outputs
  have hexec := exec_respond (E := E) (hu.connected.trans h.connected)
    (by rw [hu.base]; exact htopic) now command success message payload
  refine .of_exec hexec ⟨hu.dropped, os ++ [.publish topic (.obj fields) false], fields, ?_, ?_, hcommand⟩
  · rw [← List.append_assoc, ← hos, ← hfields]
    rfl
  · rw [responses_append, hnone, responses, htopic]
    simp [response?]

/-- A command that does something else first is answered if that raises nothing. -/
theorem prelude_answers {α : Type} {p : BridgeM α} {ks : List Kind} {f : α → BridgeM Unit}
    {command : Option BridgeCommand} {Q : α → Bridge → Prop} (h : Unanswered s t)
    (hp : Does E ks p t) (hks : ks.all (· ∈ preludeKinds) = true) (hret : Returns Q p t)
    (hf : ∀ a u, Q a u → Unanswered s u → Returns (fun _ v => Answered s command v) (f a) u) :
    Returns (fun _ v => Answered s command v) (p >>= f) t := by
  obtain ⟨a, u, hexec, hQ⟩ := hret
  have hu := h.takes hp hks
  rw [hexec] at hu
  obtain ⟨b, v, hfa, hanswered⟩ := hf a u hQ hu
  exact .of_exec (by rw [exec_bind_ok _ _ _ hexec, hfa]) hanswered

/-! ## Discovery for the table -/

/-- Discovery can be generated for every device of the table, under a valid prefix. -/
def Presented (s : Bridge) : Prop :=
  ∃ pre, Topics.cleanSegment s.discovery.discoveryPrefix = .ok pre ∧
    ∀ k d, s.devices.get? k = some d → strip d.name ≠ "" ∧ Presentable pre d

theorem discoveryMessages_iff (h : Sound s) :
    (∃ ms, s.discoveryMessages = .ok ms) ↔ s.Presented := by
  obtain ⟨base, hbase⟩ := h.clean
  rw [← h.discoveryBase] at hbase
  have hnorm : ∀ k d, s.devices.get? k = some d → upper (strip d.address) = d.address := by
    intro k d hd
    obtain ⟨haddress, hk⟩ := h.table k d hd
    rw [haddress]
    exact hk
  have hown : (∃ own, s.discovery.bridgeDiagnosticMessages s.mochadDiagnostics = .ok own) ↔ _ :=
    DiscoveryManager.bridgeDiagnosticMessages_ok_iff hbase
  rw [discoveryMessages_ok_iff]
  refine (and_congr_right' hown).trans ?_
  constructor
  · rintro ⟨hall, pre, hpre⟩
    refine ⟨pre, hpre, fun k d hd => ?_⟩
    obtain ⟨messages, hmessages⟩ := hall d (Dict.mem_values.mpr ⟨k, hd⟩)
    have hnamed := named_of_messages hmessages
    exact ⟨hnamed, (messages_ok_iff hpre hbase (hnorm k d hd) hnamed _).mp ⟨messages, hmessages⟩⟩
  · rintro ⟨pre, hpre, hall⟩
    refine ⟨fun d hd => ?_, pre, hpre⟩
    obtain ⟨k, hk⟩ := Dict.mem_values.mp hd
    obtain ⟨hnamed, hpresentable⟩ := hall k d hk
    exact (messages_ok_iff hpre hbase (hnorm k d hk) hnamed _).mpr hpresentable

/-- A reset raises nothing if the registry loads. -/
theorem resetDiscovery_returns {ms : List DiscoveryMessage} (hms : s.discoveryMessages = .ok ms)
    (h : s.RegistryLoads E) :
    Returns (fun result _ => "command" ∉ result.map Prod.fst) (resetDiscovery E) s := by
  refine .bind (Q := fun _ t => t = s) (.of_exec (exec_desired hms) rfl) ?_
  rintro desired _ rfl
  refine .bind (tryLoad_returns h id (bind_pure _).symm fun message t => ⟨[], rfl⟩) ?_
  intro registered t _
  refine .bind (Q := fun _ _ => True) (.of_exec (exec_clearTopics _) trivial) fun _ u _ => ?_
  refine .bind (saveDiscoveryRegistry_returns _) fun saved v _ => ?_
  exact .of_exec (exec_pure _ _) (by simp)

/-- A reset that cannot load the registry raises. -/
theorem resetDiscovery_raises (h : ¬ s.RegistryLoads E) :
    ∃ e t, exec (resetDiscovery E) s = (.error e, t) := by
  cases hms : s.discoveryMessages with
  | error e => exact ⟨e, s, exec_bind_error _ _ _ (desired_raises hms)⟩
  | ok ms =>
    refine ⟨.unicodeDecodeError, s.visited .undecodable, ?_⟩
    rw [resetDiscovery, exec_bind_ok _ _ _ (exec_desired hms)]
    refine exec_bind_error _ _ _ ?_
    rw [exec_tryCatch, load_raises h]
    rfl

/-! ## Commands -/

/-- What a command needs to be answered. -/
def Answerable (E : Env) (s : Bridge) : Option BridgeCommand → Prop
  | some .rediscover => s.Presented
  | some .pruneDiscovery | some .resetDiscovery =>
    s.config.enableMaintenanceButtons = true → s.Presented ∧ s.RegistryLoads E
  | _ => True

/-- A status request that fails is caught. -/
theorem requestStatus_returns (hc : s.mochad.connected = true) (now : Timestamp) :
    Returns (fun _ _ => True) (tryCatch
      (do
        executeAction E now .requestStatus
        return none)
      fun e => if e.isTransport then pure (some e) else throw e) s := by
  have hsend : exec (executeAction E now .requestStatus) s = exec (sendLine E "st" none) s := rfl
  rw [exec_sendLine E hc] at hsend
  cases hfault : E.sendFault s.journal.sends.length with
  | none =>
    rw [hfault] at hsend
    exact .tryCatch (.inl (.bind (Q := fun _ _ => True) (.of_exec hsend trivial)
      fun _ _ _ => .of_exec (exec_pure _ _) trivial))
  | some fault =>
    rw [hfault] at hsend
    refine .tryCatch (.inr ⟨_, _, exec_bind_error _ _ _ hsend, ?_⟩)
    rw [if_pos (sendFault_isTransport fault)]
    exact .of_exec (exec_pure _ _) trivial

theorem requestStatus_does (now : Timestamp) : Does E [.line] (tryCatch
      (do
        executeAction E now .requestStatus
        return none)
      fun e => if e.isTransport then pure (some e) else throw e) s := by
  refine .tryCatch (.bind ?_ fun _ _ _ => .refl) fun e _ _ => ?_
  · exact sendLine_takes List.mem_cons_self fun _ => of_kind rfl
  · split <;> exact .refl

theorem handleBridgeCommand_answers (h : Sound s) (hconn : s.mqtt.connected = true)
    (now : Timestamp) {command : BridgeCommand} (ha : s.Answerable E (some command)) :
    Returns (fun _ t => Answered s (some command) t) (handleBridgeCommand E now command) s := by
  have honline : Online s := ⟨hconn, h.clean⟩
  have hrespond := fun {u} (hu : Unanswered s u) => respond_answers (E := E) honline hu now (some command)
  refine .get_bind ?_
  split
  · exact hrespond (.refl s) _ _ (by simp)
  · next henabled =>
    cases command with
    | ping => exact hrespond (.refl s) _ _ (by simp)
    | status => exact hrespond (.refl s) _ _ (by simp [bridgeStatusPayload])
    | sync =>
      dsimp only
      split
      · exact hrespond (.refl s) _ _ (by simp)
      · next hmochad =>
        refine prelude_answers (.refl s) (requestStatus_does now) rfl
          (requestStatus_returns (by simpa using hmochad) now) fun failure t _ ht => ?_
        split
        · exact hrespond ht _ _ (by simp)
        · exact hrespond ht _ _ (by simp)
    | rediscover =>
      obtain ⟨ms, hms⟩ := (discoveryMessages_iff h).mpr ha
      have hpublish := exec_publishCurrentDiscovery (s := s)
      rw [hms] at hpublish
      refine prelude_answers (E := E) (.refl s) publishCurrentDiscovery_does rfl
        (.of_exec (Q := fun _ t => t = s.emitAll (ms.map messageOutput)) hpublish rfl) ?_
      rintro published _ rfl ht
      -- the messages published first do not change what is desired
      have hms' : (s.emitAll (ms.map messageOutput)).discoveryMessages = .ok ms := hms
      refine prelude_answers (E := E) ht (desiredDiscoveryTopics_does []) rfl
        (.of_exec (Q := fun desired t => desired = ms.map DiscoveryMessage.topic ∧
          t = s.emitAll (ms.map messageOutput)) (exec_desired hms') ⟨rfl, rfl⟩) ?_
      rintro _ _ ⟨rfl, rfl⟩ _
      refine prelude_answers ht (saveDiscoveryRegistry_does fun _ htopic =>
        .inr ⟨_, ⟨ms, hms', rfl⟩, htopic⟩) rfl (saveDiscoveryRegistry_returns _) fun _ _ _ hu => ?_
      exact hrespond hu _ _ (by simp)
    | pruneDiscovery =>
      obtain ⟨hpresented, hloads⟩ := ha (by simpa using henabled)
      obtain ⟨ms, hms⟩ := (discoveryMessages_iff h).mpr hpresented
      exact prelude_answers (.refl s) (runDiscoveryCleanup_does true) rfl
        (runDiscoveryCleanup_returns hms hloads true) fun result t ⟨_, hresult⟩ ht =>
        hrespond ht _ _ hresult
    | resetDiscovery =>
      obtain ⟨hpresented, hloads⟩ := ha (by simpa using henabled)
      obtain ⟨ms, hms⟩ := (discoveryMessages_iff h).mpr hpresented
      exact prelude_answers (.refl s) resetDiscovery_does rfl (resetDiscovery_returns hms hloads)
        fun result t hresult ht => hrespond ht _ _ hresult

/-- A command that lacks what it needs raises. -/
theorem handleBridgeCommand_raises (h : Sound s) (now : Timestamp) {command : BridgeCommand}
    (ha : ¬ s.Answerable E (some command)) :
    ∃ e t, exec (handleBridgeCommand E now command) s = (.error e, t) := by
  have hgenerate := discoveryMessages_iff h
  have henabled : command = .pruneDiscovery ∨ command = .resetDiscovery →
      s.config.enableMaintenanceButtons = true ∧ ¬ (s.Presented ∧ s.RegistryLoads E) := by
    rintro (rfl | rfl)
    · exact Classical.not_imp.mp ha
    · exact Classical.not_imp.mp ha
  cases command with
  | ping | status | sync => exact absurd trivial ha
  | rediscover =>
    have hpublish := exec_publishCurrentDiscovery (s := s)
    cases hms : s.discoveryMessages with
    | error e =>
      rw [hms] at hpublish
      refine ⟨e, s, ?_⟩
      rw [handleBridgeCommand, exec_bind_ok _ _ _ (exec_get s), if_neg (by simp)]
      exact exec_bind_error _ _ _ hpublish
    | ok ms => exact absurd (hgenerate.mp ⟨ms, hms⟩) ha
  | pruneDiscovery =>
    obtain ⟨hon, hnot⟩ := henabled (.inl rfl)
    obtain ⟨e, t, hraises⟩ : ∃ e t, exec (runDiscoveryCleanup E true) s = (.error e, t) := by
      cases hms : s.discoveryMessages with
      | error e => exact ⟨e, s, exec_bind_error _ _ _ (desired_raises hms)⟩
      | ok ms =>
        exact runDiscoveryCleanup_raises (fun hloads => hnot ⟨hgenerate.mp ⟨ms, hms⟩, hloads⟩) true
    refine ⟨e, t, ?_⟩
    rw [handleBridgeCommand, exec_bind_ok _ _ _ (exec_get s), if_neg (by simp [hon])]
    exact exec_bind_error _ _ _ hraises
  | resetDiscovery =>
    obtain ⟨hon, hnot⟩ := henabled (.inr rfl)
    obtain ⟨e, t, hraises⟩ : ∃ e t, exec (resetDiscovery E) s = (.error e, t) := by
      cases hms : s.discoveryMessages with
      | error e => exact ⟨e, s, exec_bind_error _ _ _ (desired_raises hms)⟩
      | ok ms => exact resetDiscovery_raises fun hloads => hnot ⟨hgenerate.mp ⟨ms, hms⟩, hloads⟩
    refine ⟨e, t, ?_⟩
    rw [handleBridgeCommand, exec_bind_ok _ _ _ (exec_get s), if_neg (by simp [hon])]
    exact exec_bind_error _ _ _ hraises

end Bridge

end MochadBridge
