import MochadBridge.Bridge

/-!
# Outcomes of the small methods

The outcome of a method of the bridge and the state it leaves, as an equation,
for the methods that only publish, look up a device or write lines.

Results:
1. `exec_attempts`: the lines of a command are written up to the first one that
   fails.
2. `exec_transmission`: so it is for a whole device command (`transmit`).
-/

namespace MochadBridge

open Py Effect

namespace Bridge

/-! ## Outcomes of the small methods -/

/-- Note several outputs. -/
def emitAll (s : Bridge) (os : List Output) : Bridge :=
  { s with journal := { s.journal with outputs := s.journal.outputs ++ os } }

/-- The output of a discovery message. -/
def messageOutput (m : DiscoveryMessage) : Output := .publish m.topic m.payload m.retain

section Outcomes
variable {s : Bridge}

theorem emitAll_nil (s : Bridge) : s.emitAll [] = s := by
  simp only [emitAll, List.append_nil]

theorem emitAll_emitAll (s : Bridge) (os os' : List Output) :
    (s.emitAll os).emitAll os' = s.emitAll (os ++ os') := by
  simp only [emitAll, List.append_assoc]

theorem exec_publishOn (topic : String → Except PyError String) (payload : Json) (retain : Bool) :
    exec (publishOn topic payload retain) s =
      match topic s.mqtt.baseTopic with
      | .ok t => (.ok (), s.emit (.publish t payload retain))
      | .error e => (.error e, s) := by
  simp only [publishOn, exec_bind, exec_get, exec_ofExcept]
  cases topic s.mqtt.baseTopic <;> rfl

theorem exec_deviceConfig (a : String) :
    exec (deviceConfig a) s = (.ok (s.deviceAt a), s.withDevice a) := by
  simp only [deviceConfig, exec_bind, exec_get, deviceAt, withDevice]
  cases h : s.devices.get? (normalize a) with
  | none => rfl
  | some d =>
    simp only [Option.getD_some, exec_pure, Dict.insert_of_get? h]

theorem exec_publishAll (ms : List DiscoveryMessage) :
    exec (ms.forM publishDiscovery) s = (.ok ⟨⟩, s.emitAll (ms.map messageOutput)) := by
  induction ms generalizing s with
  | nil => rw [List.map_nil, emitAll_nil]; rfl
  | cons m ms ih =>
    have hhead : exec (publishDiscovery m) s = (.ok (), s.emit (messageOutput m)) := rfl
    show exec (publishDiscovery m >>= fun _ => ms.forM publishDiscovery) s = _
    rw [exec_bind_ok _ _ _ hhead, ih, List.map_cons, ← List.singleton_append, ← emitAll_emitAll]
    rfl

theorem exec_publishCurrentDiscovery : exec publishCurrentDiscovery s =
    match s.discoveryMessages with
    | .ok ms => (.ok ms.length, s.emitAll (ms.map messageOutput))
    | .error e => (.error e, s) := by
  rw [publishCurrentDiscovery, exec_bind, exec_get]
  dsimp only
  rw [exec_bind, exec_ofExcept]
  cases s.discoveryMessages with
  | error e => rfl
  | ok ms =>
    dsimp only
    rw [exec_bind_ok _ _ _ (exec_publishAll ms)]
    rfl

theorem exec_desiredDiscoveryTopics : exec desiredDiscoveryTopics s =
    (s.discoveryMessages.map fun ms => ms.map DiscoveryMessage.topic, s) := by
  rw [desiredDiscoveryTopics, exec_bind, exec_get]
  dsimp only
  rw [exec_bind, exec_ofExcept]
  cases s.discoveryMessages <;> rfl

/-- Note calls of `send_line` and the lines they wrote. -/
def wrote (s : Bridge) (lines : List Output) (calls : List SendCall) : Bridge :=
  { s with journal := { s.journal with
    outputs := s.journal.outputs ++ lines
    sends := s.journal.sends ++ calls } }

theorem wrote_wrote (s : Bridge) (lines lines' : List Output) (calls calls' : List SendCall) :
    (s.wrote lines calls).wrote lines' calls' = s.wrote (lines ++ lines') (calls ++ calls') := by
  simp only [wrote, List.append_assoc]

/-- One call of `send_line` on a connected socket. -/
theorem exec_sendLine (E : Env) (hc : s.mochad.connected = true) (line : String)
    (stamp : Option Stamp) : exec (sendLine E line stamp) s =
      match E.sendFault s.journal.sends.length with
      | some fault =>
        (.error fault.error, s.wrote [] [⟨line, stamp, s.deviceCommandQueueReason.isNone⟩])
      | none =>
        (.ok (), s.wrote [.line (rstripLineEnds line) stamp]
          [⟨line, stamp, s.deviceCommandQueueReason.isNone⟩]) := by
  simp only [sendLine, exec_bind, exec_get, hc, Bool.not_true, Bool.false_eq_true, if_false,
    exec_modify]
  cases E.sendFault s.journal.sends.length with
  | some fault =>
    simp only [exec_throw, wrote, List.append_nil]
  | none => rfl

theorem exec_sendLine_disconnected (E : Env) (hc : s.mochad.connected = false) (line : String)
    (stamp : Option Stamp) : exec (sendLine E line stamp) s =
      (.error (.connectionError "mochad is not connected."),
        s.wrote [] [⟨line, stamp, s.deviceCommandQueueReason.isNone⟩]) := by
  simp only [sendLine, exec_bind, exec_get, hc, Bool.not_false, if_true, exec_modify, exec_throw,
    wrote, List.append_nil]

/-! ## Transmissions -/

/-- The lines of some attempts at a command. -/
def attemptLines (line : String) (ticket repeats : Nat) (attempts : List Nat) : List Output :=
  attempts.map fun attempt => .line (rstripLineEnds line) (some ⟨ticket, attempt, repeats⟩)

/-- The calls of some attempts at a command, on a ready path. -/
def attemptCalls (line : String) (ticket repeats : Nat) (attempts : List Nat) : List SendCall :=
  attempts.map fun attempt => ⟨line, some ⟨ticket, attempt, repeats⟩, true⟩

/-- From the call `start` on, the first `sent` calls of `send_line` go through,
and one more fails if there are more to make. -/
structure SendsUpTo (E : Env) (start sent total : Nat) : Prop where
  le : sent ≤ total
  through : ∀ i < sent, E.sendFault (start + i) = none
  fails : sent < total → (E.sendFault (start + sent)).isSome

theorem connected_of_ready (hr : s.deviceCommandQueueReason = none) : s.mochad.connected = true := by
  unfold deviceCommandQueueReason at hr
  split at hr
  · cases hr
  · next h => simpa using h

/-- The loop over the attempts of a command: the calls end with the first one
that fails. -/
theorem exec_attempts (E : Env) (hr : s.deviceCommandQueueReason = none) (line : String)
    (ticket r : Nat) (attempts : List Nat) :
    ∃ sent, SendsUpTo E s.journal.sends.length sent attempts.length ∧
      ((sent = attempts.length ∧ exec (attempts.forM fun attempt =>
          sendLine E line (some ⟨ticket, attempt, r⟩)) s =
        (.ok ⟨⟩, s.wrote (attemptLines line ticket r attempts)
          (attemptCalls line ticket r attempts))) ∨
      (sent < attempts.length ∧ ∃ fault : SendFault,
        exec (attempts.forM fun attempt => sendLine E line (some ⟨ticket, attempt, r⟩)) s =
          (.error fault.error, s.wrote (attemptLines line ticket r (attempts.take sent))
            (attemptCalls line ticket r (attempts.take (sent + 1)))))) := by
  induction attempts generalizing s with
  | nil =>
    refine ⟨0, ⟨le_rfl, nofun, nofun⟩, .inl ⟨rfl, ?_⟩⟩
    simp only [attemptLines, attemptCalls, List.map_nil, wrote, List.append_nil]
    rfl
  | cons attempt attempts ih =>
    have hhead := exec_sendLine E (connected_of_ready hr) line (some ⟨ticket, attempt, r⟩)
    rw [hr, Option.isNone_none] at hhead
    have hloop : ((attempt :: attempts).forM fun attempt =>
        sendLine E line (some ⟨ticket, attempt, r⟩)) =
      (sendLine E line (some ⟨ticket, attempt, r⟩) >>= fun _ => attempts.forM fun attempt =>
        sendLine E line (some ⟨ticket, attempt, r⟩)) := rfl
    rw [hloop]
    cases hf : E.sendFault s.journal.sends.length with
    | some fault =>
      rw [hf] at hhead
      refine ⟨0, ⟨Nat.zero_le _, nofun, fun _ => by rw [Nat.add_zero, hf]; rfl⟩,
        .inr ⟨Nat.succ_pos _, fault, ?_⟩⟩
      rw [exec_bind_error _ _ _ hhead]
      rfl
    | none =>
      -- the line is written and the rest goes on from there
      rw [hf] at hhead
      replace hhead : exec (sendLine E line (some ⟨ticket, attempt, r⟩)) s =
          (.ok (), s.wrote (attemptLines line ticket r [attempt])
            (attemptCalls line ticket r [attempt])) := hhead
      rw [exec_bind_ok _ _ _ hhead]
      obtain ⟨sent, hsends, hout⟩ := ih (s := s.wrote (attemptLines line ticket r [attempt])
        (attemptCalls line ticket r [attempt])) hr
      have hcount : (s.wrote (attemptLines line ticket r [attempt])
          (attemptCalls line ticket r [attempt])).journal.sends.length =
          s.journal.sends.length + 1 := List.length_append
      rw [hcount] at hsends
      refine ⟨sent + 1, ⟨Nat.succ_le_succ hsends.le, fun i hi => ?_, fun hlt => ?_⟩, ?_⟩
      · cases i with
        | zero => exact hf
        | succ i =>
          rw [← Nat.add_assoc, Nat.add_right_comm]
          exact hsends.through i (Nat.lt_of_succ_lt_succ hi)
      · rw [← Nat.add_assoc, Nat.add_right_comm]
        exact hsends.fails (Nat.lt_of_succ_lt_succ hlt)
      · rcases hout with ⟨heq, hex⟩ | ⟨hlt, fault, hex⟩
        · refine .inl ⟨by rw [heq]; rfl, ?_⟩
          rw [hex, wrote_wrote]
          rfl
        · refine .inr ⟨Nat.succ_lt_succ hlt, fault, ?_⟩
          rw [hex, wrote_wrote]
          rfl

/-- The text of a device command. -/
def commandLine (a : String) (c : Command) : String :=
  "rf " ++ a ++ " " ++ (Protocol.encodeCommandMap c).getD ""

theorem encode_of_sendable {a : String} {c : Command} (h : Protocol.Sendable a c) :
    Protocol.encodeRfCommand a c = .ok (commandLine a c) := by
  obtain ⟨suffix, hs⟩ := Option.isSome_iff_exists.mp h.2
  rw [Protocol.encodeRfCommand_ok h.1 hs, commandLine, hs]
  rfl

/-- A command line has no line end to strip. -/
theorem rstripLineEnds_commandLine {a : String} {c : Command} (h : Protocol.Sendable a c) :
    rstripLineEnds (commandLine a c) = commandLine a c := by
  have hlast : ∀ t : List Char, (t = "on".toList ∨ t = "off".toList ∨ t = "dim".toList ∨
      t = "bright".toList) → ∀ l : List Char,
      (l ++ t).rdropWhile (fun c => c == '\r' || c == '\n') = l ++ t := by
    intro t ht l
    rw [List.rdropWhile_eq_self_iff]
    intro hne
    rcases ht with rfl | rfl | rfl | rfl <;> simp
  rw [← String.toList_inj, rstripLineEnds, String.toList_ofList, commandLine]
  simp only [String.toList_append]
  refine hlast _ ?_ _
  have hc := h.2
  cases c <;> simp_all [Protocol.encodeCommandMap]

/-- The bridge after the first `sent` lines of a command, and one more call if
there are more lines to write. -/
def transmit (s : Bridge) (ticket : Nat) (a : String) (c : Command) (sent : Nat) : Bridge :=
  (s.withDevice a).wrote
    (attemptLines (commandLine a c) ticket (repeats (s.deviceAt a) c) (List.range' 1 sent))
    (attemptCalls (commandLine a c) ticket (repeats (s.deviceAt a) c)
      (List.range' 1 (min (sent + 1) (repeats (s.deviceAt a) c))))

/-- A device command is transmitted up to the first line that fails. -/
theorem exec_transmission (E : Env) (hr : s.deviceCommandQueueReason = none) {a : String}
    {c : Command} (hs : Protocol.Sendable a c) (ticket : Nat) :
    ∃ sent, SendsUpTo E s.journal.sends.length sent (repeats (s.deviceAt a) c) ∧
      ((sent = repeats (s.deviceAt a) c ∧
          exec (sendDeviceCommand E ticket a c) s = (.ok (), s.transmit ticket a c sent)) ∨
        (sent < repeats (s.deviceAt a) c ∧ ∃ fault : SendFault,
          exec (sendDeviceCommand E ticket a c) s =
            (.error fault.error, s.transmit ticket a c sent))) := by
  have hrun : exec (sendDeviceCommand E ticket a c) s =
      exec ((List.range' 1 (repeats (s.deviceAt a) c)).forM fun attempt => sendLine E
        (commandLine a c) (some ⟨ticket, attempt, repeats (s.deviceAt a) c⟩)) (s.withDevice a) := by
    rw [sendDeviceCommand, exec_bind_ok _ _ _ (exec_deviceConfig a), encode_of_sendable hs]
    rfl
  have hlen : (List.range' 1 (repeats (s.deviceAt a) c)).length = repeats (s.deviceAt a) c :=
    List.length_range'
  obtain ⟨sent, hsends, hout⟩ := exec_attempts E (s := s.withDevice a) hr
    (commandLine a c) ticket (repeats (s.deviceAt a) c)
    (List.range' 1 (repeats (s.deviceAt a) c))
  rw [hlen] at hsends hout
  refine ⟨sent, hsends, ?_⟩
  rw [hrun]
  rcases hout with ⟨heq, hex⟩ | ⟨hlt, fault, hex⟩
  · refine .inl ⟨heq, ?_⟩
    rw [hex, transmit, heq, Nat.min_eq_right (Nat.le_succ _)]
  · refine .inr ⟨hlt, fault, ?_⟩
    rw [hex, transmit, Nat.min_eq_left hlt, List.take_range'_of_length_ge hlt.le,
      List.take_range'_of_length_ge hlt]

end Outcomes

end Bridge

end MochadBridge
