import Mathlib.Algebra.GroupWithZero.Nat
import MochadBridge.BridgeSteps
import MochadBridge.Lib.Fifo

/-!
# The queue of device commands

Commands wait in a queue while the path to the controller is not ready. A
`QueueCall` is a call of `_queue_device_command` or of
`_flush_queued_device_commands`, or a change of what they depend on; calls are
made one after the other.

Results:
1. `flushLoop_spec`: a flush serves the commands before the first one with a
   failing line.
2. `QueueCall.queues`: each call does to the queue what `Fifo` does.
3. `queue_fifo`: what this says of the queue after any list of calls.
-/

namespace MochadBridge

open Py Effect

/-- A call of one of the two methods, or a change of the path between calls. The
bridge only queues commands that it can send. -/
inductive QueueCall where
  | queue (address : String) (command : Command) (sendable : Protocol.Sendable address command)
  | flush
  | path (mqtt mochad : Bool) (diagnostics : MochadDiagnostics)

namespace Bridge

/-- The tickets of the commands whose last line was written. -/
def completed (os : List Output) : List Nat :=
  os.filterMap fun
    | .line _ (some stamp) => if stamp.attempt = stamp.repeats then some stamp.ticket else none
    | _ => none

@[simp] theorem completed_append (os os' : List Output) :
    completed (os ++ os') = completed os ++ completed os' :=
  List.filterMap_append

theorem completed_publish (topic : String) (payload : Json) (retain : Bool) :
    completed [.publish topic payload retain] = [] := rfl

/-- Of the lines of a command only the last one completes it. -/
theorem completed_attemptLines (line : String) (ticket : Nat) {sent r : Nat} (hr : 1 ≤ r)
    (hsent : sent ≤ r) : completed (attemptLines line ticket r (List.range' 1 sent)) =
      if sent < r then [] else [ticket] := by
  have hlater : ∀ n, n < r → completed (attemptLines line ticket r (List.range' 1 n)) = [] := by
    intro n hn
    rw [completed, attemptLines, List.filterMap_map, List.filterMap_eq_nil_iff]
    intro attempt hattempt
    obtain ⟨i, hi, rfl⟩ := List.mem_range'.mp hattempt
    exact if_neg (by dsimp only; omega)
  split
  · next hlt => exact hlater sent hlt
  · next hge =>
    obtain rfl : sent = r := by omega
    obtain ⟨n, rfl⟩ := Nat.exists_eq_add_of_le' hr
    have hinit := hlater n (Nat.lt_succ_self n)
    rw [attemptLines] at hinit
    rw [List.range'_concat, attemptLines, List.map_append, completed_append, hinit,
      List.nil_append]
    simp [completed, Nat.add_comm]

/-! ## Flushing -/

/-- What the methods rely on: a queued command can be sent, and takes a line. -/
structure Sends (s : Bridge) : Prop where
  sendable : ∀ q ∈ s.queuedDeviceCommands, Protocol.Sendable q.address q.command
  repeats : ∀ k d, s.devices.get? k = some d → 1 ≤ d.commandRepeats

/-- How many lines a command takes. -/
def lineCount (s : Bridge) (q : QueuedCommand) : Nat := repeats (s.deviceAt q.address) q.command

/-- How many lines the oldest commands take. -/
def callsOf (s : Bridge) (n : Nat) : Nat := ((s.queuedDeviceCommands.take n).map s.lineCount).sum

/-- The lines of the oldest `n` commands go through, and one of the next command
fails if there is one. -/
structure FailsAt (E : Env) (s : Bridge) (n : Nat) : Prop where
  le : n ≤ s.queuedDeviceCommands.length
  through : ∀ i < s.callsOf n, E.sendFault (s.journal.sends.length + i) = none
  fails : ∀ q, s.queuedDeviceCommands[n]? = some q →
    ∃ i < s.lineCount q, (E.sendFault (s.journal.sends.length + s.callsOf n + i)).isSome

/-- `t` is `s` after the oldest `n` commands were transmitted. -/
structure Served (s : Bridge) (n : Nat) (t : Bridge) : Prop where
  queue : t.queuedDeviceCommands = s.queuedDeviceCommands.drop n
  completed : completed t.journal.outputs =
    completed s.journal.outputs ++ (s.queuedDeviceCommands.take n).map QueuedCommand.ticket
  accepted : t.journal.accepted = s.journal.accepted
  evicted : t.journal.evicted = s.journal.evicted
  dropped : t.droppedDeviceCommands = s.droppedDeviceCommands
  sends : Sends t

section Flush
variable {E : Env} {s t u : Bridge} {q : QueuedCommand} {rest : List QueuedCommand} {n m : Nat}

theorem Sends.lineCount_pos (h : Sends s) (q : QueuedCommand) : 1 ≤ s.lineCount q := by
  unfold lineCount Bridge.repeats deviceAt
  split
  · cases hd : s.devices.get? (normalize q.address) with
    | none => exact Nat.le_refl 1
    | some d => exact h.repeats _ d hd
  · exact Nat.le_refl 1

theorem Sends.withDevice (h : Sends s) (a : String) : Sends (s.withDevice a) where
  sendable := h.sendable
  repeats k d hd := by
    rw [Bridge.withDevice, Dict.get?_insert] at hd
    split at hd
    · obtain rfl := Option.some.inj hd
      unfold deviceAt
      cases hd' : s.devices.get? (normalize a) with
      | none => exact Nat.le_refl 1
      | some d => exact h.repeats _ d hd'
    · exact h.repeats k d hd

theorem callsOf_succ (hq : s.queuedDeviceCommands = q :: rest) (ht : t.queuedDeviceCommands = rest)
    (hlines : t.lineCount = s.lineCount) (n : Nat) :
    s.callsOf (n + 1) = s.lineCount q + t.callsOf n := by
  rw [callsOf, callsOf, hq, ht, hlines, List.take_succ_cons, List.map_cons, List.sum_cons]

/-- Only one command can be the first to fail. -/
theorem FailsAt.unique (h : FailsAt E s n) (h' : FailsAt E s m) : n = m := by
  have hle : ∀ {n m}, FailsAt E s n → FailsAt E s m → m ≤ n := by
    intro n m h h'
    by_contra hlt
    have hn : n < s.queuedDeviceCommands.length := by have hle := h'.le; omega
    obtain ⟨i, hi, hfault⟩ := h.fails _ (List.getElem?_eq_getElem hn)
    have hsum : s.callsOf n + s.lineCount s.queuedDeviceCommands[n] ≤ s.callsOf m := by
      obtain ⟨k, rfl⟩ : ∃ k, m = n + 1 + k := ⟨m - (n + 1), by omega⟩
      rw [callsOf, callsOf, List.take_add, ← List.take_append_getElem hn]
      simp only [List.map_append, List.sum_append, List.map_singleton, List.sum_singleton]
      omega
    have hthrough := h'.through (s.callsOf n + i) (by omega)
    rw [← Nat.add_assoc] at hthrough
    rw [hthrough] at hfault
    exact Bool.noConfusion hfault
  exact Nat.le_antisymm (hle h' h) (hle h h')

/-- The oldest command of the queue, transmitted up to a line. -/
theorem resume_served (hs : Sends s) (hq : s.queuedDeviceCommands = q :: rest) {sent : Nat}
    (hsent : sent ≤ s.lineCount q) :
    Served s (if sent < s.lineCount q then 0 else 1) (s.resume sent) := by
  have hresume : s.resume sent = { s.transmit q.ticket q.address q.command sent with
      queuedDeviceCommands := if sent < s.lineCount q then q :: rest else rest } := by
    simp only [Bridge.resume, hq, lineCount]
    rfl
  have hout : (s.resume sent).journal.outputs = s.journal.outputs ++ attemptLines
      (commandLine q.address q.command) q.ticket (s.lineCount q) (List.range' 1 sent) := by
    rw [hresume]
    rfl
  have hqueue : (s.resume sent).queuedDeviceCommands =
      s.queuedDeviceCommands.drop (if sent < s.lineCount q then 0 else 1) := by
    rw [hresume, hq]
    split <;> rfl
  refine ⟨hqueue, ?_, by rw [hresume]; rfl, by rw [hresume]; rfl, by rw [hresume]; rfl, ?_, ?_⟩
  · rw [hout, completed_append, completed_attemptLines _ _ (hs.lineCount_pos q) hsent, hq]
    split <;> rfl
  · intro q' hq'
    rw [hqueue] at hq'
    exact hs.sendable q' (List.mem_of_mem_drop hq')
  · rw [hresume]
    exact (hs.withDevice q.address).repeats

theorem Served.trans (h : Served s n t) (h' : Served t m u) : Served s (n + m) u where
  queue := by rw [h'.queue, h.queue, List.drop_drop]
  completed := by
    rw [h'.completed, h.completed, h.queue, List.append_assoc, ← List.map_append, List.take_add]
  accepted := h'.accepted.trans h.accepted
  evicted := h'.evicted.trans h.evicted
  dropped := h'.dropped.trans h.dropped
  sends := h'.sends

theorem Served.refl (hs : Sends s) : Served s 0 s where
  queue := rfl
  completed := by rw [List.take_zero, List.map_nil, List.append_nil]
  accepted := rfl
  evicted := rfl
  dropped := rfl
  sends := hs

theorem lineCount_resume (sent : Nat) : (s.resume sent).lineCount = s.lineCount := by
  funext q'
  rw [lineCount, lineCount]
  congr 1
  exact apply_deviceAt (l := .resume sent) (by simp [Label.kind]) q'.address

/-- A command that goes through takes as many calls as it has lines. -/
theorem sends_resume (hq : s.queuedDeviceCommands = q :: rest) :
    (s.resume (s.lineCount q)).journal.sends.length =
      s.journal.sends.length + s.lineCount q := by
  have hcalls : (s.resume (s.lineCount q)).journal.sends = s.journal.sends ++
      attemptCalls (commandLine q.address q.command) q.ticket (s.lineCount q)
        (List.range' 1 (min (s.lineCount q + 1) (s.lineCount q))) := by
    simp only [Bridge.resume, hq]
    rfl
  rw [hcalls, List.length_append, attemptCalls, List.length_map, List.length_range',
    Nat.min_eq_right (Nat.le_succ _)]

/-- A command that goes through is one more before the first that fails. -/
theorem FailsAt.succ (hq : s.queuedDeviceCommands = q :: rest)
    (hsends : SendsUpTo E s.journal.sends.length (s.lineCount q) (s.lineCount q))
    (h : FailsAt E (s.resume (s.lineCount q)) n) : FailsAt E s (n + 1) := by
  have hqueue : (s.resume (s.lineCount q)).queuedDeviceCommands = rest := by
    rw [resume_queue hq, lineCount, if_neg (lt_irrefl _)]
  have hlines : (s.resume (s.lineCount q)).lineCount = s.lineCount := lineCount_resume _
  have hcount := sends_resume hq
  have hcalls := callsOf_succ hq hqueue hlines n
  refine ⟨?_, fun i hi => ?_, fun q' hq' => ?_⟩
  · rw [hq, List.length_cons]
    exact Nat.succ_le_succ (hqueue ▸ h.le)
  · by_cases hfirst : i < s.lineCount q
    · exact hsends.through i hfirst
    · have hthrough := h.through (i - s.lineCount q) (by omega)
      rw [hcount] at hthrough
      rw [← hthrough]
      congr 1
      omega
  · rw [hq, List.getElem?_cons_succ, ← hqueue] at hq'
    obtain ⟨i, hi, hfault⟩ := h.fails q' hq'
    rw [hlines] at hi
    rw [hcount] at hfault
    rw [hcalls, ← Nat.add_assoc]
    exact ⟨i, hi, hfault⟩

/-- The loop serves the commands before the first one with a failing line. -/
theorem flushLoop_spec (hs : Sends s) (hr : s.deviceCommandQueueReason = none)
    {qs : List QueuedCommand} (hq : s.queuedDeviceCommands = qs) :
    ∃ n, FailsAt E s n ∧ Served s n (exec (flushLoop E qs) s).2 := by
  induction qs generalizing s with
  | nil =>
    refine ⟨0, ⟨Nat.zero_le _, fun i hi => absurd hi (Nat.not_lt_zero i), fun q hn => ?_⟩, .refl hs⟩
    rw [hq] at hn
    exact absurd hn (by simp)
  | cons q rest ih =>
    have hsendable := hs.sendable q (by rw [hq]; exact List.mem_cons_self)
    obtain ⟨sent, hsends, hout⟩ := exec_flush_head (E := E) hq hr hsendable
    have hserved := resume_served hs hq hsends.le
    rcases hout with ⟨heq, hex⟩ | ⟨hlt, hex⟩
    · -- the command goes through, and the loop goes on behind it
      replace heq : sent = s.lineCount q := heq
      subst heq
      rw [if_neg (lt_irrefl _)] at hserved
      have hrest : (s.resume (s.lineCount q)).queuedDeviceCommands = rest := by
        rw [hserved.queue, hq]
        rfl
      obtain ⟨n, hfails, hloop⟩ := ih hserved.sends (by rw [resume_reason]; exact hr) hrest
      refine ⟨n + 1, hfails.succ hq hsends, ?_⟩
      rw [hex, Nat.add_comm]
      exact hserved.trans hloop
    · replace hlt : sent < s.lineCount q := hlt
      rw [if_pos hlt] at hserved
      refine ⟨0, ⟨Nat.zero_le _, fun i hi => absurd hi (Nat.not_lt_zero i), fun q' hq' => ?_⟩, ?_⟩
      · rw [hq, List.getElem?_cons_zero, Option.some.injEq] at hq'
        subst hq'
        exact ⟨sent, hlt, hsends.fails hlt⟩
      · rw [hex]
        exact hserved

/-- Publishing the own status concerns no command. -/
theorem exec_publishOwnStatus_served (hs : Sends s) : Served s 0 (exec publishOwnStatus s).2 := by
  have hemit : ∀ topic payload retain, Served s 0 (s.emit (.publish topic payload retain)) := by
    intro topic payload retain
    refine ⟨rfl, ?_, rfl, rfl, rfl, hs.sendable, hs.repeats⟩
    rw [List.take_zero]
    exact completed_append _ _
  rw [publishOwnStatus, exec_bind, exec_get]
  dsimp only
  split
  · rw [publishStatus, exec_publishOn]
    cases Topics.status s.mqtt.baseTopic with
    | error e => exact .refl hs
    | ok topic => exact hemit topic _ true
  · exact .refl hs

/-- A flush on a ready path. -/
theorem flush_spec (hs : Sends s) (hr : s.deviceCommandQueueReason = none) :
    ∃ n, FailsAt E s n ∧ Served s n (exec (flushQueuedDeviceCommands E) s).2 := by
  obtain ⟨n, hfails, hserved⟩ := flushLoop_spec (E := E) hs hr rfl
  refine ⟨n, hfails, ?_⟩
  rw [flushQueuedDeviceCommands, exec_bind, exec_get]
  dsimp only
  split
  · next hempty =>
    rw [hempty] at hserved
    exact hserved
  · rw [if_neg (by simp [hr]), exec_bind]
    generalize exec (flushLoop E s.queuedDeviceCommands) s = outcome at hserved
    obtain ⟨result, t⟩ := outcome
    cases result with
    | error e => exact hserved
    | ok drained =>
      cases drained with
      | true => exact hserved.trans (exec_publishOwnStatus_served hserved.sends)
      | false => exact hserved

/-- A flush on a path that is not ready does nothing. -/
theorem flush_waits (hr : s.deviceCommandQueueReason ≠ none) :
    (exec (flushQueuedDeviceCommands E) s).2 = s := by
  rw [flushQueuedDeviceCommands, exec_bind, exec_get]
  dsimp only
  split
  · rfl
  · rw [if_pos (Option.isSome_iff_ne_none.mpr hr)]
    rfl

end Flush

/-! ## Calls -/

/-- All commands that were queued so far. -/
def queueHistory (s : Bridge) : List QueuedCommand :=
  s.journal.accepted.zipIdx.map fun entry => ⟨entry.2, entry.1.1, entry.1.2⟩

/-- What a call does; a command that is queued gets the next ticket. -/
def runCall (E : Env) (s : Bridge) : QueueCall → Bridge
  | .queue a c _ =>
    (exec (queueDeviceCommand ⟨s.journal.accepted.length, a, c⟩) (s.accept a c)).2
  | .flush => (exec (flushQueuedDeviceCommands E) s).2
  | .path mqtt mochad diagnostics => { s with
      mqtt := { s.mqtt with connected := mqtt }
      mochad := { s.mochad with connected := mochad }
      mochadDiagnostics := diagnostics }

/-- The commands that a call evicts. -/
def evicts (s : Bridge) : QueueCall → List Nat
  | .queue .. =>
    if s.queuedDeviceCommands.length = maxQueuedDeviceCommands then
      (s.queuedDeviceCommands.head?.map QueuedCommand.ticket).toList
    else []
  | .flush | .path .. => []

/-- The queue of the bridge is the bounded queue `q`. -/
structure Queues (s : Bridge) (q : Fifo QueuedCommand maxQueuedDeviceCommands) : Prop where
  waiting : s.queuedDeviceCommands = q.waiting
  entered : s.queueHistory = q.entered
  evicted : s.journal.evicted = q.evicted.map QueuedCommand.ticket
  served : completed s.journal.outputs = q.served.map QueuedCommand.ticket
  dropped : s.droppedDeviceCommands = q.evicted.length
  sends : Sends s

section Calls
variable {E : Env} {s t : Bridge} {q : Fifo QueuedCommand maxQueuedDeviceCommands} {a : String}
  {c : Command} {n : Nat}

theorem queueHistory_accept : (s.accept a c).queueHistory =
    s.queueHistory ++ [⟨s.journal.accepted.length, a, c⟩] := by
  unfold queueHistory accept
  rw [List.zipIdx_append, List.map_append]
  simp

/-- Every command has its own ticket. -/
theorem queueHistory_nodup (s : Bridge) : (s.queueHistory.map QueuedCommand.ticket).Nodup := by
  have htickets : s.queueHistory.map QueuedCommand.ticket =
      List.range' 0 s.journal.accepted.length := by
    rw [queueHistory, List.map_map, ← List.zipIdx_map_snd]
    rfl
  rw [htickets]
  exact List.nodup_range'

theorem Queues.serve (h : Queues s q) (hserved : Served s n t) : Queues t (q.serve n) where
  waiting := by rw [hserved.queue, h.waiting]; rfl
  entered := by rw [queueHistory, hserved.accepted]; exact h.entered
  evicted := by rw [hserved.evicted]; exact h.evicted
  served := by rw [hserved.completed, h.served, h.waiting, ← List.map_append]; rfl
  dropped := by rw [hserved.dropped]; exact h.dropped
  sends := hserved.sends

/-- Appending a command, in terms of the bounded queue. -/
theorem enqueue_eq (hq : s.queuedDeviceCommands = q.waiting) (x : QueuedCommand) : s.enqueue x =
    { s with
      queuedDeviceCommands := q.waiting.drop q.excess ++ [x]
      droppedDeviceCommands := s.droppedDeviceCommands + (q.waiting.take q.excess).length
      journal := { s.journal with
        evicted := s.journal.evicted ++ (q.waiting.take q.excess).map QueuedCommand.ticket } } := by
  unfold Bridge.enqueue Fifo.excess
  rw [hq]
  cases q.waiting with
  | nil => simp [maxQueuedDeviceCommands]
  | cons dropped rest =>
    by_cases hfull : maxQueuedDeviceCommands ≤ (dropped :: rest).length
    · simp only [if_pos hfull]
      rfl
    · simp only [if_neg hfull, List.take_zero, List.map_nil, List.append_nil]
      rfl

theorem Queues.enqueue (h : Queues s q) (hc : Protocol.Sendable a c) :
    Queues ((s.accept a c).enqueue ⟨s.journal.accepted.length, a, c⟩)
      (q.push (by decide) ⟨s.journal.accepted.length, a, c⟩) := by
  rw [enqueue_eq (s := s.accept a c) h.waiting]
  refine ⟨rfl, ?_, ?_, h.served, ?_, fun x hx => ?_, h.sends.repeats⟩
  · show (s.accept a c).queueHistory = _
    rw [queueHistory_accept, h.entered]
    rfl
  · show s.journal.evicted ++ _ = (q.evicted ++ _).map _
    rw [h.evicted, List.map_append]
  · show s.droppedDeviceCommands + _ = (q.evicted ++ _).length
    rw [h.dropped, List.length_append]
  · rcases List.mem_append.mp hx with hx | hx
    · exact h.sends.sendable x (h.waiting ▸ List.mem_of_mem_drop hx)
    · rw [List.mem_singleton.mp hx]
      exact hc

theorem evicted_enqueue (h : Queues s q) (x : QueuedCommand) :
    (q.push (by decide) x).evicted.map QueuedCommand.ticket = s.journal.evicted ++
      if s.queuedDeviceCommands.length = maxQueuedDeviceCommands then
        (s.queuedDeviceCommands.head?.map QueuedCommand.ticket).toList
      else [] := by
  rw [Fifo.evicted_push, List.map_append, h.evicted, h.waiting]
  split
  · cases q.waiting <;> rfl
  · rfl

/-- Each call does to the queue what it does to a bounded queue. -/
theorem queues_runCall (h : Queues s q) (call : QueueCall) :
    (s.runCall E call).journal.evicted = s.journal.evicted ++ s.evicts call ∧
      ∃ q', Queues (s.runCall E call) q' := by
  cases call with
  | queue a c hc =>
    have hqueues := h.enqueue hc
    have hserved := hqueues.serve (exec_publishOwnStatus_served hqueues.sends)
    rw [runCall, exec_queueDeviceCommand]
    exact ⟨hserved.evicted.trans (evicted_enqueue h ⟨s.journal.accepted.length, a, c⟩), _, hserved⟩
  | flush =>
    rw [evicts, List.append_nil]
    by_cases hr : s.deviceCommandQueueReason = none
    · obtain ⟨n, _, hserved⟩ := flush_spec (E := E) h.sends hr
      exact ⟨hserved.evicted, _, h.serve hserved⟩
    · rw [runCall, flush_waits hr]
      exact ⟨rfl, _, h⟩
  | path mqtt mochad diagnostics =>
    refine ⟨(List.append_nil _).symm, q, ?_⟩
    exact ⟨h.waiting, h.entered, h.evicted, h.served, h.dropped, h.sends.sendable, h.sends.repeats⟩

end Calls

section Start
variable {E : Env} {config : Config} {signature : Option (Int × Nat)} {monotonic : Nat}
  {registry : RegistryFile} {s₀ s : Bridge}

theorem queues_init (h : init E config signature monotonic registry = .ok s₀) :
    Queues s₀ .empty := by
  obtain ⟨_, file, rfl⟩ := init_ok h
  refine ⟨rfl, rfl, rfl, rfl, rfl, fun q hq => absurd hq List.not_mem_nil, fun k d hd => ?_⟩
  rw [Dict.get?_filterKeys] at hd
  split at hd
  · exact (config.configured k d hd).repeats.1
  · exact absurd hd (by simp)

/-- The queue is a bounded queue that drops its oldest command. It holds at most
`maxQueuedDeviceCommands` commands, and these are the queued ones that were
neither evicted nor transmitted, in order. Every eviction is counted; only a full
queue evicts, and only its oldest command. A flush whose command `n` fails leaves
the commands from `n` on. -/
theorem queue_fifo (h₀ : init E config signature monotonic registry = .ok s₀)
    (hr : Run.Reaches (runCall E) (fun _ _ => True) s₀ s) :
    s.queuedDeviceCommands.length ≤ maxQueuedDeviceCommands ∧
    s.queuedDeviceCommands = s.queueHistory.filter (fun q =>
      q.ticket ∉ s.journal.evicted ∧ q.ticket ∉ completed s.journal.outputs) ∧
    s.droppedDeviceCommands = s.journal.evicted.length ∧
    (∀ call, (s.runCall E call).journal.evicted = s.journal.evicted ++ s.evicts call) ∧
    (s.deviceCommandQueueReason ≠ none → s.runCall E .flush = s) ∧
    (s.deviceCommandQueueReason = none → (∃ n, FailsAt E s n) ∧ ∀ n, FailsAt E s n →
      (s.runCall E .flush).queuedDeviceCommands = s.queuedDeviceCommands.drop n) := by
  obtain ⟨q, h⟩ : ∃ q, Queues s q :=
    hr.invariant (I := fun s => ∃ q, Queues s q) ⟨_, queues_init h₀⟩
      fun _ call ⟨_, h⟩ _ => (queues_runCall h call).2
  have hnodup := queueHistory_nodup s
  rw [h.entered] at hnodup
  refine ⟨by rw [h.waiting]; exact q.bounded, ?_, ?_, fun call => (queues_runCall h call).1,
    flush_waits, fun hready => ?_⟩
  · rw [h.waiting, h.entered, h.evicted, h.served]
    exact q.waiting_eq_filter QueuedCommand.ticket hnodup
  · rw [h.dropped, h.evicted, List.length_map]
  · obtain ⟨n, hfails, hserved⟩ := flush_spec (E := E) h.sends hready
    refine ⟨⟨n, hfails⟩, fun m hm => ?_⟩
    rw [hm.unique hfails]
    exact hserved.queue

end Start

/-- A command for a lamp is queued. -/
def queueLamp : QueueCall := .queue "A1" .on ⟨by decide, rfl⟩

theorem queue_fifo_lamp : ∃ s₀, init {} (.plain "A1:Lamp") none 0 .absent = .ok s₀ ∧
    (s₀.runCall {} queueLamp).queuedDeviceCommands =
      (s₀.runCall {} queueLamp).queueHistory.filter fun q =>
        q.ticket ∉ (s₀.runCall {} queueLamp).journal.evicted ∧
          q.ticket ∉ completed (s₀.runCall {} queueLamp).journal.outputs := by
  have hstart : (init {} (.plain "A1:Lamp") none 0 .absent).map (fun _ => ()) = .ok () := by
    decide
  obtain ⟨s₀, h₀, _⟩ := map_ok hstart
  exact ⟨s₀, h₀, (queue_fifo h₀ (.next (i := queueLamp) .start trivial)).2.1⟩

end Bridge

end MochadBridge
