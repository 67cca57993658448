import MochadBridge.CommandQueue
import MochadBridge.Lib.Ledger
import MochadBridge.WireLines

/-!
# The account of the device commands

A device command is handed over to mochad at once, or it waits in the queue until a
health report flushes it. The journal of the bridge is a `Ledger` of these jobs: a
command has a ticket, and its lines are the parts of the job.

Results:
1. `ledger_apply`: the labels of a command are the operations of the ledger.
2. `ledger_command`, `ledger_flush`, `ledger_idle`: what a step does to the ledger.
3. `lines_in_order`: the lines keep the order of the commands, unless one is
   handed over while others wait.
4. `accounted_iff`: every command is accounted for exactly if no line fails but the
   first line of a command from the queue.
-/

namespace MochadBridge

open Py Effect

namespace Bridge

/-! ## The ledger -/

/-- The lines of device commands, as parts of jobs. -/
def linesDone (os : List Output) : List Ledger.Part :=
  os.filterMap fun
    | .line _ (some stamp) => some ⟨stamp.ticket, stamp.attempt, stamp.repeats⟩
    | _ => none

/-- What the bridge did with the commands it accepted. -/
def ledger (s : Bridge) : Ledger where
  taken := s.journal.accepted.length
  waiting := s.queuedDeviceCommands.map QueuedCommand.ticket
  done := linesDone s.journal.outputs
  evicted := s.journal.evicted

/-- The labels that concern no device command, nor the path to the devices. -/
def idleKinds : List Kind :=
  [.own, .report, .state, .config, .clear, .reset, .registry, .insert, .commanded, .call, .parser,
    .mqtt, .crashed, .watch]

/-- `t` is `s` as far as device commands go. -/
structure SameDesk (s t : Bridge) : Prop where
  ledger : t.ledger = s.ledger
  queue : t.queuedDeviceCommands = s.queuedDeviceCommands
  sends : t.journal.sends = s.journal.sends
  reason : t.deviceCommandQueueReason = s.deviceCommandQueueReason
  device : ∀ a, t.deviceAt a = s.deviceAt a

section Ledger
variable {E : Env} {s t u : Bridge} {l : Label} {K : Label → Prop}

@[simp] theorem linesDone_append (os os' : List Output) :
    linesDone (os ++ os') = linesDone os ++ linesDone os' :=
  List.filterMap_append

theorem linesDone_attemptLines (line : String) (ticket r sent : Nat) :
    linesDone (attemptLines line ticket r (List.range' 1 sent)) = Ledger.parts ticket r sent := by
  rw [linesDone, attemptLines, List.filterMap_map, Ledger.parts, ← List.filterMap_eq_map]
  rfl

theorem linesDone_idle (h : l.kind ≠ .command) (h' : l.kind ≠ .resume) :
    linesDone (l.outputs s) = [] := by
  cases l with
  | direct | enqueue => exact absurd rfl h
  | resume => exact absurd rfl h'
  | line text written => cases written <;> rfl
  | mqtt connected => cases connected <;> rfl
  | _ => rfl

/-- Of the other labels none changes the ledger. -/
theorem ledger_apply_idle (h : l.kind ≠ .command) (h' : l.kind ≠ .resume) :
    (l.apply s).ledger = s.ledger := by
  have hdone : linesDone (l.apply s).journal.outputs = linesDone s.journal.outputs := by
    rw [outputs_apply, linesDone_append, linesDone_idle h h', List.append_nil]
  unfold ledger
  rw [hdone]
  cases l with
  | direct | enqueue => exact absurd rfl h
  | resume => exact absurd rfl h'
  | mqtt connected => cases connected <;> rfl
  | _ => rfl

/-- How many commands have to leave the queue for another one. -/
def overflow (s : Bridge) : Nat :=
  if maxQueuedDeviceCommands ≤ s.queuedDeviceCommands.length then 1 else 0

theorem enqueue_queue (q : QueuedCommand) : (s.enqueue q).queuedDeviceCommands =
    s.queuedDeviceCommands.drop s.overflow ++ [q] := by
  unfold Bridge.enqueue overflow
  split
  · next dropped rest hq =>
    rw [hq]
    split <;> rfl
  · next hq =>
    rw [hq]
    rfl

theorem enqueue_evicted (q : QueuedCommand) : (s.enqueue q).journal.evicted =
    s.journal.evicted ++ (s.queuedDeviceCommands.take s.overflow).map QueuedCommand.ticket := by
  unfold Bridge.enqueue overflow
  split
  · next dropped rest hq =>
    rw [hq]
    split
    · rfl
    · exact (List.append_nil _).symm
  · next hq =>
    rw [hq]
    exact (List.append_nil _).symm

theorem ledger_enqueue (a : String) (c : Command) :
    ((Label.enqueue a c).apply s).ledger = s.ledger.wait maxQueuedDeviceCommands := by
  have hout : linesDone ((Label.enqueue a c).apply s).journal.outputs =
      linesDone s.journal.outputs := by
    rw [outputs_apply, linesDone_append]
    exact List.append_nil _
  have htaken : ((Label.enqueue a c).apply s).journal.accepted.length =
      s.journal.accepted.length + 1 := by
    rw [apply_accepted, List.length_append]
    rfl
  have hexcess : s.ledger.excess maxQueuedDeviceCommands = s.overflow := by
    rw [Ledger.excess, ledger, List.length_map, overflow]
  unfold ledger
  rw [hout, htaken, Label.apply, enqueue_queue, enqueue_evicted]
  unfold ledger at hexcess
  simp only [Ledger.wait, hexcess, List.map_append, List.map_drop, List.map_take]
  rfl

theorem ledger_direct (a : String) (c : Command) (sent : Nat) :
    ((Label.direct a c sent).apply s).ledger = s.ledger.perform sent (repeats (s.deviceAt a) c) := by
  have hout : linesDone ((Label.direct a c sent).apply s).journal.outputs =
      linesDone s.journal.outputs ++
        Ledger.parts s.journal.accepted.length (repeats (s.deviceAt a) c) sent := by
    rw [outputs_apply, linesDone_append]
    exact congrArg _ (linesDone_attemptLines ..)
  have htaken : ((Label.direct a c sent).apply s).journal.accepted.length =
      s.journal.accepted.length + 1 := by
    rw [apply_accepted, List.length_append]
    rfl
  unfold ledger
  rw [hout, htaken]
  rfl

theorem ledger_resume {q : QueuedCommand} {rest : List QueuedCommand}
    (hq : s.queuedDeviceCommands = q :: rest) (sent : Nat) :
    (s.resume sent).ledger = s.ledger.resume sent (s.lineCount q) := by
  have hout : linesDone (s.resume sent).journal.outputs = linesDone s.journal.outputs ++
      Ledger.parts q.ticket (s.lineCount q) sent := by
    have happly := outputs_apply (.resume sent) s
    rw [Label.apply] at happly
    rw [happly, linesDone_append]
    simp only [Label.outputs, hq]
    exact congrArg _ (linesDone_attemptLines ..)
  have hqueue : (s.resume sent).queuedDeviceCommands.map QueuedCommand.ticket =
      if sent < s.lineCount q then q.ticket :: rest.map QueuedCommand.ticket
      else rest.map QueuedCommand.ticket := by
    rw [resume_queue hq, apply_ite (List.map QueuedCommand.ticket), List.map_cons]
    rfl
  have hevicted : (s.resume sent).journal.evicted = s.journal.evicted := by
    simp only [Bridge.resume, hq]
    rfl
  have hwaiting : s.ledger.waiting = q.ticket :: rest.map QueuedCommand.ticket := by
    rw [ledger, hq, List.map_cons]
  rw [Ledger.resume, hwaiting, ledger, hout, hqueue, hevicted, resume_accepted]
  rfl

theorem SameDesk.refl (s : Bridge) : SameDesk s s := ⟨rfl, rfl, rfl, rfl, fun _ => rfl⟩

theorem SameDesk.trans (h : SameDesk s t) (h' : SameDesk t u) : SameDesk s u where
  ledger := h'.ledger.trans h.ledger
  queue := h'.queue.trans h.queue
  sends := h'.sends.trans h.sends
  reason := h'.reason.trans h.reason
  device a := (h'.device a).trans (h.device a)

theorem sameDesk_apply (h : l.kind ∈ idleKinds) : SameDesk s (l.apply s) := by
  have hne : ∀ k, k ∉ idleKinds → l.kind ≠ k := fun k hk heq => hk (heq ▸ h)
  refine ⟨ledger_apply_idle (hne _ (by decide)) (hne _ (by decide)), ?_, ?_, ?_,
    apply_deviceAt (hne _ (by decide))⟩
  all_goals
    cases l with
    | mqtt connected => cases connected <;> rfl
    | line | direct | enqueue | resume | diagnostics | install | mochad | stopping =>
      exact absurd h (by simp [idleKinds, Label.kind])
    | _ => rfl

theorem sameDesk_of_path (hK : ∀ l, K l → l.kind ∈ idleKinds) (h : Path (system E) K s t) :
    SameDesk s t :=
  h.invariant (I := SameDesk s) (fun l _ hl _ hs => hs.trans (sameDesk_apply (hK l hl))) (.refl s)

end Ledger

/-! ## Steps -/

/-- The actions that come before the command: a device that is not discovered is. -/
def leadActions (s : Bridge) (a : String) : List BridgeAction :=
  (s.state.stateOf a).discovery s.state.mqttConnected

/-- The bridge and its state manager when they have got the command. -/
def withCommand (now : Timestamp) (s : Bridge) (a : String) (c : Command) : Bridge :=
  { s.withDevice a with state := (s.state.call (.optimisticUpdate now a c)).1 }

/-- The command comes to its turn: the discovery before it raises nothing. -/
def Hands (E : Env) (now : Timestamp) (s : Bridge) (a : String) (c : Command) : Prop :=
  (exec (executeActions E now (s.leadActions a)) (s.withCommand now a c)).1 = .ok ()

/-- The step hands the command over to mochad at once. -/
structure Direct (E : Env) (s : Bridge) (i : Timestamp × Input) (a : String) (c : Command) :
    Prop where
  issues : s.Issues i.2 a c
  hands : s.Hands E i.1 a c
  ready : s.deviceCommandQueueReason = none

/-- The step flushes the queue: a health report says that the path is ready, and
publishing it raises nothing. -/
def Flushes (E : Env) (s : Bridge) (i : Timestamp × Input) : Prop :=
  ∃ line payload, i.2 = .mochadLine line ∧ lineDiagnostic line = some (payload, .health) ∧
    (exec (publishDiagnostics E .health) (s.merged payload i.1)).1 = .ok () ∧
    (s.merged payload i.1).deviceCommandQueueReason = none

section Steps
variable {E : Env} {s t u : Bridge} {i : Timestamp × Input} {a : String} {c : Command}

/-- An action that sends nothing never ends the list. -/
theorem attempt_goesOn {now : Timestamp} {x : BridgeAction} (h : isSend x = false) {goOn : Bool}
    (ht : exec (attempt E now x) s = (.ok goOn, t)) : goOn = true := by
  rw [attempt, exec_tryCatch, exec_bind] at ht
  generalize exec (executeAction E now x) s = outcome at ht
  obtain ⟨result, v⟩ := outcome
  cases result with
  | ok _ => exact (Except.ok.inj (Prod.mk.inj ht).1).symm
  | error e =>
    dsimp only at ht
    split at ht
    · rw [h] at ht
      exact (Except.ok.inj (Prod.mk.inj ht).1).symm
    · cases ht

/-- After actions that send nothing the list goes on, unless one raises. -/
theorem exec_executeActions_append (now : Timestamp) {xs : List BridgeAction}
    (h : ∀ x ∈ xs, isSend x = false) (ys : List BridgeAction) :
    exec (executeActions E now (xs ++ ys)) s =
      exec (executeActions E now xs >>= fun _ => executeActions E now ys) s := by
  induction xs generalizing s with
  | nil => rfl
  | cons x xs ih =>
    have hx := h x List.mem_cons_self
    rw [List.cons_append, executeActions_cons, executeActions_cons, exec_bind, exec_bind,
      exec_bind]
    cases ht : exec (attempt E now x) s with
    | mk result t =>
      cases result with
      | error e => rfl
      | ok goOn =>
        obtain rfl := attempt_goesOn hx ht
        dsimp only
        rw [if_pos rfl, if_pos rfl, ih fun y hy => h y (List.mem_cons_of_mem _ hy), exec_bind]

theorem attempt_state (now : Timestamp) (x : BridgeAction) :
    (exec (attempt E now x) s).2 = (exec (executeAction E now x) s).2 := by
  rw [attempt, exec_tryCatch, exec_bind]
  generalize exec (executeAction E now x) s = outcome
  obtain ⟨result, v⟩ := outcome
  cases result with
  | ok _ => rfl
  | error e =>
    dsimp only
    split <;> rfl

/-- The rest of a list after its first action. -/
theorem executeActions_rest {K : Label → Prop} (now : Timestamp) {x : BridgeAction}
    {xs : List BridgeAction}
    (h : ∀ t, (exec (executeAction E now x) s).2 = t →
      Path (system E) K t (exec (executeActions E now xs) t).2) :
    Path (system E) K (exec (executeAction E now x) s).2
      (exec (executeActions E now (x :: xs)) s).2 := by
  have hstate := attempt_state (E := E) (s := s) now x
  rw [executeActions_cons, exec_bind]
  generalize exec (attempt E now x) s = outcome at hstate
  obtain ⟨result, v⟩ := outcome
  dsimp only at hstate
  subst hstate
  cases result with
  | error e => exact .refl
  | ok goOn =>
    dsimp only
    split
    · exact h _ rfl
    · exact .refl

/-- The labels of actions that send nothing. -/
theorem idle_of_of {x : BridgeAction} (h : isSend x = false) {l : Label} (hl : l.Of x) :
    l.kind ∈ idleKinds := by
  cases l with
  | own | dropped | report | state | insert | config => simp [idleKinds, Label.kind]
  | line text written =>
    rcases hl with rfl | ⟨rfl, _⟩ <;> exact Bool.noConfusion h
  | direct | enqueue =>
    have hx : x = _ := hl
    rw [hx] at h
    exact Bool.noConfusion h
  | _ => exact absurd hl id

/-- Actions that send nothing leave the desk as it is. -/
theorem executeActions_idle (now : Timestamp) {xs : List BridgeAction}
    (h : ∀ x ∈ xs, isSend x = false) (hc : ∀ x ∈ xs, s.state.Concerns x) :
    SameDesk s (exec (executeActions E now xs) s).2 :=
  sameDesk_of_path (K := fun l => ∃ x ∈ xs, l.Of x)
    (fun _ ⟨x, hx, hl⟩ => idle_of_of (h x hx) hl) (executeActions_takes now hc)

/-- The actions of an accepted command: it comes after the discovery, and nothing else
is sent. -/
theorem call_actions (hs : Sound s) (h : s.Issues i.2 a c) :
    (∀ x ∈ s.leadActions a, isSend x = false) ∧
      ∃ rest, (∀ x ∈ rest, isSend x = false) ∧
        (s.state.call (.optimisticUpdate i.1 a c)).2 =
          s.leadActions a ++ .sendDeviceCommand a c :: rest := by
  have hactions := (StateManager.optimisticUpdate_accepted hs.keyed i.1 h.allowed h.managed).actions
  rw [StateManager.announcement, normalize_of_inputCommand h.command, List.append_assoc,
    List.append_assoc, List.singleton_append] at hactions
  refine ⟨fun x hx => ?_, _, fun x hx => ?_, hactions⟩
  · rw [leadActions, DeviceState.discovery] at hx
    split at hx
    · exact absurd hx List.not_mem_nil
    · rw [List.mem_singleton.mp hx]
      rfl
  · rcases List.mem_append.mp hx with hx | hx
    · split at hx <;> rw [List.mem_singleton.mp hx] <;> rfl
    · split at hx
      · rw [DeviceState.changes] at hx
        split at hx
        · exact absurd hx List.not_mem_nil
        · rw [List.mem_singleton.mp hx]
          rfl
      · exact absurd hx List.not_mem_nil

/-- The command itself is queued, or sent up to the first line that fails. -/
theorem executeDeviceCommand_desk (hsend : Protocol.Sendable a c) :
    (s.deviceCommandQueueReason ≠ none ∧
        SameDesk ((Label.enqueue a c).apply s) (exec (executeDeviceCommand E a c) s).2) ∨
      (s.deviceCommandQueueReason = none ∧
        ∃ sent, SendsUpTo E s.journal.sends.length sent (repeats (s.deviceAt a) c) ∧
          (exec (executeDeviceCommand E a c) s).2 = (Label.direct a c sent).apply s) := by
  by_cases hr : s.deviceCommandQueueReason = none
  · obtain ⟨sent, hsends, hout⟩ := exec_transmission E (s := s.accept a c) hr hsend
      s.journal.accepted.length
    refine .inr ⟨hr, sent, hsends, ?_⟩
    rw [exec_deviceCommand_direct hr]
    rcases hout with ⟨_, hex⟩ | ⟨_, fault, hex⟩ <;> rw [hex] <;> rfl
  · refine .inl ⟨hr, ?_⟩
    rw [exec_deviceCommand_queued hr]
    refine sameDesk_of_path (fun l hl => ?_) (publishOwnStatus_does (E := E))
    rw [List.mem_singleton.mp hl]
    decide

theorem exec_executeAction_command (now : Timestamp) :
    exec (executeAction E now (.sendDeviceCommand a c)) s = exec (executeDeviceCommand E a c) s := by
  rw [executeAction, exec_bind, exec_get]
  rfl

/-- A list of actions with one command: the actions before it leave the desk as it is,
and so do the ones after it. -/
theorem executeActions_command (now : Timestamp) {lead rest : List BridgeAction}
    (hlead : ∀ x ∈ lead, isSend x = false) (hrest : ∀ x ∈ rest, isSend x = false)
    (hc : ∀ x ∈ lead ++ .sendDeviceCommand a c :: rest, s.state.Concerns x)
    (ht : (exec (executeActions E now (lead ++ .sendDeviceCommand a c :: rest)) s).2 = t) :
    ((exec (executeActions E now lead) s).1 ≠ .ok () ∧ SameDesk s t) ∨
      ((exec (executeActions E now lead) s).1 = .ok () ∧ ∃ u, SameDesk s u ∧
        SameDesk (exec (executeDeviceCommand E a c) u).2 t) := by
  have hleads := fun x hx => hc x (List.mem_append_left _ hx)
  have hpath := executeActions_takes (E := E) now hleads
  have hdesk := executeActions_idle (E := E) now hlead hleads
  rw [exec_executeActions_append now hlead, exec_bind] at ht
  rw [Takes] at hpath
  generalize exec (executeActions E now lead) s = outcome at ht hpath hdesk
  obtain ⟨result, u⟩ := outcome
  cases result with
  | error e =>
    obtain rfl : u = t := ht
    refine .inl ⟨?_, hdesk⟩
    intro h
    cases h
  | ok _ =>
    have hstate : u.state = s.state := by
      refine state_of_path ?_ hpath
      rintro l ⟨_, _, hl⟩
      exact call_not_of hl
    have hsend : u.state.Concerns (.sendDeviceCommand a c) := by
      rw [hstate]
      exact hc _ (List.mem_append_right _ List.mem_cons_self)
    refine .inr ⟨rfl, u, hdesk, ?_⟩
    rw [← ht, ← exec_executeAction_command now]
    have hidle : ∀ l : Label, (∃ x ∈ rest, l.Of x) → l.kind ∈ idleKinds := by
      rintro l ⟨x, hx, hl⟩
      exact idle_of_of (hrest x hx) hl
    refine sameDesk_of_path (K := fun l => ∃ x ∈ rest, l.Of x) hidle
      (executeActions_rest (x := .sendDeviceCommand a c) now fun v hv =>
        executeActions_takes now fun x hx => ?_)
    have hkept : v.state = u.state := by
      rw [← hv]
      exact state_of_path (fun l hl => call_not_of hl) (executeAction_takes now hsend)
    rw [hkept, hstate]
    exact hc x (List.mem_append_right _ (List.mem_cons_of_mem _ hx))

theorem withCommand_state (now : Timestamp) (a : String) (c : Command) :
    (s.withCommand now a c).state = (s.state.call (.optimisticUpdate now a c)).1 := by
  simp only [withCommand]

theorem withCommand_desk (now : Timestamp) (a : String) (c : Command) :
    SameDesk s (s.withCommand now a c) := by
  have hcall : SameDesk (s.withDevice a)
      ((Label.call (.optimisticUpdate now a c)).apply (s.withDevice a)) :=
    sameDesk_apply (by simp [idleKinds, Label.kind])
  exact (sameDesk_apply (l := .commanded a) (by simp [idleKinds, Label.kind])).trans hcall

/-- What a step with a command does to the ledger. -/
theorem ledger_command (hs : Sound s) (hlive : s.crashed = false) (h : s.Issues i.2 a c) :
    (¬ s.Hands E i.1 a c ∧ (step E s i).ledger = s.ledger) ∨
      (s.Hands E i.1 a c ∧ s.deviceCommandQueueReason ≠ none ∧
        (step E s i).ledger = s.ledger.wait maxQueuedDeviceCommands) ∨
      (s.Direct E i a c ∧ ∃ sent,
        SendsUpTo E s.journal.sends.length sent (repeats (s.deviceAt a) c) ∧
        (step E s i).ledger = s.ledger.perform sent (repeats (s.deviceAt a) c)) := by
  obtain ⟨now, input⟩ := i
  obtain ⟨topic, payload, rfl, hm⟩ := message_of_inputCommand h.command
  have hsend := sendable_of_messageCommand hm
  obtain ⟨hlead, rest, hrest, hactions⟩ := call_actions hs h
  have hconcerns := StateManager.call_concerns hs.keyed (c := .optimisticUpdate now a c) hsend
  rw [hactions, ← withCommand_state] at hconcerns
  have hrun : exec (onMessage E now topic payload) s = exec (executeActions E now
      (s.leadActions a ++ .sendDeviceCommand a c :: rest)) (s.withCommand now a c) := by
    rw [exec_onMessage_command hs now hm h.supported, hactions]
    rfl
  have hstep : (exec (executeActions E now (s.leadActions a ++ .sendDeviceCommand a c :: rest))
      (s.withCommand now a c)).2 = step E s (now, .mqttMessage topic payload) := by
    rw [step_callback hlive rfl, ← hrun]
    rfl
  have hdesk₁ := s.withCommand_desk now a c
  rcases executeActions_command now hlead hrest hconcerns hstep with
    ⟨hraises, hdesk⟩ | ⟨hreturns, u, hdesk, hafter⟩
  · exact .inl ⟨hraises, (hdesk₁.trans hdesk).ledger⟩
  · replace hdesk := hdesk₁.trans hdesk
    rcases executeDeviceCommand_desk (E := E) (s := u) hsend with ⟨hr, hsame⟩ | ⟨hr, sent, hsends, hex⟩
    · refine .inr (.inl ⟨hreturns, hdesk.reason ▸ hr, ?_⟩)
      rw [hafter.ledger, hsame.ledger, ledger_enqueue, hdesk.ledger]
    · refine .inr (.inr ⟨⟨h, hreturns, hdesk.reason ▸ hr⟩, sent, ?_, ?_⟩)
      · rwa [hdesk.sends, hdesk.device] at hsends
      · rw [hafter.ledger, hex, ledger_direct, hdesk.ledger, hdesk.device]

/-- The other actions of a flush concern no command. -/
theorem flush_desk (hr : s.deviceCommandQueueReason = none) :
    SameDesk (exec (flushLoop E s.queuedDeviceCommands) s).2
      (exec (flushQueuedDeviceCommands E) s).2 := by
  rw [flushQueuedDeviceCommands, exec_bind, exec_get]
  dsimp only
  split
  · next hempty =>
    rw [hempty]
    exact .refl s
  · rw [if_neg (by simp [hr]), exec_bind]
    generalize exec (flushLoop E s.queuedDeviceCommands) s = outcome
    obtain ⟨result, t⟩ := outcome
    cases result with
    | error e => exact .refl t
    | ok drained =>
      cases drained with
      | false => exact .refl t
      | true =>
        refine sameDesk_of_path (fun l hl => ?_) (publishOwnStatus_does (E := E))
        rw [List.mem_singleton.mp hl]
        decide

/-- Merging a diagnostic object changes nothing but the path. -/
theorem ledger_merged (payload : List (String × Json)) (now : Timestamp) :
    (s.merged payload now).ledger = s.ledger := rfl

/-- What a step with a diagnostic object does to the ledger. -/
theorem ledger_flush (hlive : s.crashed = false) (now : Timestamp) {line : String}
    {payload : List (String × Json)} {kind : DiagnosticKind}
    (hd : lineDiagnostic line = some (payload, kind)) :
    (¬ s.Flushes E (now, .mochadLine line) ∧
        (step E s (now, .mochadLine line)).ledger = s.ledger) ∨
      (s.Flushes E (now, .mochadLine line) ∧ ∃ u, SameDesk (s.merged payload now) u ∧
        u.deviceCommandQueueReason = none ∧
        (step E s (now, .mochadLine line)).ledger =
          (exec (flushLoop E u.queuedDeviceCommands) u).2.ledger) := by
  have hrun : step E s (now, .mochadLine line) = (exec (handleDiagnostics E now payload kind) s).2 := by
    rw [step_callback hlive rfl, ← exec_onMochadLine_diagnostic now hd]
    rfl
  have hflushes : s.Flushes E (now, .mochadLine line) ↔ kind = .health ∧
      (exec (publishDiagnostics E kind) (s.merged payload now)).1 = .ok () ∧
      (s.merged payload now).deviceCommandQueueReason = none := by
    constructor
    · rintro ⟨line', payload', hline, hd', hok, hready⟩
      obtain rfl := Input.mochadLine.inj hline
      obtain ⟨rfl, rfl⟩ := Prod.mk.inj (Option.some.inj (hd.symm.trans hd'))
      exact ⟨rfl, hok, hready⟩
    · rintro ⟨rfl, hok, hready⟩
      exact ⟨line, payload, rfl, hd, hok, hready⟩
  have hdesk : SameDesk (s.merged payload now)
      (exec (publishDiagnostics E kind) (s.merged payload now)).2 :=
    sameDesk_of_path (subset_of_all (K := [.own, .config, .registry]) (L := idleKinds) rfl)
      (publishDiagnostics_does kind)
  rw [exec_handleDiagnostics] at hrun
  generalize exec (publishDiagnostics E kind) (s.merged payload now) = outcome at hrun hflushes hdesk
  obtain ⟨result, u⟩ := outcome
  cases result with
  | error e =>
    refine .inl ⟨fun hf => absurd (hflushes.mp hf).2.1 nofun, ?_⟩
    rw [hrun]
    exact hdesk.ledger
  | ok _ =>
    dsimp only at hrun
    by_cases hkind : kind = .health
    · rw [if_pos hkind] at hrun
      by_cases hready : u.deviceCommandQueueReason = none
      · refine .inr ⟨hflushes.mpr ⟨hkind, rfl, hdesk.reason ▸ hready⟩, u, hdesk, hready, ?_⟩
        rw [hrun]
        exact (flush_desk hready).ledger
      · refine .inl ⟨fun hf => hready (hdesk.reason ▸ (hflushes.mp hf).2.2), ?_⟩
        rw [hrun, flush_waits hready]
        exact hdesk.ledger
    · refine .inl ⟨fun hf => hkind (hflushes.mp hf).1, ?_⟩
      rw [hrun, if_neg hkind]
      exact hdesk.ledger

/-- Only a diagnostic object resumes commands of the queue. -/
theorem diagnostic_of_resume {sent : Nat} (h : StepLabel s i.1 i.2 (.resume sent)) :
    ∃ line, i.2 = .mochadLine line ∧ lineDiagnostic line ≠ none := by
  rcases h with h | ⟨call, _, h | ⟨x, _, h⟩⟩
  · cases hi : i.2 with
    | mochadLine line =>
      refine ⟨line, rfl, fun hd => ?_⟩
      rw [hi, inputKinds, hd] at h
      exact absurd h (by simp [Label.kind])
    | mqttMessage topic payload =>
      rw [hi] at h
      exact absurd (kind_of_message h) (by simp [Label.kind])
    | poll monotonic signature loaded =>
      rw [hi, inputKinds] at h
      split at h <;> exact absurd h (by simp [Label.kind])
    | _ =>
      rw [hi] at h
      exact absurd h (by simp [inputKinds, Label.kind])
  · exact Label.noConfusion h
  · exact absurd h id

/-- Other steps leave the ledger as it is. -/
theorem ledger_idle (hs : Sound s) (hc : ∀ a c, ¬ s.Issues i.2 a c)
    (hd : ∀ line, i.2 = .mochadLine line → lineDiagnostic line = none) :
    (step E s i).ledger = s.ledger := by
  refine (step_path hs i).frame ledger fun l u hl _ => ledger_apply_idle (fun hk => ?_) fun hk => ?_
  · have hissues := issues_of_label hs hl
    cases l with
    | direct a c | enqueue a c => exact hc a c (hissues (a, c) List.mem_cons_self)
    | _ => exact Kind.noConfusion hk
  · cases l with
    | resume sent =>
      obtain ⟨line, hi, hdiag⟩ := diagnostic_of_resume hl
      exact hdiag (hd line hi)
    | _ => exact Kind.noConfusion hk

end Steps

/-! ## Order -/

/-- A step that hands a command over at once finds the queue empty, or the first line
fails. -/
def KeepsTurn (E : Env) (s : Bridge) (i : Timestamp × Input) : Prop :=
  s.crashed = false → ∀ a c, s.Direct E i a c → E.sendFault s.journal.sends.length = none →
    s.queuedDeviceCommands = []

/-- A command takes at least one line. -/
def Priced (s : Bridge) : Prop := ∀ a c, 1 ≤ repeats (s.deviceAt a) c

section Order
variable {E : Env} {s t : Bridge} {l : Label} {i : Timestamp × Input}

theorem repeats_pos {d : DeviceConfig} (h : 1 ≤ d.commandRepeats) (c : Command) :
    1 ≤ repeats d c := by
  rw [repeats]
  split
  · exact h
  · exact le_rfl

theorem priced_of_devices (h : ∀ k d, s.devices.get? k = some d → 1 ≤ d.commandRepeats) :
    Priced s := by
  intro a c
  rw [deviceAt]
  cases hd : s.devices.get? (normalize a) with
  | none => exact repeats_pos le_rfl c
  | some d => exact repeats_pos (h _ d hd) c

theorem priced_filter (config : Config) (p : String → Bool)
    (h : s.devices = config.devices.filterKeys p) : Priced s := by
  refine priced_of_devices fun k d hd => ?_
  rw [h, Dict.get?_filterKeys] at hd
  split at hd
  · exact (config.configured k d hd).repeats.1
  · cases hd

theorem Priced.apply (h : Priced s) (l : Label) : Priced (l.apply s) := by
  by_cases hl : l.kind = .install
  · cases l with
    | install newConfig => exact priced_filter newConfig _ rfl
    | _ => exact Kind.noConfusion hl
  · intro a c
    rw [apply_deviceAt hl]
    exact h a c

theorem Fresh.apply (h : s.ledger.Fresh) (l : Label) : (l.apply s).ledger.Fresh := by
  cases l with
  | direct a c sent =>
    rw [ledger_direct]
    exact h.perform
  | enqueue a c =>
    rw [ledger_enqueue]
    exact h.wait
  | resume sent =>
    rw [Label.apply]
    cases hq : s.queuedDeviceCommands with
    | nil =>
      have hsame : s.resume sent = s := by simp only [Bridge.resume, hq]
      rw [hsame]
      exact h
    | cons q rest =>
      rw [ledger_resume hq]
      exact h.resume
  | _ =>
    rw [ledger_apply_idle (by simp [Label.kind]) (by simp [Label.kind])]
    exact h

theorem step_priced (hs : Sound s) (h : Priced s) (i : Timestamp × Input) :
    Priced (step E s i) :=
  (step_path hs i).invariant (I := Priced) (fun l _ _ _ hp => hp.apply l) h

theorem step_fresh (hs : Sound s) (h : s.ledger.Fresh) (i : Timestamp × Input) :
    (step E s i).ledger.Fresh :=
  (step_path hs i).invariant (I := fun t => t.ledger.Fresh) (fun l _ _ _ hf => Fresh.apply hf l) h

/-- No line is written exactly if the first one fails. -/
theorem SendsUpTo.none_iff {start sent total : Nat} (h : SendsUpTo E start sent total)
    (htotal : 1 ≤ total) : sent = 0 ↔ (E.sendFault start).isSome := by
  constructor
  · rintro rfl
    exact h.fails htotal
  · intro hfault
    by_contra hne
    have hthrough := h.through 0 (Nat.pos_of_ne_zero hne)
    rw [Nat.add_zero] at hthrough
    rw [hthrough] at hfault
    exact Bool.noConfusion hfault

/-- A flush keeps the order. -/
theorem flushLoop_ordered (hr : s.deviceCommandQueueReason = none) {qs : List QueuedCommand}
    (hsend : ∀ q ∈ qs, Protocol.Sendable q.address q.command)
    (hq : s.queuedDeviceCommands = qs) (h : s.ledger.Ordered) :
    (exec (flushLoop E qs) s).2.ledger.Ordered := by
  induction qs generalizing s with
  | nil => exact h
  | cons q rest ih =>
    obtain ⟨sent, _, hout⟩ := exec_flush_head (E := E) hq hr (hsend q List.mem_cons_self)
    have hordered : (s.resume sent).ledger.Ordered := by
      rw [ledger_resume hq]
      exact h.resume
    rcases hout with ⟨heq, hex⟩ | ⟨_, hex⟩
    · rw [hex]
      refine ih (by rw [resume_reason]; exact hr)
        (fun q' hq' => hsend q' (List.mem_cons_of_mem _ hq')) ?_ hordered
      rw [resume_queue hq, if_neg (not_lt.mpr heq.ge)]
    · rw [hex]
      exact hordered

/-- A step keeps the order exactly if no command goes ahead of a waiting one. -/
theorem ordered_step_iff (hs : Sound s) (hp : Priced s) (h : s.ledger.Ordered)
    (i : Timestamp × Input) : (step E s i).ledger.Ordered ↔ KeepsTurn E s i := by
  cases hlive : s.crashed with
  | true =>
    have hsame : step E s i = s := by rw [step, hlive, if_pos rfl]
    rw [hsame]
    exact iff_of_true h fun hdead => absurd (hlive.symm.trans hdead) Bool.noConfusion
  | false =>
    by_cases hissues : ∃ a c, s.Issues i.2 a c
    · obtain ⟨a, c, hissue⟩ := hissues
      rcases ledger_command (E := E) hs hlive hissue with ⟨hraises, hledger⟩ | ⟨_, hbusy, hledger⟩ |
        ⟨hdirect, sent, hsends, hledger⟩
      · rw [hledger]
        refine iff_of_true h fun _ a' c' hd => absurd ?_ hraises
        obtain ⟨rfl, rfl⟩ := Prod.mk.inj (Option.some.inj (hissue.command.symm.trans hd.issues.command))
        exact hd.hands
      · rw [hledger]
        exact iff_of_true h.wait fun _ a' c' hd => absurd hd.ready hbusy
      · rw [hledger, Ledger.ordered_perform_iff h, SendsUpTo.none_iff hsends (hp a c)]
        have hempty : s.ledger.waiting = [] ↔ s.queuedDeviceCommands = [] := List.map_eq_nil_iff
        rw [hempty]
        constructor
        · intro hcase _ a' c' _ hfault
          refine hcase.resolve_left fun hsome => ?_
          rw [hfault] at hsome
          exact Bool.noConfusion hsome
        · intro hturn
          cases hfault : E.sendFault s.journal.sends.length with
          | some fault => exact .inl rfl
          | none => exact .inr (hturn hlive a c hdirect hfault)
    · have hnone : ∀ a c, ¬ s.Issues i.2 a c := fun a c hi => hissues ⟨a, c, hi⟩
      have hturn : KeepsTurn E s i := fun _ a c hd => absurd hd.issues (hnone a c)
      refine iff_of_true ?_ hturn
      by_cases hdiag : ∃ line, i.2 = .mochadLine line ∧ lineDiagnostic line ≠ none
      · obtain ⟨now, input⟩ := i
        obtain ⟨line, rfl, hd⟩ := hdiag
        obtain ⟨⟨payload, kind⟩, hd⟩ := Option.ne_none_iff_exists'.mp hd
        rcases ledger_flush (E := E) hlive now hd with ⟨_, hledger⟩ |
          ⟨_, u, hdesk, hready, hledger⟩
        · rw [hledger]
          exact h
        · rw [hledger]
          refine flushLoop_ordered hready (fun q hq => ?_) rfl (by rw [hdesk.ledger]; exact h)
          rw [hdesk.queue] at hq
          exact (hs.queue q hq).2
      · rw [ledger_idle hs hnone fun line hi => by_contra fun hd => hdiag ⟨line, hi, hd⟩]
        exact h

end Order

/-! ## Accounts -/

/-- The commands of a flush go through whole, up to the first one whose first line
fails; `totals` says how many lines they take. -/
def Clean (E : Env) : Nat → List Nat → Prop
  | _, [] => True
  | start, total :: totals => (E.sendFault start).isSome ∨
      (∀ k < total, E.sendFault (start + k) = none) ∧ Clean E (start + total) totals

/-- No line of a command fails in the step, but for the first line of a command from
the queue. -/
structure KeepsWhole (E : Env) (s : Bridge) (i : Timestamp × Input) : Prop where
  direct : ∀ a c, s.Direct E i a c →
    ∀ k < repeats (s.deviceAt a) c, E.sendFault (s.journal.sends.length + k) = none
  flush : s.Flushes E i →
    Clean E s.journal.sends.length (s.queuedDeviceCommands.map s.lineCount)

/-- Every accepted command was transmitted once, waits, or was evicted and counted. -/
structure Accounted (s : Bridge) : Prop where
  balanced : s.ledger.Balanced
  counted : s.droppedDeviceCommands = s.journal.evicted.length

/-- A new line is one of its command, and the command has as many lines as its device
says. -/
def OwnLine (s t : Bridge) (o : Output) : Prop :=
  ∀ text stamp, o = .line text (some stamp) → ∃ a c, t.Ticket stamp.ticket a c ∧
    text = commandLine a c ∧ stamp.repeats = repeats (s.deviceAt a) c

section Accounts
variable {E : Env} {s t : Bridge} {l : Label} {i : Timestamp × Input}

/-- A flush keeps the account exactly if it is clean. -/
theorem flushLoop_balanced_iff (hr : s.deviceCommandQueueReason = none) (hp : Priced s)
    {qs : List QueuedCommand} (hsend : ∀ q ∈ qs, Protocol.Sendable q.address q.command)
    (hq : s.queuedDeviceCommands = qs) (hf : s.ledger.Fresh) (h : s.ledger.Balanced) :
    (exec (flushLoop E qs) s).2.ledger.Balanced ↔
      Clean E s.journal.sends.length (qs.map s.lineCount) := by
  induction qs generalizing s with
  | nil => exact iff_of_true h trivial
  | cons q rest ih =>
    obtain ⟨sent, hsends, hout⟩ := exec_flush_head (E := E) hq hr (hsend q List.mem_cons_self)
    replace hsends : SendsUpTo E s.journal.sends.length sent (s.lineCount q) := hsends
    have hpos : 1 ≤ s.lineCount q := hp q.address q.command
    have hwaiting : s.ledger.waiting = q.ticket :: rest.map QueuedCommand.ticket := by
      rw [ledger, hq, List.map_cons]
    have hresume := Ledger.balanced_resume_iff h hf hwaiting hpos hsends.le
    rw [← ledger_resume hq] at hresume
    have hzero := SendsUpTo.none_iff hsends hpos
    rw [List.map_cons, Clean, ← hzero]
    rcases hout with ⟨heq, hex⟩ | ⟨hlt, hex⟩
    · -- all lines go through, and the rest decides
      replace heq : sent = s.lineCount q := heq
      subst heq
      have hqueue : (s.resume (s.lineCount q)).queuedDeviceCommands = rest := by
        rw [resume_queue hq, lineCount, if_neg (lt_irrefl _)]
      have hfresh : (s.resume (s.lineCount q)).ledger.Fresh := Fresh.apply hf (.resume _)
      have hpriced : Priced (s.resume (s.lineCount q)) := hp.apply (.resume _)
      have hrest := ih (by rw [resume_reason]; exact hr) hpriced
        (fun q' hq' => hsend q' (List.mem_cons_of_mem _ hq')) hqueue hfresh
        (hresume.mpr (.inr rfl))
      rw [hex, hrest, sends_resume hq, lineCount_resume]
      exact ⟨fun hclean => .inr ⟨hsends.through, hclean⟩,
        fun hcase => (hcase.resolve_left (Nat.ne_of_gt hpos)).2⟩
    · replace hlt : sent < s.lineCount q := hlt
      rw [hex, hresume]
      refine or_congr_right (iff_of_false hlt.ne fun hthrough => ?_)
      have hfault := hsends.fails hlt
      rw [hthrough.1 sent hlt] at hfault
      exact Bool.noConfusion hfault

/-- A step keeps the account exactly if only first lines from the queue fail. -/
theorem balanced_step_iff (hs : Sound s) (hp : Priced s) (hf : s.ledger.Fresh)
    (h : s.ledger.Balanced) (i : Timestamp × Input) :
    (step E s i).ledger.Balanced ↔ (s.crashed = false → KeepsWhole E s i) := by
  cases hlive : s.crashed with
  | true =>
    have hsame : step E s i = s := by rw [step, hlive, if_pos rfl]
    rw [hsame]
    exact iff_of_true h fun hdead => Bool.noConfusion hdead
  | false =>
    refine .trans ?_ ⟨fun hkeeps _ => hkeeps, fun hkeeps => hkeeps rfl⟩
    by_cases hissues : ∃ a c, s.Issues i.2 a c
    · obtain ⟨a, c, hissue⟩ := hissues
      have hunique : ∀ {a' c'}, s.Issues i.2 a' c' → a = a' ∧ c = c' := fun hissue' =>
        Prod.mk.inj (Option.some.inj (hissue.command.symm.trans hissue'.command))
      have hflush : ¬ s.Flushes E i := by
        rintro ⟨line, payload, hi, _⟩
        have hcommand := hissue.command
        rw [hi] at hcommand
        cases hcommand
      rcases ledger_command (E := E) hs hlive hissue with ⟨hraises, hledger⟩ | ⟨_, hbusy, hledger⟩ |
        ⟨hdirect, sent, hsends, hledger⟩
      · rw [hledger]
        refine iff_of_true h ⟨fun a' c' hd => absurd ?_ hraises, fun hf => absurd hf hflush⟩
        obtain ⟨rfl, rfl⟩ := hunique hd.issues
        exact hd.hands
      · rw [hledger]
        exact iff_of_true (Ledger.balanced_wait hf h)
          ⟨fun a' c' hd => absurd hd.ready hbusy, fun hf => absurd hf hflush⟩
      · rw [hledger, Ledger.balanced_perform_iff hf h (hp a c)]
        constructor
        · rintro rfl
          refine ⟨fun a' c' hd => ?_, fun hf => absurd hf hflush⟩
          obtain ⟨rfl, rfl⟩ := hunique hd.issues
          exact hsends.through
        · intro hwhole
          refine Nat.le_antisymm hsends.le (not_lt.mp fun hlt => ?_)
          have hfault := hsends.fails hlt
          rw [hwhole.direct a c hdirect sent hlt] at hfault
          exact Bool.noConfusion hfault
    · have hnone : ∀ a c, ¬ s.Issues i.2 a c := fun a c hi => hissues ⟨a, c, hi⟩
      have hdirect : ∀ a c, ¬ s.Direct E i a c := fun a c hd => hnone a c hd.issues
      by_cases hdiag : ∃ line, i.2 = .mochadLine line ∧ lineDiagnostic line ≠ none
      · obtain ⟨now, input⟩ := i
        obtain ⟨line, rfl, hd⟩ := hdiag
        obtain ⟨⟨payload, kind⟩, hd⟩ := Option.ne_none_iff_exists'.mp hd
        rcases ledger_flush (E := E) hlive now hd with ⟨hidle, hledger⟩ |
          ⟨hflush, u, hdesk, hready, hledger⟩
        · rw [hledger]
          exact iff_of_true h ⟨fun a c hd => absurd hd (hdirect a c), fun hf => absurd hf hidle⟩
        · have hlines : u.lineCount = s.lineCount := by
            funext q
            rw [lineCount, lineCount, hdesk.device]
            rfl
          have hpriced : Priced u := by
            intro a c
            rw [hdesk.device]
            exact hp a c
          have hqueue : u.queuedDeviceCommands = s.queuedDeviceCommands := hdesk.queue
          have hsends : u.journal.sends = s.journal.sends := hdesk.sends
          rw [hledger, flushLoop_balanced_iff hready hpriced
            (fun q hq => (hs.queue q (hqueue ▸ hq)).2) rfl (hdesk.ledger ▸ hf) (hdesk.ledger ▸ h),
            hlines, hqueue, hsends]
          exact ⟨fun hclean => ⟨fun a c hd => absurd hd (hdirect a c), fun _ => hclean⟩,
            fun hwhole => hwhole.flush hflush⟩
      · rw [ledger_idle hs hnone fun line hi => by_contra fun hd => hdiag ⟨line, hi, hd⟩]
        refine iff_of_true h ⟨fun a c hd => absurd hd (hdirect a c), ?_⟩
        rintro ⟨line, payload, hi, hd, _⟩
        exact absurd ⟨line, hi, by rw [hd]; exact Option.some_ne_none _⟩ hdiag

/-- Every eviction is counted. -/
theorem counted_apply (h : s.droppedDeviceCommands = s.journal.evicted.length) (l : Label) :
    (l.apply s).droppedDeviceCommands = (l.apply s).journal.evicted.length := by
  cases l with
  | enqueue a c =>
    simp only [Label.apply, Bridge.enqueue]
    split
    · split
      · rw [List.length_append]
        exact congrArg (· + 1) h
      · exact h
    · exact h
  | resume sent =>
    simp only [Label.apply, Bridge.resume]
    split <;> exact h
  | mqtt connected => cases connected <;> exact h
  | _ => exact h

theorem mem_linesDone {os : List Output} {text : String} {stamp : Stamp}
    (h : .line text (some stamp) ∈ os) :
    ⟨stamp.ticket, stamp.attempt, stamp.repeats⟩ ∈ linesDone os :=
  List.mem_filterMap.mpr ⟨_, h, rfl⟩

theorem OwnLine.mono {o : Output} {u : Bridge} (h : OwnLine s t o)
    (htu : t.journal.accepted <+: u.journal.accepted) : OwnLine s u o := by
  intro text stamp ho
  obtain ⟨a, c, hticket, htext, hrepeats⟩ := h text stamp ho
  exact ⟨a, c, hticket.mono htu, htext, hrepeats⟩

/-- The lines of a transmission. -/
theorem ownLine_of_attempt {ticket sent : Nat} {a : String} {c : Command}
    (hsend : Protocol.Sendable a c) (hticket : t.Ticket ticket a c) {o : Output}
    (ho : o ∈ attemptLines (commandLine a c) ticket (repeats (s.deviceAt a) c)
      (List.range' 1 sent)) : OwnLine s t o := by
  rintro text stamp rfl
  obtain ⟨attempt, _, hline⟩ := List.mem_map.mp ho
  obtain ⟨rfl, hstamp⟩ := Output.line.inj hline
  obtain rfl := Option.some.inj hstamp
  exact ⟨a, c, hticket, rstripLineEnds_commandLine hsend, rfl⟩

/-- What a label writes is a line of its command. -/
theorem ownLine_of_label (ht : Ticketed t) (ht' : Sound t) (hg : l.guard E t)
    (hdevice : l.kind = .command ∨ l.kind = .resume → ∀ a, t.deviceAt a = s.deviceAt a)
    {o : Output} (ho : o ∈ l.outputs t) : OwnLine s (l.apply t) o := by
  cases l with
  | direct a c sent =>
    rw [Label.outputs, hdevice (.inl rfl)] at ho
    exact ownLine_of_attempt hg.2.1 (accept_ticket a c) ho
  | resume sent =>
    obtain ⟨_, q, rest, hqueue, _⟩ := hg
    have hmem : q ∈ t.queuedDeviceCommands := by
      rw [hqueue]
      exact List.mem_cons_self
    simp only [Label.outputs, hqueue] at ho
    rw [hdevice (.inr rfl)] at ho
    exact ownLine_of_attempt (ht'.queue q hmem).2
      ((ht.queue q hmem).mono (accepted_mono (.resume sent))) ho
  | enqueue a c => exact absurd ho List.not_mem_nil
  | _ =>
    rintro text stamp rfl
    have hdone := mem_linesDone ho
    rw [linesDone_idle (by simp [Label.kind]) (by simp [Label.kind])] at hdone
    exact absurd hdone List.not_mem_nil

/-- The input of a label that writes a command loads no configuration. -/
theorem inputConfig_of_command (hs : Sound s) (hl : StepLabel s i.1 i.2 l)
    (hk : l.kind = .command ∨ l.kind = .resume) : s.inputConfig i.2 = none := by
  have hmessage : ∀ a c, s.Issues i.2 a c → s.inputConfig i.2 = none := by
    intro a c hissue
    obtain ⟨topic, payload, hi, _⟩ := message_of_inputCommand hissue.command
    rw [hi]
    rfl
  have hissues := issues_of_label hs hl
  cases l with
  | direct a c | enqueue a c => exact hmessage a c (hissues (a, c) List.mem_cons_self)
  | resume sent =>
    obtain ⟨line, hi, _⟩ := diagnostic_of_resume hl
    rw [hi]
    rfl
  | _ => rcases hk with hk | hk <;> exact Kind.noConfusion hk

/-- Every line that a step writes is one of its command. -/
theorem step_ownLines (hs : Sound s) (ht : Ticketed s) (i : Timestamp × Input) :
    ∃ new, (step E s i).journal.outputs = s.journal.outputs ++ new ∧
      ∀ o ∈ new, OwnLine s (step E s i) o := by
  have hall : Ticketed (step E s i) ∧
      (s.inputConfig i.2 = none → ∀ a, (step E s i).deviceAt a = s.deviceAt a) ∧
      ∃ new, (step E s i).journal.outputs = s.journal.outputs ++ new ∧
        ∀ o ∈ new, OwnLine s (step E s i) o := by
    refine hs.carries (I := fun u => Ticketed u ∧
      (s.inputConfig i.2 = none → ∀ a, u.deviceAt a = s.deviceAt a) ∧
      ∃ new, u.journal.outputs = s.journal.outputs ++ new ∧ ∀ o ∈ new, OwnLine s u o)
      (step_path hs i) ⟨ht, fun _ _ => rfl, [], (List.append_nil _).symm, nofun⟩ ?_
    rintro l u hl hg hu ⟨hticketed, hdevice, new, hnew, hown⟩
    refine ⟨hticketed.apply hu hg, fun hnone a => ?_, new ++ l.outputs u, ?_, fun o ho => ?_⟩
    · rw [← hdevice hnone]
      refine apply_deviceAt (fun hk => ?_) a
      cases l with
      | install newConfig =>
        have hloads : s.inputConfig i.2 = some newConfig := hl
        rw [hnone] at hloads
        cases hloads
      | _ => exact Kind.noConfusion hk
    · rw [outputs_apply, hnew, List.append_assoc]
    · rcases List.mem_append.mp ho with ho | ho
      · exact (hown o ho).mono (accepted_mono l)
      · exact ownLine_of_label hticketed hu hg
          (fun hk => hdevice (inputConfig_of_command hs hl hk)) ho
  exact hall.2.2

end Accounts

/-! ## Runs -/

section Runs
variable {E : Env} {config : Config} {signature : Option (Int × Nat)} {monotonic : Nat}
  {registry : RegistryFile} {s₀ s : Bridge}

theorem init_ledger (h₀ : init E config signature monotonic registry = .ok s₀) :
    s₀.ledger = ⟨0, [], [], []⟩ ∧ Priced s₀ ∧ Ticketed s₀ ∧
      s₀.droppedDeviceCommands = s₀.journal.evicted.length := by
  obtain ⟨_, file, rfl⟩ := init_ok h₀
  exact ⟨rfl, priced_filter config _ rfl, ⟨nofun, nofun⟩, rfl⟩

/-- No line of a command is written while an older command waits, all along a run, exactly
if every step that hands one over at once finds the queue empty. -/
theorem ordered_iff (h₀ : init E config signature monotonic registry = .ok s₀)
    (inputs : List (Timestamp × Input)) :
    (∀ pre, pre <+: inputs → (Run.exec (step E) s₀ pre).ledger.Ordered) ↔
      Run.Meets (step E) (KeepsTurn E) s₀ inputs := by
  obtain ⟨hledger, hpriced, _⟩ := init_ledger h₀
  refine Run.meets_iff (I := fun s => s.ledger.Ordered) (B := fun s => Sound s ∧ Priced s)
    (fun _ i h => ⟨step_sound h.1 i, step_priced h.1 h.2 i⟩)
    (fun _ i h hordered => ordered_step_iff h.1 h.2 hordered i) ⟨init_sound h₀, hpriced⟩ ?_ inputs
  rw [hledger]
  exact ⟨.nil, .nil, nofun, nofun, nofun⟩

/-- Where every command that is handed over at once finds the queue empty, the lines are
written in the order of the commands. -/
theorem lines_in_order (h₀ : init E config signature monotonic registry = .ok s₀)
    {inputs : List (Timestamp × Input)} (h : Run.Meets (step E) (KeepsTurn E) s₀ inputs) :
    ∀ pre, pre <+: inputs →
      (linesDone (Run.exec (step E) s₀ pre).journal.outputs).Pairwise (·.ticket ≤ ·.ticket) :=
  fun pre hpre => ((ordered_iff h₀ inputs).mpr h pre hpre).done

/-- A health report of a controller that is ready. -/
def healthReport : Input := .mochadLine "\x7b\"usb_connected\": true, \"controller\": \"CM19A\"\x7d"

/-- The queued command is flushed. -/
theorem lines_in_order_lamp : ∃ s₀, init {} (.plain "A1:Lamp") none 0 .absent = .ok s₀ ∧
    ∀ pre, pre <+: [(0, .mqttMessage "x10/A1/command" "ON"), (1, .mochadConnected),
        (2, healthReport)] →
      (linesDone (Run.exec (step {}) s₀ pre).journal.outputs).Pairwise (·.ticket ≤ ·.ticket) := by
  have hinit : (init {} (.plain "A1:Lamp") none 0 .absent).map (fun _ => ()) = .ok () := by
    decide
  obtain ⟨s₀, h₀, _⟩ := map_ok hinit
  have hqueue : s₀.queuedDeviceCommands = [] := by
    obtain ⟨_, file, rfl⟩ := init_ok h₀
    rfl
  refine ⟨s₀, h₀, lines_in_order h₀ ⟨fun _ _ _ _ _ => hqueue, fun _ _ _ hd => ?_,
    fun _ _ _ hd => ?_, trivial⟩⟩
  · cases hd.issues.command
  · cases hd.issues.command

/-- After a reconnection a command goes ahead of the one that waits for a health report. -/
theorem overtaken : ∃ s₀, init {} (.plain "A1:Lamp") none 0 .absent = .ok s₀ ∧
    ¬ (linesDone (Run.exec (step {}) s₀ [(0, .mqttMessage "x10/A1/command" "ON"),
        (1, .mochadConnected), (2, .mqttMessage "x10/A1/command" "OFF"),
        (3, healthReport)]).journal.outputs).Pairwise (·.ticket ≤ ·.ticket) := by
  have hrun : (init {} (.plain "A1:Lamp") none 0 .absent).map (fun s₀ =>
      linesDone (Run.exec (step {}) s₀ [(0, .mqttMessage "x10/A1/command" "ON"),
        (1, .mochadConnected), (2, .mqttMessage "x10/A1/command" "OFF"),
        (3, healthReport)]).journal.outputs) = .ok [⟨1, 1, 1⟩, ⟨0, 1, 1⟩] := by
    decide +kernel
  obtain ⟨s₀, h₀, hlines⟩ := map_ok hrun
  refine ⟨s₀, h₀, ?_⟩
  rw [hlines]
  decide

/-- The new lines of every step are lines of their commands. All along a run every
command is accounted for exactly if no line fails but the first line of a command from
the queue. -/
theorem accounted_iff (h₀ : init E config signature monotonic registry = .ok s₀)
    (inputs : List (Timestamp × Input)) :
    (∀ pre i, pre ++ [i] <+: inputs → ∃ new,
      (Run.exec (step E) s₀ (pre ++ [i])).journal.outputs =
        (Run.exec (step E) s₀ pre).journal.outputs ++ new ∧
      ∀ o ∈ new, OwnLine (Run.exec (step E) s₀ pre) (Run.exec (step E) s₀ (pre ++ [i])) o) ∧
    ((∀ pre, pre <+: inputs → Accounted (Run.exec (step E) s₀ pre)) ↔
      Run.Meets (step E) (fun s i => s.crashed = false → KeepsWhole E s i) s₀ inputs) := by
  obtain ⟨hledger, hpriced, hticketed, hcounted⟩ := init_ledger h₀
  have hsound := init_sound h₀
  refine ⟨fun pre i _ => ?_, ?_⟩
  · have hr : Run.Reaches (step E) (fun _ _ => True) s₀ (Run.exec (step E) s₀ pre) :=
      Run.reaches_exec (Run.meets_true pre)
    rw [Run.exec_concat]
    exact step_ownLines (reaches_sound hsound hr) (ticketed_of_reaches hsound hticketed hr) i
  · refine Run.meets_iff (I := Accounted)
      (B := fun s => Sound s ∧ Priced s ∧ s.ledger.Fresh ∧
        s.droppedDeviceCommands = s.journal.evicted.length)
      (fun s i h => ⟨step_sound h.1 i, step_priced h.1 h.2.1 i, step_fresh h.1 h.2.2.1 i, ?_⟩)
      (fun s i h haccounted => ?_) ⟨hsound, hpriced, ?_, hcounted⟩ ⟨?_, hcounted⟩ inputs
    · exact (step_path (E := E) h.1 i).invariant
        (I := fun t => t.droppedDeviceCommands = t.journal.evicted.length)
        (fun l _ _ _ hc => counted_apply hc l) h.2.2.2
    · have hstep := balanced_step_iff (E := E) h.1 h.2.1 h.2.2.1 haccounted.balanced i
      have hdropped := (step_path (E := E) h.1 i).invariant
        (I := fun t => t.droppedDeviceCommands = t.journal.evicted.length)
        (fun l _ _ _ hc => counted_apply hc l) h.2.2.2
      exact ⟨fun hacc => hstep.mp hacc.balanced, fun hkeeps => ⟨hstep.mpr hkeeps, hdropped⟩⟩
    · rw [hledger]
      exact fun _ _ => ⟨rfl, List.not_mem_nil, List.not_mem_nil⟩
    · rw [hledger]
      exact fun n hn => absurd hn (Nat.not_lt_zero n)

/-- A command that waits for a health report is accounted for. -/
theorem accounted_lamp : ∃ s₀, init {} (.plain "A1:Lamp") none 0 .absent = .ok s₀ ∧
    ∀ pre, pre <+: [(0, .mqttMessage "x10/A1/command" "ON"), (1, .mochadConnected)] →
      Accounted (Run.exec (step {}) s₀ pre) := by
  have hinit : (init {} (.plain "A1:Lamp") none 0 .absent).map (fun _ => ()) = .ok () := by
    decide
  obtain ⟨s₀, h₀, _⟩ := map_ok hinit
  have hready : s₀.deviceCommandQueueReason ≠ none := by
    obtain ⟨_, file, rfl⟩ := init_ok h₀
    exact Option.some_ne_none _
  refine ⟨s₀, h₀, (accounted_iff h₀ _).2.mpr ⟨fun _ => ⟨fun _ _ hd => absurd hd.ready hready, ?_⟩,
    fun _ => ⟨fun _ _ hd => ?_, ?_⟩, trivial⟩⟩
  · rintro ⟨_, _, hi, _⟩
    exact Input.noConfusion hi
  · cases hd.issues.command
  · rintro ⟨_, _, hi, _⟩
    exact Input.noConfusion hi

/-- The first line of a command fails after the four requests of the connection. -/
def brokenPipe : Env where
  sendFault n := if n = 4 then some (.connectionError "broken pipe") else none

/-- A command whose line fails is gone. -/
theorem lost : ∃ s₀, init brokenPipe (.plain "A1:Lamp") none 0 .absent = .ok s₀ ∧
    ¬ Accounted (Run.exec (step brokenPipe) s₀ [(0, .mochadConnected),
      (1, .mqttMessage "x10/A1/command" "ON")]) := by
  have hrun : (init brokenPipe (.plain "A1:Lamp") none 0 .absent).map (fun s₀ =>
      (Run.exec (step brokenPipe) s₀ [(0, .mochadConnected),
        (1, .mqttMessage "x10/A1/command" "ON")]).ledger) = .ok ⟨1, [], [], []⟩ := by
    decide +kernel
  obtain ⟨s₀, h₀, hledger⟩ := map_ok hrun
  refine ⟨s₀, h₀, fun haccounted => ?_⟩
  have hbalanced := haccounted.balanced
  rw [hledger] at hbalanced
  rcases hbalanced 0 Nat.one_pos with ⟨⟨total, hpos, hparts⟩, _⟩ | hwaits | hevicted
  · have hnone := Ledger.parts_eq_nil.mp hparts.symm
    omega
  · exact absurd hwaits.mem List.not_mem_nil
  · exact absurd hevicted.mem List.not_mem_nil

end Runs

end Bridge

end MochadBridge
