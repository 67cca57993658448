import MochadBridge.BridgeSteps

/-!
# The lines that reach mochad

Text of MQTT messages becomes lines to mochad, at once or after a wait in the
queue. Every call of `send_line` is noted with the ticket of its command, so a
line leads back to the entry of its ticket, and the entry to the step that
accepted the command.

Results:
1. `ticketed_of_reaches`: every line and every waiting command has a ticket, and
   a line was handed over on a ready path.
2. `accepted_of_reaches`: every ticket was issued by a step whose input brings
   this command, for a device that supports it and whose house is allowed.
3. `lines_authorised`: so every line is a fixed request or an authorised command.
-/

namespace MochadBridge

open Py Effect

namespace Bridge

/-! ## Tickets -/

/-- The ticket belongs to the command. -/
def Ticket (s : Bridge) (ticket : Nat) (a : String) (c : Command) : Prop :=
  s.journal.accepted[ticket]? = some (a, c)

/-- The call hands over the line of an accepted command, on a ready path. -/
def CommandCall (s : Bridge) (call : SendCall) (ticket : Nat) (a : String) (c : Command) : Prop :=
  Protocol.Sendable a c ∧ call.line = commandLine a c ∧ call.ready = true ∧ s.Ticket ticket a c

/-- The lines and the waiting commands have their tickets. -/
structure Ticketed (s : Bridge) : Prop where
  calls : ∀ call ∈ s.journal.sends,
    (call.stamp = none ∧ call.line ∈ ["st", "hello", "capabilities", "health"]) ∨
    ∃ stamp a c, call.stamp = some stamp ∧ s.CommandCall call stamp.ticket a c
  queue : ∀ q ∈ s.queuedDeviceCommands, s.Ticket q.ticket q.address q.command

section Journal
variable {E : Env} {s t : Bridge} {l : Label} {K : Label → Prop}

/-- The commands a label accepts. -/
def Label.accepts : Label → List (String × Command)
  | .direct a c _ | .enqueue a c => [(a, c)]
  | _ => []

@[simp] theorem enqueue_accepted (q : QueuedCommand) :
    (s.enqueue q).journal.accepted = s.journal.accepted := by
  unfold Bridge.enqueue
  split
  · split <;> rfl
  · rfl

@[simp] theorem enqueue_sends (q : QueuedCommand) :
    (s.enqueue q).journal.sends = s.journal.sends := by
  unfold Bridge.enqueue
  split
  · split <;> rfl
  · rfl

@[simp] theorem resume_accepted (sent : Nat) :
    (s.resume sent).journal.accepted = s.journal.accepted := by
  unfold Bridge.resume
  split <;> rfl

theorem apply_accepted (l : Label) :
    (l.apply s).journal.accepted = s.journal.accepted ++ l.accepts := by
  cases l with
  | direct a c sent => rfl
  | enqueue a c => exact enqueue_accepted _
  | resume sent => exact (resume_accepted sent).trans (List.append_nil _).symm
  | mqtt connected => cases connected <;> exact (List.append_nil _).symm
  | _ => exact (List.append_nil _).symm

/-- A label only adds calls. -/
theorem apply_sends (l : Label) : s.journal.sends <+: (l.apply s).journal.sends := by
  cases l with
  | line text written => exact List.prefix_append _ _
  | direct a c sent => exact List.prefix_append _ _
  | enqueue a c =>
    simp only [Label.apply, enqueue_sends]
    exact List.prefix_rfl
  | resume sent =>
    simp only [Label.apply, Bridge.resume]
    split
    · exact List.prefix_append _ _
    · exact List.prefix_rfl
  | mqtt connected => cases connected <;> exact List.prefix_rfl
  | _ => exact List.prefix_rfl

theorem Ticket.mono {ticket : Nat} {a : String} {c : Command} (h : s.Ticket ticket a c)
    (ht : s.journal.accepted <+: t.journal.accepted) : t.Ticket ticket a c := by
  obtain ⟨new, hnew⟩ := ht
  have hlt : ticket < s.journal.accepted.length := (List.getElem?_eq_some_iff.mp h).1
  rw [Ticket, ← hnew, List.getElem?_append_left hlt]
  exact h

theorem accepted_mono (l : Label) :
    s.journal.accepted <+: (l.apply s).journal.accepted := by
  rw [apply_accepted]
  exact List.prefix_append _ _

theorem CommandCall.mono {call : SendCall} {ticket : Nat} {a : String} {c : Command}
    (h : s.CommandCall call ticket a c) (ht : s.journal.accepted <+: t.journal.accepted) :
    t.CommandCall call ticket a c :=
  ⟨h.1, h.2.1, h.2.2.1, h.2.2.2.mono ht⟩

/-- Whatever only adds authorised calls and ticketed commands keeps the tickets. -/
theorem Ticketed.extend (h : Ticketed s) (ht : s.journal.accepted <+: t.journal.accepted)
    (hcalls : ∀ call ∈ t.journal.sends, call ∈ s.journal.sends ∨
      (call.stamp = none ∧ call.line ∈ ["st", "hello", "capabilities", "health"]) ∨
      ∃ stamp a c, call.stamp = some stamp ∧ t.CommandCall call stamp.ticket a c)
    (hqueue : ∀ q ∈ t.queuedDeviceCommands, q ∈ s.queuedDeviceCommands ∨
      t.Ticket q.ticket q.address q.command) : Ticketed t where
  calls call hcall := by
    rcases hcalls call hcall with hold | hnew
    · refine (h.calls call hold).imp_right ?_
      rintro ⟨stamp, a, c, hstamp, hc⟩
      exact ⟨stamp, a, c, hstamp, hc.mono ht⟩
    · exact hnew
  queue q hq := by
    rcases hqueue q hq with hold | hnew
    · exact (h.queue q hold).mono ht
    · exact hnew

/-- The calls of a transmission carry its ticket. -/
theorem transmit_calls {ticket : Nat} {a : String} {c : Command} {sent : Nat} {call : SendCall}
    (hs : Protocol.Sendable a c) (hticket : s.Ticket ticket a c)
    (h : call ∈ (s.transmit ticket a c sent).journal.sends) : call ∈ s.journal.sends ∨
      ∃ stamp, call.stamp = some stamp ∧ stamp.ticket = ticket ∧ s.CommandCall call ticket a c := by
  rcases List.mem_append.mp h with h | h
  · exact .inl h
  · obtain ⟨attempt, _, rfl⟩ := List.mem_map.mp h
    exact .inr ⟨_, rfl, rfl, hs, rfl, rfl, hticket⟩

theorem accept_ticket (a : String) (c : Command) :
    (s.accept a c).Ticket s.journal.accepted.length a c := by
  simp [Ticket, accept]

theorem mem_enqueue {q q' : QueuedCommand} (h : q' ∈ (s.enqueue q).queuedDeviceCommands) :
    q' ∈ s.queuedDeviceCommands ∨ q' = q := by
  unfold Bridge.enqueue at h
  split at h
  · next dropped rest hqueue =>
    rw [hqueue]
    split at h
    · rcases List.mem_append.mp h with h | h
      · exact .inl (List.mem_cons_of_mem _ h)
      · exact .inr (List.mem_singleton.mp h)
    · rcases List.mem_append.mp h with h | h
      · exact .inl h
      · exact .inr (List.mem_singleton.mp h)
  · exact .inr (List.mem_singleton.mp h)

/-- Every label keeps the tickets. -/
theorem Ticketed.apply (h : Ticketed s) (hs : Sound s) (hg : l.guard E s) :
    Ticketed (l.apply s) := by
  refine h.extend (accepted_mono l) (fun call hcall => ?_) fun q hq => ?_
  · cases l with
    | line text written =>
      rcases List.mem_append.mp hcall with hcall | hcall
      · exact .inl hcall
      · rw [List.mem_singleton.mp hcall]
        exact .inr (.inl ⟨rfl, hg⟩)
    | direct a c sent =>
      rcases transmit_calls hg.2.1 (accept_ticket a c) hcall with hold | ⟨stamp, hst, heq, hc⟩
      · exact .inl hold
      · exact .inr (.inr ⟨stamp, a, c, hst, heq ▸ hc⟩)
    | enqueue a c =>
      simp only [Label.apply, enqueue_sends] at hcall
      exact .inl hcall
    | resume sent =>
      obtain ⟨_, q, rest, hqueue, _⟩ := hg
      have hmem : q ∈ s.queuedDeviceCommands := by
        rw [hqueue]
        exact List.mem_cons_self
      have hcall' : call ∈ (s.transmit q.ticket q.address q.command sent).journal.sends := by
        simpa only [Label.apply, Bridge.resume, hqueue] using hcall
      rcases transmit_calls (hs.queue q hmem).2 (h.queue q hmem) hcall' with
        hold | ⟨stamp, hst, heq, hc⟩
      · exact .inl hold
      · refine .inr (.inr ⟨stamp, q.address, q.command, hst, heq ▸ hc.mono ?_⟩)
        exact accepted_mono (.resume sent)
    | mqtt connected => cases connected <;> exact .inl hcall
    | _ => exact .inl hcall
  · cases l with
    | enqueue a c =>
      rcases mem_enqueue hq with hold | rfl
      · exact .inl hold
      · refine .inr (Ticket.mono (accept_ticket a c) ?_)
        simp only [Label.apply, enqueue_accepted]
        exact List.prefix_rfl
    | resume sent =>
      obtain ⟨_, q', rest, hqueue, _⟩ := hg
      rw [Label.apply, resume_queue hqueue] at hq
      rw [hqueue]
      split at hq
      · exact .inl hq
      · exact .inl (List.mem_cons_of_mem _ hq)
    | mqtt connected => cases connected <;> exact .inl hq
    | _ => exact .inl hq

end Journal

/-! ## Steps -/

/-- The input brings the command for a device that supports it, in the tables of
the bridge and of the state manager, and whose house is allowed. -/
structure Issues (s : Bridge) (i : Input) (a : String) (c : Command) : Prop where
  command : s.inputCommand i = some (a, c)
  supported : c ∈ (s.deviceAt a).supportedCommands
  managed : c ∈ (s.state.deviceConfig a).supportedCommands
  allowed : s.state.addressAllowed a = true

section Steps
variable {E : Env} {s t : Bridge} {K : Label → Prop}

/-- An input that brings a command is a message. -/
theorem message_of_inputCommand {i : Input} {a : String} {c : Command}
    (h : s.inputCommand i = some (a, c)) :
    ∃ topic payload, i = .mqttMessage topic payload ∧
      s.messageCommand topic payload = some (a, c) := by
  cases i with
  | mqttMessage topic payload => exact ⟨topic, payload, rfl, h⟩
  | _ => simp [inputCommand] at h

theorem normalize_of_inputCommand {i : Input} {a : String} {c : Command}
    (h : s.inputCommand i = some (a, c)) : normalize a = a := by
  obtain ⟨topic, payload, rfl, hm⟩ := message_of_inputCommand h
  exact StateManager.normalize_of_isAddress (sendable_of_messageCommand hm).1

/-- A call that sends a device command comes from a message with this command. -/
theorem issues_of_stepCall (hs : Sound s) {now : Timestamp} {i : Input} {call : Call}
    (hcall : s.stepCall now i = some call) {a : String} {c : Command}
    (hsend : .sendDeviceCommand a c ∈ (s.state.call call).2) : s.Issues i a c := by
  obtain ⟨now', a', rfl, hna, hallowed, hmanaged⟩ := StateManager.sends_of_call hs.keyed hsend
  obtain ⟨hcommand, hsupported⟩ := command_of_stepCall hcall
  obtain rfl : a' = a := (normalize_of_inputCommand hcommand).symm.trans hna
  exact ⟨hcommand, hsupported, hmanaged, hallowed⟩

/-- A step accepts commands that its input brings. -/
theorem issues_of_label (hs : Sound s) {now : Timestamp} {i : Input} {l : Label}
    (h : StepLabel s now i l) : ∀ x ∈ l.accepts, s.Issues i x.1 x.2 := by
  intro x hx
  cases l with
  | direct a c sent | enqueue a c =>
    rw [List.mem_singleton.mp hx]
    obtain ⟨call, hcall, h | ⟨action, haction, rfl⟩⟩ := call_of_stepLabel h (by simp [callKinds, Label.kind])
    · exact Label.noConfusion h
    · exact issues_of_stepCall hs hcall haction
  | _ => exact absurd hx List.not_mem_nil

/-- A path adds the commands its labels accept. -/
theorem accepted_of_path {P : String × Command → Prop}
    (hK : ∀ l, K l → ∀ x ∈ l.accepts, P x) (h : Path (system E) K s t) :
    ∃ new, t.journal.accepted = s.journal.accepted ++ new ∧ ∀ x ∈ new, P x := by
  induction h with
  | refl => exact ⟨[], (List.append_nil _).symm, nofun⟩
  | @tail t l _ hl _ ih =>
    obtain ⟨new, hnew, hP⟩ := ih
    refine ⟨new ++ l.accepts, ?_, fun x hx => ?_⟩
    · rw [← List.append_assoc, ← hnew]
      exact apply_accepted l
    · rcases List.mem_append.mp hx with hx | hx
      · exact hP x hx
      · exact hK l hl x hx

theorem step_accepted (hs : Sound s) (i : Timestamp × Input) :
    ∃ new, (step E s i).journal.accepted = s.journal.accepted ++ new ∧
      ∀ x ∈ new, s.Issues i.2 x.1 x.2 :=
  accepted_of_path (P := fun x => s.Issues i.2 x.1 x.2) (fun _ => issues_of_label hs)
    (step_path hs i)

theorem step_sends (hs : Sound s) (i : Timestamp × Input) :
    s.journal.sends <+: (step E s i).journal.sends :=
  (step_path hs i).invariant (I := fun t => s.journal.sends <+: t.journal.sends)
    (fun l _ _ _ h => h.trans (apply_sends l)) List.prefix_rfl

theorem step_ticketed (hs : Sound s) (h : Ticketed s) (i : Timestamp × Input) :
    Ticketed (step E s i) :=
  hs.carries (step_path hs i) h fun _ _ _ hg hu ht => ht.apply hu hg

end Steps

/-! ## The text of a line -/

section Text
variable {a : String} {c : Command}

/-- The house of the address passes the house code filter of the configuration. -/
def Allows (config : Config) (a : String) : Prop :=
  ∀ codes, StateManager.normalizeHousecodes config.x10Housecodes = some codes →
    ∃ house unit, a.toList = house :: unit ∧ String.singleton house ∈ codes

theorem allows_of_addressAllowed {config : Config} {sm : StateManager} (ha : IsAddress a)
    (hcodes : sm.allowedHousecodes = StateManager.normalizeHousecodes config.x10Housecodes)
    (h : sm.addressAllowed a = true) : Allows config a := by
  intro codes hc
  rw [StateManager.addressAllowed, StateManager.normalize_of_isAddress ha] at h
  split at h
  · cases h
  · next house unit hlist =>
    refine ⟨house, unit, hlist, ?_⟩
    have hrange := range_of_matchesAddress ha house (by rw [hlist]; exact List.mem_cons_self)
    have hhouse : normalize (String.singleton house) = String.singleton house := by
      obtain ⟨hup, hsp⟩ := settled_of_range hrange
      rw [normalize, ← String.toList_inj, toList_upper, toList_strip, String.toList_singleton,
        trim_eq_self (by simp [hsp]) (by simp [hsp]), List.flatMap_singleton, hup]
    rw [StateManager.houseAllowed, hcodes, hc, hhouse] at h
    simpa using h

theorem suffix_of_encodes {suffix : String} (h : Protocol.encodeCommandMap c = some suffix) :
    suffix ∈ ["on", "off", "dim", "bright"] := by
  cases c <;> simp_all [Protocol.encodeCommandMap]

/-- A command line is one line. -/
theorem lineEnd_not_mem_commandLine (h : Protocol.Sendable a c) {e : Char}
    (he : e = '\r' ∨ e = '\n') : e ∉ (commandLine a c).toList := by
  obtain ⟨suffix, hs⟩ := Option.isSome_iff_exists.mp h.2
  have haddr : e ∉ a.toList := by
    intro hm
    have hrange := range_of_matchesAddress h.1 e hm
    rcases he with rfl | rfl <;> exact absurd hrange (by decide)
  have hsuffix : e ∉ suffix.toList := by
    have hmem := suffix_of_encodes hs
    simp only [List.mem_cons, List.not_mem_nil, or_false] at hmem
    rcases he with rfl | rfl <;> rcases hmem with rfl | rfl | rfl | rfl <;> decide
  have hfixed : e ∉ "rf ".toList ∧ e ∉ " ".toList := by
    rcases he with rfl | rfl <;> decide
  rw [commandLine, hs, Option.getD_some]
  simp only [String.toList_append, List.mem_append, not_or]
  exact ⟨⟨⟨hfixed.1, haddr⟩, hfixed.2⟩, hsuffix⟩

end Text

/-! ## Runs -/

section Runs
variable {E : Env} {s₀ s : Bridge} {ok : Bridge → Timestamp × Input → Prop}

theorem ticketed_of_reaches (h₀ : Sound s₀) (ht₀ : Ticketed s₀)
    (hr : Run.Reaches (step E) ok s₀ s) : Ticketed s :=
  hr.invariant_under (B := Sound) (reaches_sound h₀) ht₀
    fun _ i hs ht _ => step_ticketed hs ht i

theorem sends_of_reaches (h₀ : Sound s₀) (hr : Run.Reaches (step E) ok s₀ s) :
    s₀.journal.sends <+: s.journal.sends :=
  hr.invariant_under (B := Sound) (I := fun t => s₀.journal.sends <+: t.journal.sends)
    (reaches_sound h₀) List.prefix_rfl fun _ i hs h _ => h.trans (step_sends hs i)

/-- Every ticket was issued by a step of the run. -/
theorem accepted_of_reaches (h₀ : Sound s₀) (hnone : s₀.journal.accepted = [])
    (hr : Run.Reaches (step E) ok s₀ s) {ticket : Nat} {a : String} {c : Command}
    (h : s.Ticket ticket a c) : ∃ s' i, Run.Reaches (step E) ok s₀ s' ∧
      s'.journal.accepted.length ≤ ticket ∧ s'.Issues i.2 a c ∧
      Run.Reaches (step E) ok (step E s' i) s := by
  induction hr with
  | start =>
    rw [Ticket, hnone] at h
    cases h
  | @next s i hr hi ih =>
    obtain ⟨new, hnew, hissues⟩ := step_accepted (E := E) (reaches_sound h₀ hr) i
    by_cases hlt : ticket < s.journal.accepted.length
    · rw [Ticket, hnew, List.getElem?_append_left hlt] at h
      obtain ⟨s', j, hr', hle, hissue, hlater⟩ := ih h
      exact ⟨s', j, hr', hle, hissue, .next hlater hi⟩
    · rw [Ticket, hnew, List.getElem?_append_right (not_lt.mp hlt)] at h
      exact ⟨s, i, hr, not_lt.mp hlt, hissues _ (List.mem_of_getElem? h), .start⟩

end Runs

end Bridge

end MochadBridge
