import MochadBridge.BridgeSteps
import MochadBridge.LastWriterWins

/-!
# The state manager of the bridge

Executing actions leaves the state manager alone. So what a run of the bridge does
to it is the run of the calls that the inputs bring, and what is proved of every
sequence of calls holds of the state manager in every run.

Results:
1. `step_state`: a step makes the call of its input, and no other.
2. `run_state`: a run makes the calls of its inputs, in their order.
-/

namespace MochadBridge

open Py Effect

namespace Bridge

variable {E : Env} {s : Bridge} {now : Timestamp}

/-! ## Actions -/

/-- Executing actions leaves the state manager alone. -/
theorem executeActions_state {actions : List BridgeAction}
    (h : ∀ x ∈ actions, s.state.Concerns x) :
    (exec (executeActions E now actions) s).2.state = s.state := by
  have hrun := executeActions_takes (E := E) now h
  refine state_of_path (fun l hl => ?_) hrun
  obtain ⟨x, _, hof⟩ := hl
  exact call_not_of hof

theorem notify_state (h : Sound s) {c : Call} (hc : c.FromBridge)
    {n : StateManager → StateManager × List BridgeAction}
    (hn : ∀ sm : StateManager, n sm = sm.call c) :
    (exec (notify E now n) s).2.state = (s.state.call c).1 := by
  have hrun : exec (notify E now n) s =
      exec (executeActions E now (s.state.call c).2) { s with state := (s.state.call c).1 } := by
    simp only [notify, exec_bind, exec_get, exec_set, hn]
  have hconcerns := StateManager.call_concerns h.keyed hc
  rw [hrun]
  generalize s.state.call c = r at hconcerns ⊢
  exact executeActions_state (s := { s with state := r.1 }) hconcerns

/-! ## Steps -/

theorem not_call_of_kinds {ks : List Kind} (h : decide (.call ∉ ks) = true) (l : Label)
    (hl : Kinds ks l) : l.kind ≠ .call := by
  intro hk
  rw [Kinds, hk] at hl
  exact of_decide_eq_true h hl

/-- What follows a call without another one leaves the state manager alone. -/
theorem bind_state {α β : Type} {p : BridgeM α} {f : α → BridgeM β} {K : Label → Prop}
    (hf : ∀ a t, exec p s = (.ok a, t) → Takes (system E) K (f a) t)
    (hK : ∀ l, K l → l.kind ≠ .call) :
    (exec (p >>= f) s).2.state = (exec p s).2.state := by
  rw [exec_bind]
  match h : exec p s with
  | (.ok a, t) => exact state_of_path hK (hf a t h)
  | (.error e, t) => rfl

theorem onMqttConnected_state (h : Sound s) :
    (exec (onMqttConnected E now) s).2.state = (s.state.call .mqttConnected).1 := by
  have hnotify : (exec (notify E now StateManager.onMqttConnected) s).2.state =
      (s.state.call .mqttConnected).1 :=
    notify_state h (c := .mqttConnected) trivial fun _ => rfl
  have hrest : ∀ t, Takes (system E) (Kinds [.config, .registry, .clear]) (do
      publishBridgeDiagnosticDiscovery
      let _ ← runDiscoveryCleanup E false) t := fun t => by
    refine .bind (publishBridgeDiagnosticDiscovery_does.mono (subset_of_all rfl)) fun _ _ _ => ?_
    exact .bind ((runDiscoveryCleanup_does false).mono (subset_of_all rfl)) fun _ _ _ => .refl
  rw [← hnotify]
  exact bind_state (fun _ t _ => hrest t) (not_call_of_kinds rfl)

theorem onMochadConnected_state (h : Sound s) :
    (exec (onMochadConnected E now) s).2.state = (s.state.call .mochadConnected).1 := by
  have hnotify : (exec (notify E now StateManager.onMochadConnected) s).2.state =
      (s.state.call .mochadConnected).1 :=
    notify_state h (c := .mochadConnected) trivial fun _ => rfl
  have hrest : ∀ t, Takes (system E) (Kinds [.line])
      (requestMochadDiagnostics E now ["hello", "capabilities", "health"]) t := fun t =>
    requestMochadDiagnostics_does now fun c hc => hc
  rw [← hnotify]
  exact bind_state (fun _ t _ => hrest t) (not_call_of_kinds rfl)

/-- A step that makes a call does to the state manager what the call does. -/
theorem step_state_of_call (h : Sound s) (hlive : s.crashed = false) {i : Input} {c : Call}
    (hc : s.stepCall now i = some c) : (step E s (now, i)).state = (s.state.call c).1 := by
  have hfrom := fromBridge_of_stepCall h hc
  cases i with
  | mqttMessage topic payload =>
    simp only [stepCall] at hc
    obtain ⟨⟨a, command⟩, hm, hc⟩ := Option.bind_eq_some_iff.mp hc
    split at hc
    · next hsupported =>
      rw [← Option.some.inj hc] at hfrom ⊢
      have hconcerns := StateManager.call_concerns h.keyed hfrom
      rw [step_callback hlive rfl, callback, exec_onMessage_command h now hm hsupported]
      generalize s.state.call (.optimisticUpdate now a command) = r at hconcerns ⊢
      exact executeActions_state (s := { s.withDevice a with state := r.1 }) hconcerns
    · exact absurd hc (by simp)
  | mqttConnected =>
    have hlink : Sound ((Label.mqtt true).apply s) := h.apply (E := E) trivial
    have hrun : exec (onConnect E now) s =
        exec (onMqttConnected E now) ((Label.mqtt true).apply s) := by
      rw [onConnect, exec_bind_ok _ _ _ (exec_modify _ _)]
      rfl
    rw [← Option.some.inj hc, step_callback hlive rfl, callback, hrun, onMqttConnected_state hlink]
    rfl
  | mqttDisconnected =>
    simp only [stepCall] at hc
    split at hc
    · exact absurd hc (by simp)
    · next hruns =>
      have hlink : Sound ((Label.mqtt false).apply s) := h.apply (E := E) trivial
      rw [← Option.some.inj hc, step_callback hlive rfl, callback, exec_onDisconnect, if_neg hruns,
        notify_state hlink (n := StateManager.onMqttDisconnected) (c := .mqttDisconnected) trivial fun _ => rfl]
      rfl
  | mochadConnected =>
    simp only [stepCall] at hc
    split at hc
    · exact absurd hc (by simp)
    · next hruns =>
      have hlink : Sound ((Label.mochad true).apply s) := h.apply (E := E) trivial
      have hrun : exec (connect E now) s =
          exec (onMochadConnected E now) ((Label.mochad true).apply s) := by
        rw [connect, exec_bind, exec_get]
        dsimp only
        rw [if_neg hruns, exec_bind_ok _ _ _ (exec_modify _ _)]
        rfl
      rw [← Option.some.inj hc, step_callback hlive rfl, callback, hrun,
        onMochadConnected_state hlink]
      rfl
  | mochadDisconnected =>
    have hlink : Sound (s.unlinked now) := h.path (unlinked_path (E := E) now)
    rw [← Option.some.inj hc, step_callback hlive rfl, callback, exec_disconnect,
      notify_state hlink (n := StateManager.onMochadDisconnected) (c := .mochadDisconnected) trivial
        fun _ => rfl]
    rfl
  | mochadLine line =>
    simp only [stepCall] at hc
    split at hc
    · exact absurd hc (by simp)
    · next hd =>
      have hd' : lineDiagnostic line = none := by simpa using hd
      rw [step_callback hlive rfl, callback, exec_onMochadLine now hd']
      cases hp : s.parser.parseLine now (stripChars ['\r', '\n'] line) with
      | error e =>
        rw [hp] at hc
        exact absurd hc (by simp [Except.toOption])
      | ok r =>
        rw [hp] at hc
        rw [← Option.some.inj hc] at hfrom ⊢
        have hconcerns := StateManager.call_concerns h.keyed hfrom
        dsimp only
        generalize s.state.call (.apply now r.1) = r' at hconcerns ⊢
        exact executeActions_state (s := { s with parser := r.2, state := r'.1 }) hconcerns
  | poll | stop => exact absurd hc (by simp [stepCall])

/-- A step makes the call of its input, and no other. -/
theorem step_state (h : Sound s) (hlive : s.crashed = false) (i : Timestamp × Input) :
    (step E s i).state =
      match s.stepCall i.1 i.2 with
      | some c => (s.state.call c).1
      | none => s.state := by
  cases hc : s.stepCall i.1 i.2 with
  | some c => exact step_state_of_call h hlive hc
  | none =>
    refine state_of_path (fun l hl hk => ?_) (step_path h i)
    obtain ⟨c, hcall, _⟩ := call_of_stepLabel hl (by rw [hk]; decide)
    rw [hc] at hcall
    exact absurd hcall (by simp)

/-! ## Runs -/

/-- The calls that a run makes; a bridge that has crashed makes none. -/
def callsMade (E : Env) (s : Bridge) : List (Timestamp × Input) → List Call
  | [] => []
  | i :: inputs =>
    (if s.crashed then [] else (s.stepCall i.1 i.2).toList) ++ callsMade E (step E s i) inputs

/-- What a run does to the state manager is the run of the calls it makes. -/
theorem run_state (h : Sound s) (inputs : List (Timestamp × Input)) :
    (Run.exec (step E) s inputs).state = s.state.run (callsMade E s inputs) := by
  induction inputs generalizing s with
  | nil => rfl
  | cons i inputs ih =>
    have hrest : (Run.exec (step E) s (i :: inputs)).state =
        (step E s i).state.run (callsMade E (step E s i) inputs) := ih (step_sound h i)
    rw [hrest, callsMade]
    cases hcrashed : s.crashed with
    | true =>
      rw [step, if_pos hcrashed]
      rfl
    | false =>
      rw [step_state h hcrashed]
      cases s.stepCall i.1 i.2 <;> rfl

end Bridge

end MochadBridge
