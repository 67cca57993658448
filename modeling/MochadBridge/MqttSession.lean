import MochadBridge.StateRefinement

/-!
# Sessions of the MQTT client

paho calls `_on_connect` for every answer of the broker, also for one that refuses
the connection; the reason code tells the two apart. `_on_connect` takes the reason
code as one of its `*args` and reads none of them, while `_on_disconnect` reads its
own.

Results:
1. `hear_connected`, `hear_generation`: what a callback does to the connected flag
   and to the generation, which counts the calls of `mqtt_connected`.
2. `follows_iff`: both follow the accepted connections exactly where no connection
   is refused.
-/

namespace MochadBridge

open Py Effect

/-! ## Generations -/

namespace StateManager

variable {sm : StateManager}

/-- The call is `mqtt_connected`. -/
def connects : Call → Bool
  | .mqttConnected => true
  | _ => false

/-- The generation counts the calls of `mqtt_connected`. -/
theorem call_generation (hk : sm.Keyed) (c : Call) :
    (sm.call c).1.mqttGeneration = sm.mqttGeneration + if connects c then 1 else 0 := by
  cases c with
  | apply now event =>
    have h := (apply_performs hk now event).session.generation
    simpa only [call, connects, Bool.false_eq_true, if_false, Nat.add_zero] using h
  | optimisticUpdate now a c =>
    obtain ⟨_, _, h⟩ := optimisticUpdate_callEffect hk now a c
    simpa only [call, connects, Bool.false_eq_true, if_false, Nat.add_zero] using h.session.generation
  | mqttConnected | mqttDisconnected | mochadConnected | mochadDisconnected => rfl

end StateManager

namespace Bridge

variable {E : Env} {s : Bridge}

/-! ## What paho reports -/

/-- The input is neither a connection change of MQTT nor a turn of the polling
loop, which has its own thread. -/
def Input.aside : Input → Bool
  | .mqttConnected | .mqttDisconnected | .poll .. => false
  | _ => true

/-- What paho reports of the connection, with the reason code, which is `0` for
success; and anything else that the bridge hears in between. -/
inductive Notice where
  | onConnect (reasonCode : Nat)
  | onDisconnect (reasonCode : Option Nat)
  | other (i : Input) (h : i.aside = true)

/-- The callback of the client: `_on_connect` reads none of its `*args`. -/
def Notice.input : Notice → Input
  | .onConnect _ => .mqttConnected
  | .onDisconnect _ => .mqttDisconnected
  | .other i _ => i

/-- The bridge after a callback. -/
def hear (E : Env) (s : Bridge) (n : Timestamp × Notice) : Bridge := step E s (n.1, n.2.input)

/-- The broker accepts the connection. -/
def Notice.accepted : Notice → Bool
  | .onConnect reasonCode => reasonCode == 0
  | _ => false

/-- The broker refuses the connection. -/
def Notice.refused : Notice → Bool
  | .onConnect reasonCode => reasonCode != 0
  | _ => false

/-- Whether the last accepted connection has not ended yet. -/
def sessionOpen (notices : List (Timestamp × Notice)) : Bool :=
  notices.foldl (fun isOpen n => match n.2 with
    | .onConnect reasonCode => isOpen || reasonCode == 0
    | .onDisconnect _ => false
    | .other .. => isOpen) false

/-- The client counts as connected only while a session is open, and `mqtt_connected`
has been called once for every connection that was accepted. -/
structure Follows (E : Env) (s₀ : Bridge) (notices : List (Timestamp × Notice)) : Prop where
  connected : (Run.exec (hear E) s₀ notices).mqtt.connected = true → sessionOpen notices = true
  generation : (Run.exec (hear E) s₀ notices).state.mqttGeneration =
    s₀.state.mqttGeneration + notices.countP fun n => n.2.accepted

/-! ## Callbacks -/

theorem apply_crashed {l : Label} (h : l.kind ≠ .crashed) : (l.apply s).crashed = s.crashed := by
  cases l with
  | crashed => exact absurd rfl h
  | mqtt connected => cases connected <;> rfl
  | enqueue a c =>
    simp only [Label.apply, Bridge.enqueue]
    split
    · split <;> rfl
    · rfl
  | resume sent =>
    simp only [Label.apply, Bridge.resume]
    split <;> rfl
  | _ => rfl

/-- Only a turn of the polling loop crashes. -/
theorem polls_of_crashed {i : Input} (h : .crashed ∈ s.inputKinds i) : i.polls = true := by
  cases i with
  | poll => rfl
  | mqttMessage topic payload => exact absurd (kind_of_message h) (by decide)
  | mochadLine line =>
    simp only [inputKinds] at h
    split at h <;> exact absurd h (by decide)
  | _ => exact absurd h (by simp [inputKinds])

theorem polls_of_notice (n : Notice) : n.input.polls = false := by
  cases n with
  | other i hi =>
    cases i with
    | poll => exact absurd hi (by simp [Input.aside])
    | _ => rfl
  | _ => rfl

theorem hear_crashed (h : Sound s) (hlive : s.crashed = false) (n : Timestamp × Notice) :
    (hear E s n).crashed = false := by
  refine (((step_path h (n.1, n.2.input)).frame crashed fun l u hl _ => ?_)).trans hlive
  refine apply_crashed fun hk => ?_
  cases l with
  | crashed =>
    rcases hl with hl | ⟨c, _, hl | ⟨x, _, hl⟩⟩
    · exact absurd (polls_of_crashed hl) (by rw [polls_of_notice]; exact Bool.false_ne_true)
    · exact Label.noConfusion hl
    · exact hl
  | _ => exact absurd hk (by simp [Label.kind])

/-- The labels of a call leave the connected flag alone. -/
theorem callLabel_not_mqtt {l : Label} {c : Call} (h : s.CallLabel c l) : l.kind ≠ .mqtt := by
  rcases h with rfl | ⟨x, _, hof⟩
  · simp [Label.kind]
  · intro hk
    have hkinds := kind_of_of hof
    rw [hk] at hkinds
    exact absurd hkinds (by decide)

/-- What a callback does to the connected flag. -/
theorem hear_connected (h : Sound s) (hlive : s.crashed = false) (n : Timestamp × Notice) :
    (hear E s n).mqtt.connected = match n.2 with
      | .onConnect _ => true
      | .onDisconnect _ => false
      | .other .. => s.mqtt.connected := by
  obtain ⟨now, n⟩ := n
  cases n with
  | onConnect reasonCode =>
    have hlink : Sound ((Label.mqtt true).apply s) := h.apply (E := E) trivial
    have hrun : hear E s (now, .onConnect reasonCode) =
        (exec (onMqttConnected E now) ((Label.mqtt true).apply s)).2 := by
      rw [hear, Notice.input, step_callback hlive rfl, callback, onConnect,
        exec_bind_ok _ _ _ (exec_modify _ _)]
      rfl
    rw [hrun]
    refine ((onMqttConnected_takes hlink now).frame (fun u => u.mqtt.connected) fun l u hl _ => ?_)
    refine apply_connected ?_
    rcases hl with hl | hl
    · exact callLabel_not_mqtt hl
    · intro hk
      rw [Kinds, hk] at hl
      exact absurd hl (by decide)
  | onDisconnect reasonCode =>
    have hlink : Sound ((Label.mqtt false).apply s) := h.apply (E := E) trivial
    rw [hear, Notice.input, step_callback hlive rfl, callback, exec_onDisconnect]
    split
    · rfl
    · have hpath := notify_takes (E := E) now hlink (c := .mqttDisconnected) trivial fun _ => rfl
      exact hpath.frame (fun u => u.mqtt.connected) fun l u hl _ =>
        apply_connected (callLabel_not_mqtt hl)
  | other i hi =>
    refine (step_path h (now, i)).frame (fun u => u.mqtt.connected) fun l u hl _ => ?_
    refine apply_connected fun hk => ?_
    cases l with
    | mqtt connected =>
      have hinput : i = if connected then .mqttConnected else .mqttDisconnected := hl
      rw [hinput] at hi
      cases connected <;> exact absurd hi (by simp [Input.aside])
    | _ => exact absurd hk (by simp [Label.kind])

/-- Only a new connection calls `mqtt_connected`. -/
theorem not_connects_of_stepCall {now : Timestamp} {i : Input} {c : Call}
    (h : s.stepCall now i = some c) (hi : i ≠ .mqttConnected) :
    StateManager.connects c = false := by
  cases c with
  | mqttConnected => exact absurd (mqttConnected_of_stepCall h) hi
  | _ => rfl

theorem hear_generation (h : Sound s) (hlive : s.crashed = false) (n : Timestamp × Notice) :
    (hear E s n).state.mqttGeneration = s.state.mqttGeneration + match n.2 with
      | .onConnect _ => 1
      | _ => 0 := by
  obtain ⟨now, n⟩ := n
  rw [hear, step_state h hlive]
  cases hc : s.stepCall now n.input with
  | none =>
    cases n with
    | onConnect reasonCode => exact absurd hc (by simp [Notice.input, stepCall])
    | _ => rfl
  | some c =>
    dsimp only
    rw [StateManager.call_generation h.keyed]
    congr 1
    cases n with
    | onConnect reasonCode =>
      rw [← Option.some.inj hc]
      rfl
    | onDisconnect reasonCode =>
      have hother := not_connects_of_stepCall hc Input.noConfusion
      simp only [hother, Bool.false_eq_true, if_false]
    | other i hi =>
      have hother := not_connects_of_stepCall hc fun (heq : i = _) => by
        rw [heq] at hi
        exact absurd hi (by simp [Input.aside])
      simp only [hother, Bool.false_eq_true, if_false]

/-! ## Runs -/

/-- A notice is an accepted connection, a refused one, or no connection. -/
theorem hear_accepted (n : Notice) (h : n.refused = false) :
    (match n with | .onConnect _ => 1 | _ => 0) = if n.accepted then 1 else 0 := by
  cases n with
  | onConnect reasonCode =>
    have hzero : reasonCode = 0 := by simpa [Notice.refused] using h
    rw [hzero]
    rfl
  | _ => rfl

/-- A run of callbacks stays sound, and does not crash. -/
theorem hear_run (h : Sound s) (hlive : s.crashed = false) (notices : List (Timestamp × Notice)) :
    Sound (Run.exec (hear E) s notices) ∧ (Run.exec (hear E) s notices).crashed = false := by
  induction notices generalizing s with
  | nil => exact ⟨h, hlive⟩
  | cons n notices ih => exact ih (step_sound h _) (hear_crashed h hlive n)

/-- While no connection is refused, the flag is that of the session, and the
generation counts the accepted connections. -/
theorem follows_of_accepted (h : Sound s) (hlive : s.crashed = false)
    (hoff : s.mqtt.connected = false) {notices : List (Timestamp × Notice)}
    (hall : ∀ n ∈ notices, n.2.refused = false) :
    (Run.exec (hear E) s notices).mqtt.connected = sessionOpen notices ∧
      (Run.exec (hear E) s notices).state.mqttGeneration =
        s.state.mqttGeneration + notices.countP fun n => n.2.accepted := by
  induction notices using List.reverseRecOn with
  | nil => exact ⟨hoff, rfl⟩
  | append_singleton notices n ih =>
    obtain ⟨hconnected, hgeneration⟩ := ih fun m hm => hall m (List.mem_append_left _ hm)
    have hn := hall n (List.mem_append_right _ List.mem_cons_self)
    obtain ⟨hsound, hrunning⟩ := hear_run (E := E) h hlive notices
    rw [Run.exec_concat]
    constructor
    · rw [hear_connected hsound hrunning, sessionOpen, List.foldl_append]
      obtain ⟨now, n⟩ := n
      cases n with
      | onConnect reasonCode =>
        have hzero : reasonCode = 0 := by simpa [Notice.refused] using hn
        simp [hzero]
      | onDisconnect reasonCode => rfl
      | other i hi => exact hconnected
    · rw [hear_generation hsound hrunning, hgeneration, hear_accepted n.2 hn, List.countP_append,
        List.countP_singleton, Nat.add_assoc]

/-- Flag and generation follow the accepted connections, whatever else the bridge
hears, exactly where the broker refuses no connection. -/
theorem follows_iff {config : Config} {signature : Option (Int × Nat)} {monotonic : Nat}
    {registry : RegistryFile} {s₀ : Bridge}
    (h₀ : init E config signature monotonic registry = .ok s₀)
    (notices : List (Timestamp × Notice)) :
    (∀ pre, pre <+: notices → Follows E s₀ pre) ↔ ∀ n ∈ notices, n.2.refused = false := by
  have hsound := init_sound h₀
  obtain ⟨hlive, hoff⟩ : s₀.crashed = false ∧ s₀.mqtt.connected = false := by
    obtain ⟨_, file, rfl⟩ := init_ok h₀
    exact ⟨rfl, rfl⟩
  constructor
  · intro hfollows n hn
    obtain ⟨pre, post, rfl⟩ := List.append_of_mem hn
    have hbefore := (hfollows pre (List.prefix_append _ _)).generation
    have hafter := (hfollows (pre ++ [n]) ⟨post, by simp⟩).generation
    obtain ⟨hsound', hrunning⟩ := hear_run (E := E) hsound hlive pre
    rw [Run.exec_concat, hear_generation hsound' hrunning, hbefore, List.countP_append,
      List.countP_singleton] at hafter
    obtain ⟨now, n⟩ := n
    cases n with
    | onConnect reasonCode =>
      have hone : (if (Notice.onConnect reasonCode).accepted then 1 else 0) = 1 := by
        dsimp only at hafter
        omega
      cases reasonCode with
      | zero => rfl
      | succ k => exact absurd hone (by simp [Notice.accepted])
    | _ => rfl
  · rintro hall pre ⟨post, rfl⟩
    have hpre : ∀ n ∈ pre, n.2.refused = false := fun n hn => hall n (List.mem_append_left _ hn)
    obtain ⟨hconnected, hgeneration⟩ := follows_of_accepted (E := E) hsound hlive hoff hpre
    exact ⟨fun hconn => hconnected.symm.trans hconn, hgeneration⟩

/-- A broker that accepts, drops and accepts the connection again is followed. -/
theorem follows_reconnect : ∃ s₀, init {} (.plain "A1:Lamp") none 0 .absent = .ok s₀ ∧
    ∀ pre, pre <+: [(1, .onConnect 0), (2, .onDisconnect (some 7)), (3, .onConnect 0)] →
      Follows {} s₀ pre := by
  have hinit : (init {} (.plain "A1:Lamp") none 0 .absent).map (fun _ => ()) = .ok () := by
    decide +kernel
  obtain ⟨s₀, h₀, _⟩ := map_ok hinit
  exact ⟨s₀, h₀, (follows_iff h₀ _).mpr (by decide)⟩

/-- A broker that knows the user not counts as connected. -/
theorem refused_connected : ∃ s₀, init {} (.plain "A1:Lamp") none 0 .absent = .ok s₀ ∧
    (Run.exec (hear {}) s₀ [(1, .onConnect 135)]).mqtt.connected = true ∧
    ¬ ∀ pre, pre <+: [(1, .onConnect 135)] → Follows {} s₀ pre := by
  have hinit : (init {} (.plain "A1:Lamp") none 0 .absent).map (fun s₀ => s₀.crashed) =
      .ok false := by
    decide +kernel
  obtain ⟨s₀, h₀, hlive⟩ := map_ok hinit
  have hconnected : (Run.exec (hear {}) s₀ [(1, .onConnect 135)]).mqtt.connected = true :=
    hear_connected (init_sound h₀) hlive (1, .onConnect 135)
  refine ⟨s₀, h₀, hconnected, fun h => ?_⟩
  exact absurd ((h _ (List.prefix_refl _)).connected hconnected) (by decide)

end Bridge

end MochadBridge
