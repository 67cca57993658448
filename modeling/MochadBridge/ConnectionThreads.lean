import MochadBridge.StatePayloads

/-!
# Two threads of connection changes

paho calls the bridge from its network thread, the mochad client from its reader
thread. The lock of the `StateManager` makes a call of either thread one step; the
actions that the call returns are executed later, one after the other, and the other
thread may come in between.

Results:
1. `hear_alone`: a thread that is left alone takes the bridge where the callback of
   the change, run to completion, takes it.
2. `Fresh.move`: what a move keeps while no call overtakes an availability payload
   that the other thread has yet to publish and that it makes wrong.
3. `availability_converges`: in runs of such moves the last availability published is
   the one of the state manager whenever both threads are done and the client is
   connected.
4. `untimely_diverges`: where another move could come first, the run can go on to a
   topic that is wrong for good.
-/

namespace MochadBridge

open Py Effect

/-! ## Threads -/

/-- The threads that hear of connections. -/
inductive Thread where
  | mqtt
  | mochad
  deriving DecidableEq

/-- The other thread. -/
def Thread.other : Thread → Thread
  | .mqtt => .mochad
  | .mochad => .mqtt

@[simp] theorem Thread.other_other (T : Thread) : T.other.other = T := by cases T <;> rfl

theorem Thread.other_ne (T : Thread) : T.other ≠ T := by cases T <;> exact Thread.noConfusion

theorem Thread.eq_other {T T' : Thread} (h : T' ≠ T) : T' = T.other := by
  cases T <;> cases T' <;> first | rfl | exact absurd rfl h

/-- What happens to a connection. -/
inductive Change where
  | mqttConnected
  | mqttDisconnected
  | mochadConnected
  | mochadDisconnected
  deriving DecidableEq

namespace Change

/-- The thread that hears of it. -/
def thread : Change → Thread
  | .mqttConnected | .mqttDisconnected => .mqtt
  | .mochadConnected | .mochadDisconnected => .mochad

/-- The call of the state manager. -/
def call : Change → Call
  | .mqttConnected => .mqttConnected
  | .mqttDisconnected => .mqttDisconnected
  | .mochadConnected => .mochadConnected
  | .mochadDisconnected => .mochadDisconnected

/-- The input of the bridge that runs a callback to completion. -/
def input : Change → Bridge.Input
  | .mqttConnected => .mqttConnected
  | .mqttDisconnected => .mqttDisconnected
  | .mochadConnected => .mochadConnected
  | .mochadDisconnected => .mochadDisconnected

end Change

/-- A step that a thread has yet to take: its transport notes the change, the state
manager is called, an action is executed, the callback goes on after its actions. -/
inductive Task where
  | transport (now : Timestamp) (change : Change)
  | call (now : Timestamp) (change : Change)
  | act (now : Timestamp) (action : BridgeAction)
  | finish (now : Timestamp) (change : Change)

deriving instance DecidableEq for Task

/-- The task is an action. -/
def Task.isAct : Task → Bool
  | .act .. => true
  | _ => false

section Env
variable (env : Env)

/-- The transport's part of a callback. `True` if the bridge hears of the change. -/
def Change.note (now : Timestamp) : Change → BridgeM Bool
  | .mqttConnected => do
    modify fun s => { s with mqtt := { s.mqtt with connected := true } }.emit .session
    return true
  | .mqttDisconnected => do
    modify fun s => { s with mqtt := { s.mqtt with connected := false } }
    let s ← get
    return !s.stopping
  | .mochadConnected => do
    let s ← get
    if s.stopping then return false
    else
      modify fun s => { s with mochad := { s.mochad with connected := true } }
      return true
  | .mochadDisconnected => do
    modify fun s => { s with mochad := { s.mochad with connected := false } }
    modify fun s => { s with mochadDiagnostics := { s.mochadDiagnostics with
      usbConnected := .null
      endpointsReady := .null
      transfersReady := .null
      lastUpdated := some now } }
    return true

/-- What a callback does after its actions. -/
def Change.finish (now : Timestamp) : Change → BridgeM Unit
  | .mqttConnected => do
    Bridge.publishBridgeDiagnosticDiscovery
    let _ ← Bridge.runDiscoveryCleanup env false
  | .mochadConnected =>
    Bridge.requestMochadDiagnostics env now ["hello", "capabilities", "health"]
  | .mqttDisconnected | .mochadDisconnected => pure ()

/-- Take the first task of a thread; the tasks that are left. A send that fails ends
the actions. -/
def Task.run (rest : List Task) : Task → BridgeM (List Task)
  | .transport now change => do
    let heard ← change.note now
    return if heard then rest else []
  | .call now change => do
    let s ← get
    let (sm, actions) := s.state.call change.call
    set { s with state := sm }
    return actions.map (.act now) ++ rest
  | .act now action => do
    let goOn ← Bridge.attempt env now action
    return if goOn then rest else rest.dropWhile Task.isAct
  | .finish now change => do
    change.finish env now
    return rest

/-- The bridge, and what each thread has yet to do. -/
structure Threads where
  bridge : Bridge
  tasks : Thread → List Task

/-- A thread hears of a change when it has nothing else to do, or takes a step. -/
inductive Move where
  | hear (now : Timestamp) (change : Change)
  | work (T : Thread)

/-- The thread that moves. -/
def Move.thread : Move → Thread
  | .hear _ change => change.thread
  | .work T => T

namespace Threads

/-- The tasks of one thread are replaced. -/
def withTasks (m : Threads) (T : Thread) (s : Bridge) (tasks : List Task) : Threads :=
  { bridge := s, tasks := Function.update m.tasks T tasks }

/-- One move. An exception ends the callback; the client logs it. -/
def move (m : Threads) : Move → Threads
  | .hear now change =>
    match m.tasks change.thread with
    | [] => m.withTasks change.thread m.bridge
      [.transport now change, .call now change, .finish now change]
    | _ :: _ => m
  | .work T =>
    match m.tasks T with
    | [] => m
    | task :: rest =>
      match exec (task.run env rest) m.bridge with
      | (.ok tasks, s) => m.withTasks T s tasks
      | (.error _, s) => m.withTasks T s []

end Threads

end Env

/-! ## A thread that is left alone -/

namespace Threads

variable {E : Env} {m : Threads} {T : Thread} {s t : Bridge} {task : Task} {rest tasks : List Task}

@[simp] theorem withTasks_bridge : (m.withTasks T s tasks).bridge = s := rfl

@[simp] theorem withTasks_tasks : (m.withTasks T s tasks).tasks T = tasks :=
  Function.update_self (β := fun _ => List Task) T tasks m.tasks

@[simp] theorem withTasks_withTasks :
    (m.withTasks T s tasks).withTasks T t rest = m.withTasks T t rest := by
  simp only [withTasks, Function.update_idem]

theorem withTasks_self (h : m.tasks T = tasks) : m.withTasks T s tasks = { m with bridge := s } := by
  rw [withTasks, ← h, Function.update_eq_self]

theorem move_work_ok (h : m.tasks T = task :: rest)
    (hexec : exec (task.run E rest) m.bridge = (.ok tasks, t)) :
    m.move E (.work T) = m.withTasks T t tasks := by
  simp only [move, h, hexec]

theorem move_work_error (h : m.tasks T = task :: rest) {e : PyError}
    (hexec : exec (task.run E rest) m.bridge = (.error e, t)) :
    m.move E (.work T) = m.withTasks T t [] := by
  simp only [move, h, hexec]

/-- A move leaves the tasks of the other thread alone. -/
theorem move_tasks_other {i : Move} {T' : Thread} (h : T' ≠ i.thread) :
    (m.move E i).tasks T' = m.tasks T' := by
  cases i with
  | hear now c =>
    simp only [move]
    split
    · exact Function.update_of_ne (β := fun _ => List Task) h _ _
    · rfl
  | work T =>
    simp only [move]
    split
    · rfl
    · split <;> exact Function.update_of_ne (β := fun _ => List Task) h _ _

/-- A thread with these tasks that is left alone is done in the end, and leaves `t`. -/
def Drains (E : Env) (s : Bridge) (tasks : List Task) (t : Bridge) : Prop :=
  ∃ n, ∀ m T, Run.exec (move E) (withTasks m T s tasks) (List.replicate n (.work T)) =
    withTasks m T t []

theorem Drains.nil : Drains E s [] s := ⟨0, fun _ _ => rfl⟩

theorem Drains.step (hexec : exec (task.run E rest) s = (.ok tasks, t)) {u : Bridge}
    (h : Drains E t tasks u) : Drains E s (task :: rest) u := by
  obtain ⟨n, hn⟩ := h
  refine ⟨n + 1, fun m T => ?_⟩
  rw [List.replicate_succ, Run.exec, List.foldl_cons, move_work_ok withTasks_tasks hexec,
    withTasks_withTasks]
  exact hn m T

theorem Drains.raise {e : PyError} (hexec : exec (task.run E rest) s = (.error e, t)) :
    Drains E s (task :: rest) t := by
  refine ⟨1, fun m T => ?_⟩
  rw [List.replicate_one, Run.exec, List.foldl_cons, move_work_error withTasks_tasks hexec,
    withTasks_withTasks]
  rfl

theorem drains_finish (now : Timestamp) (c : Change) :
    Drains E s [.finish now c] (exec (c.finish E now) s).2 := by
  cases h : exec (c.finish E now) s with
  | mk result t =>
    cases result with
    | error e => exact .raise (by rw [Task.run, exec_bind_error _ _ _ h])
    | ok u => exact .step (by rw [Task.run, exec_bind_ok _ _ _ h]; rfl) .nil

theorem dropWhile_actions (now : Timestamp) (c : Change) (actions : List BridgeAction) :
    (actions.map (Task.act now) ++ [Task.finish now c]).dropWhile Task.isAct =
      [.finish now c] := by
  induction actions with
  | nil => rfl
  | cons x actions ih => exact ih

/-- The actions of a callback, one by one, and what follows them. -/
theorem drains_actions (now : Timestamp) (c : Change) (actions : List BridgeAction) :
    Drains E s (actions.map (.act now) ++ [.finish now c])
      (exec (Bridge.executeActions E now actions >>= fun _ => c.finish E now) s).2 := by
  induction actions generalizing s with
  | nil => exact drains_finish now c
  | cons x actions ih =>
    rw [List.map_cons, List.cons_append, Bridge.executeActions_cons]
    cases h : exec (Bridge.attempt E now x) s with
    | mk result t =>
      cases result with
      | error e =>
        rw [exec_bind_error _ _ _ (exec_bind_error _ _ _ h)]
        exact .raise (by rw [Task.run, exec_bind_error _ _ _ h])
      | ok goOn =>
        rw [exec_bind, exec_bind_ok _ _ _ h, ← exec_bind]
        cases goOn with
        | true => exact .step (by rw [Task.run, exec_bind_ok _ _ _ h]; rfl) ih
        | false =>
          have hfinish := drains_finish (E := E) (s := t) now c
          refine .step ?_ hfinish
          rw [Task.run, exec_bind_ok _ _ _ h]
          simp only [Bool.false_eq_true, if_false, dropWhile_actions, exec_pure]

theorem exec_call (now : Timestamp) (c : Change) :
    exec (Task.run E rest (.call now c)) s =
      (.ok ((s.state.call c.call).2.map (.act now) ++ rest),
        { s with state := (s.state.call c.call).1 }) := rfl

theorem exec_notify (now : Timestamp) {c : Call}
    {notification : StateManager → StateManager × List BridgeAction}
    (hn : ∀ sm : StateManager, notification sm = sm.call c) (next : Unit → BridgeM Unit) :
    exec (Bridge.notify E now notification >>= next) s =
      exec (Bridge.executeActions E now (s.state.call c).2 >>= next)
        { s with state := (s.state.call c).1 } := by
  simp only [Bridge.notify, exec_bind, exec_get, exec_set, hn]

/-- A callback whose change is heard of: the call, its actions, and what follows. -/
theorem drains_heard (now : Timestamp) (c : Change) (hnote : exec (c.note now) s = (.ok true, t))
    (hcallback : exec (Bridge.callback E now c.input) s =
      exec (Bridge.executeActions E now (t.state.call c.call).2 >>= fun _ => c.finish E now)
        { t with state := (t.state.call c.call).1 }) :
    Drains E s [.transport now c, .call now c, .finish now c]
      (exec (Bridge.callback E now c.input) s).2 := by
  rw [hcallback]
  refine .step ?_ (.step (exec_call now c) (drains_actions now c _))
  rw [Task.run, exec_bind_ok _ _ _ hnote]
  rfl

theorem drains_unheard (now : Timestamp) (c : Change)
    (hnote : exec (c.note now) s = (.ok false, t))
    (hcallback : (exec (Bridge.callback E now c.input) s).2 = t) :
    Drains E s [.transport now c, .call now c, .finish now c]
      (exec (Bridge.callback E now c.input) s).2 := by
  rw [hcallback]
  refine .step ?_ .nil
  rw [Task.run, exec_bind_ok _ _ _ hnote]
  rfl

/-- A thread that hears of a change and is left alone does the callback. -/
theorem drains_callback (now : Timestamp) (c : Change) :
    Drains E s [.transport now c, .call now c, .finish now c]
      (exec (Bridge.callback E now c.input) s).2 := by
  cases c with
  | mqttConnected =>
    have hcallback : exec (Bridge.onConnect E now) s =
        exec (Bridge.notify E now StateManager.onMqttConnected >>= fun _ =>
          Change.finish E now .mqttConnected) ((Bridge.Label.mqtt true).apply s) := by
      rw [Bridge.onConnect, exec_bind_ok _ _ _ (exec_modify _ _)]
      rfl
    exact drains_heard (t := (Bridge.Label.mqtt true).apply s) now .mqttConnected rfl
      (hcallback.trans (exec_notify now (c := .mqttConnected) (fun _ => rfl) _))
  | mqttDisconnected =>
    have hcallback := Bridge.exec_onDisconnect (E := E) (s := s) now
    cases hstop : s.stopping with
    | true =>
      rw [hstop, if_pos rfl] at hcallback
      refine drains_unheard now .mqttDisconnected ?_ (congrArg Prod.snd hcallback)
      show (Except.ok !s.stopping, _) = _
      rw [hstop]
      rfl
    | false =>
      rw [hstop, if_neg Bool.false_ne_true, ← bind_pure_unit (x := Bridge.notify _ _ _)] at hcallback
      refine drains_heard now .mqttDisconnected ?_
        (hcallback.trans (exec_notify now (c := .mqttDisconnected) (fun _ => rfl) _))
      show (Except.ok !s.stopping, _) = _
      rw [hstop]
      rfl
  | mochadConnected =>
    cases hstop : s.stopping with
    | true =>
      refine drains_unheard (t := s) now .mochadConnected ?_ ?_
      · rw [Change.note, exec_bind, exec_get]
        dsimp only
        rw [hstop, if_pos rfl, exec_pure]
      · show (exec (Bridge.connect E now) s).2 = s
        rw [Bridge.connect, exec_bind, exec_get]
        dsimp only
        rw [hstop, if_pos rfl, exec_pure]
    | false =>
      have hcallback : exec (Bridge.connect E now) s =
          exec (Bridge.notify E now StateManager.onMochadConnected >>= fun _ =>
            Change.finish E now .mochadConnected) ((Bridge.Label.mochad true).apply s) := by
        rw [Bridge.connect, exec_bind, exec_get]
        dsimp only
        rw [hstop, if_neg Bool.false_ne_true, exec_bind_ok _ _ _ (exec_modify _ _)]
        rfl
      refine drains_heard (t := (Bridge.Label.mochad true).apply s) now .mochadConnected ?_
        (hcallback.trans (exec_notify now (c := .mochadConnected) (fun _ => rfl) _))
      rw [Change.note, exec_bind, exec_get]
      dsimp only
      rw [hstop, if_neg Bool.false_ne_true]
      rfl
  | mochadDisconnected =>
    have hcallback := Bridge.exec_disconnect (E := E) (s := s) now
    rw [← bind_pure_unit (x := Bridge.notify _ _ _)] at hcallback
    exact drains_heard (t := s.unlinked now) now .mochadDisconnected rfl
      (hcallback.trans (exec_notify now (c := .mochadDisconnected) (fun _ => rfl) _))

/-- A thread that is left alone takes the bridge where the callback of the change,
run to completion, takes it. -/
theorem hear_alone (now : Timestamp) (c : Change) (hidle : m.tasks c.thread = [])
    (hlive : m.bridge.crashed = false) :
    ∃ n, Run.exec (move E) m (.hear now c :: List.replicate n (.work c.thread)) =
      { m with bridge := Bridge.step E m.bridge (now, c.input) } := by
  obtain ⟨n, hn⟩ := drains_callback (E := E) (s := m.bridge) now c
  have hpolls : c.input.polls = false := by cases c <;> rfl
  refine ⟨n, ?_⟩
  rw [Run.exec, List.foldl_cons, Bridge.step_callback hlive hpolls]
  simp only [move, hidle]
  exact (hn m c.thread).trans (withTasks_self hidle)

/-- mochad comes up while nothing else happens. -/
theorem hear_alone_first : ∃ s₀,
    Bridge.init {} (.plain "A1:Lamp") none 0 .absent = .ok s₀ ∧
    ∃ n, Run.exec (move {}) { bridge := s₀, tasks := fun _ => [] }
        (.hear 1 .mochadConnected :: List.replicate n (.work .mochad)) =
      { bridge := Bridge.step {} s₀ (1, .mochadConnected), tasks := fun _ => [] } := by
  have hinit : (Bridge.init {} (.plain "A1:Lamp") none 0 .absent).map (·.crashed) = .ok false := by
    decide +kernel
  obtain ⟨s₀, h₀, hlive⟩ := map_ok hinit
  exact ⟨s₀, h₀, hear_alone (m := { bridge := s₀, tasks := fun _ => [] }) 1 .mochadConnected
    rfl hlive⟩

end Threads

/-! ## What leaves the availability alone -/

/-- The availability that an output publishes. -/
def Output.online (baseTopic : String) : Output → Option Bool
  | .publish topic payload _ =>
    if (Topics.availability baseTopic).toOption = some topic then
      if payload = .str "online" then some true
      else if payload = .str "offline" then some false
      else none
    else none
  | _ => none

theorem Output.online_of_ne {topic baseTopic : String} {payload : Json} {retain : Bool}
    (h : Topics.availability baseTopic ≠ .ok topic) :
    (Output.publish topic payload retain).online baseTopic = none := by
  rw [Output.online, if_neg]
  refine fun heq => h ?_
  cases hp : Topics.availability baseTopic with
  | error e => rw [hp] at heq; cases heq
  | ok path => rw [hp] at heq; rw [Option.some.inj heq]

/-- A payload that clears a topic says nothing about the availability. -/
theorem Output.online_clear (topic baseTopic : String) (retain : Bool) :
    (Output.publish topic (.str "") retain).online baseTopic = none := by
  simp [Output.online]

theorem Output.online_publish {topic baseTopic : String} {retain : Bool}
    (h : Topics.availability baseTopic = .ok topic) (online : Bool) :
    (Output.publish topic (.str (if online then "online" else "offline")) retain).online
      baseTopic = some online := by
  cases online <;> simp [Output.online, h, Except.toOption]

namespace Bridge

variable {E : Env} {s t u : Bridge} {l : Label} {topic : String} {payload : Json} {retain : Bool}

/-- The availabilities published so far. -/
def published (s : Bridge) : List Bool :=
  s.journal.outputs.filterMap (Output.online s.mqtt.baseTopic)

/-- From `s` to `t` no availability is published, and neither the connections nor the
state manager change. -/
structure Aside (s t : Bridge) : Prop where
  state : t.state = s.state
  mqtt : t.mqtt = s.mqtt
  published : t.published = s.published

theorem Aside.refl (s : Bridge) : Aside s s := ⟨rfl, rfl, rfl⟩

theorem Aside.trans (h : Aside s t) (h' : Aside t u) : Aside s u :=
  ⟨h'.state.trans h.state, h'.mqtt.trans h.mqtt, h'.published.trans h.published⟩

/-- Nothing is published at all. -/
theorem aside_silent (hstate : t.state = s.state) (hmqtt : t.mqtt = s.mqtt)
    (houtputs : t.journal.outputs = s.journal.outputs) : Aside s t :=
  ⟨hstate, hmqtt, by rw [Bridge.published, Bridge.published, houtputs, hmqtt]⟩

theorem published_output {o : Output} (hmqtt : t.mqtt = s.mqtt)
    (houtputs : t.journal.outputs = s.journal.outputs ++ [o]) :
    t.published = s.published ++ (o.online s.mqtt.baseTopic).toList := by
  rw [published, houtputs, hmqtt, List.filterMap_append]
  refine congrArg (s.published ++ ·) ?_
  cases h : o.online s.mqtt.baseTopic <;> simp [h]

theorem published_emit (s : Bridge) (o : Output) :
    (s.emit o).published = s.published ++ (o.online s.mqtt.baseTopic).toList :=
  published_output rfl rfl

/-- One output that publishes no availability. -/
theorem aside_output {o : Output} (h : o.online s.mqtt.baseTopic = none)
    (hstate : t.state = s.state) (hmqtt : t.mqtt = s.mqtt)
    (houtputs : t.journal.outputs = s.journal.outputs ++ [o]) : Aside s t :=
  ⟨hstate, hmqtt, by
    rw [published_output hmqtt houtputs, h, Option.toList_none, List.append_nil]⟩

theorem aside_emit {o : Output} (h : o.online s.mqtt.baseTopic = none) : Aside s (s.emit o) :=
  aside_output h rfl rfl rfl

theorem aside_publishOn {topicOf : String → Except PyError String}
    (h : ∀ topic, topicOf s.mqtt.baseTopic = .ok topic →
      Topics.availability s.mqtt.baseTopic ≠ .ok topic) :
    Aside s (exec (publishOn topicOf payload retain) s).2 := by
  rw [exec_publishOn]
  cases htopic : topicOf s.mqtt.baseTopic with
  | error e => exact .refl s
  | ok topic => exact aside_emit (Output.online_of_ne (h topic htopic))

/-- A label of discovery, of a visit to the registry or of a line to mochad. -/
theorem aside_apply (hl : l.kind ∈ [.config, .clear, .registry, .line]) (hg : l.guard E s) :
    Aside s (l.apply s) := by
  cases l with
  | config message =>
    have hdiscovery := isDiscovery_of_announces hg
    exact aside_emit (Output.online_of_ne (hdiscovery.not_own (by simp)))
  | clear topic => exact aside_emit (Output.online_clear topic _ true)
  | line text written =>
    cases written with
    | false => exact aside_silent rfl rfl (List.append_nil _)
    | true => exact aside_output (o := .line text none) rfl rfl rfl rfl
  | visit file => exact aside_silent rfl rfl rfl
  | _ => exact absurd hl (by simp [Label.kind])

theorem aside_of_does {α : Type} {p : BridgeM α}
    (h : Does E [.config, .clear, .registry, .line] p s) : Aside s (exec p s).2 :=
  h.invariant (I := Aside s) (fun _ _ hl hg hs => hs.trans (aside_apply hl hg)) (.refl s)

/-- The actions of a connection change but for the availability. -/
def Later : BridgeAction → Prop
  | .publishStatus .. | .publishDiscovery _ | .publishState .. | .requestStatus => True
  | _ => False

theorem other_topic {suffix base : String} (hne : suffix ≠ "availability")
    {rest : List String} (hends : Topics.ends topic = suffix :: rest) :
    Topics.availability base ≠ .ok topic := by
  intro htopic
  have hplain : Topics.Plain "availability" := Topics.plain_of_letters (by decide) (by decide)
  obtain ⟨_, hends'⟩ := Topics.ends_bridgeTopic hplain htopic
  rw [hends, List.cons.injEq] at hends'
  exact hne hends'.1

/-- Executing one of the later actions. -/
theorem aside_later (now : Timestamp) {x : BridgeAction} (hx : Later x) :
    Aside s (exec (executeAction E now x) s).2 := by
  rw [executeAction, exec_bind, exec_get]
  dsimp only
  split
  · exact aside_silent rfl rfl rfl
  · cases x with
    | publishStatus status mqttConnected mochadConnected retain =>
      refine aside_publishOn fun topic htopic => ?_
      have hplain : Topics.Plain "status" := Topics.plain_of_letters (by decide) (by decide)
      obtain ⟨_, hends⟩ := Topics.ends_bridgeTopic hplain htopic
      exact other_topic (by decide) hends
    | publishState a c retain =>
      refine aside_publishOn fun topic htopic => ?_
      have hplain : Topics.Plain "state" := Topics.plain_of_letters (by decide) (by decide)
      obtain ⟨_, hends⟩ := Topics.ends_deviceTopic hplain htopic
      exact other_topic (by decide) hends
    | publishDiscovery a =>
      have htable : Aside s (s.withDevice a) := aside_silent rfl rfl rfl
      dsimp only
      rw [exec_bind_ok _ _ _ (exec_deviceConfig a), exec_bind, exec_get]
      dsimp only
      rw [exec_bind, exec_ofExcept]
      cases hms : (s.withDevice a).discovery.discoveryMessages (s.deviceAt a)
        (s.withDevice a).mochadDiagnostics with
      | error e => exact htable
      | ok ms =>
        obtain ⟨topic, fields, htopic, _, rfl⟩ := DiscoveryManager.discoveryMessages_one hms
        have hdiscovery : Topics.IsDiscovery topic := Topics.isDiscovery_discovery htopic
        exact htable.trans (aside_emit (Output.online_of_ne (hdiscovery.not_own (by simp))))
    | requestStatus =>
      exact aside_of_does (sendLine_takes List.mem_cons_self fun _ => of_kind rfl)
    | _ => exact absurd hx id

/-- What follows the actions of a callback. -/
theorem aside_finish (now : Timestamp) (c : Change) : Aside s (exec (c.finish E now) s).2 := by
  cases c with
  | mqttConnected =>
    exact aside_of_does (E := E) (.bind (publishBridgeDiagnosticDiscovery_does.mono
      (subset_of_all rfl)) fun _ _ _ => .bind ((runDiscoveryCleanup_does false).mono
        (subset_of_all rfl)) fun _ _ _ => .refl)
  | mochadConnected =>
    exact aside_of_does ((requestMochadDiagnostics_does now fun _ h => h).mono (subset_of_all rfl))
  | mqttDisconnected | mochadDisconnected => exact .refl s

/-- The later actions, one by one, and what follows them. -/
theorem aside_actions (now : Timestamp) (c : Change) {later : List BridgeAction}
    (hlater : ∀ x ∈ later, Later x) :
    Aside s (exec (executeActions E now later >>= fun _ => c.finish E now) s).2 := by
  induction later generalizing s with
  | nil => exact aside_finish now c
  | cons x later ih =>
    have haside := aside_later (E := E) (s := s) now (hlater x List.mem_cons_self)
    rw [← exec_attempt_state] at haside
    rw [executeActions_cons]
    cases h : exec (attempt E now x) s with
    | mk result t =>
      rw [h] at haside
      cases result with
      | error e =>
        rw [exec_bind_error _ _ _ (exec_bind_error _ _ _ h)]
        exact haside
      | ok goOn =>
        rw [exec_bind, exec_bind_ok _ _ _ h, ← exec_bind]
        refine haside.trans ?_
        cases goOn with
        | true => exact ih fun y hy => hlater y (List.mem_cons_of_mem _ hy)
        | false => exact aside_finish now c

end Bridge

/-- The first action of a connection change publishes the availability. -/
theorem change_actions (sm : StateManager) (c : Change) : ∃ later,
    (sm.call c.call).2 = .publishAvailability (sm.call c.call).1.available :: later ∧
      ∀ x ∈ later, Bridge.Later x := by
  cases c with
  | mqttConnected =>
    refine ⟨_, rfl, fun x hx => ?_⟩
    rcases List.mem_cons.mp hx with rfl | hx
    · trivial
    · obtain ⟨st, _, hmem⟩ := List.mem_flatMap.mp hx
      rcases List.mem_cons.mp hmem with rfl | hmem
      · trivial
      · obtain ⟨_, _, rfl⟩ := List.mem_map.mp hmem
        trivial
  | mqttDisconnected | mochadDisconnected =>
    refine ⟨_, rfl, fun x hx => ?_⟩
    rw [List.mem_singleton.mp hx]
    trivial
  | mochadConnected =>
    refine ⟨_, rfl, fun x hx => ?_⟩
    rcases List.mem_pair.mp hx with rfl | rfl <;> trivial

/-! ## What is published last -/

/-- The tasks hold the availability payload yet to publish. -/
def Publishes (tasks : List Task) (online : Bool) : Prop :=
  ∃ now, .act now (.publishAvailability online) ∈ tasks

/-- The tasks hold a call of the state manager. -/
def Calls (tasks : List Task) : Prop := ∃ now c, .call now c ∈ tasks

/-- What may be left of a callback of the thread. -/
inductive Remains (T : Thread) : List Task → Prop
  | idle : Remains T []
  | heard (now : Timestamp) {c : Change} (h : c.thread = T) :
      Remains T [.transport now c, .call now c, .finish now c]
  | noted (now : Timestamp) {c : Change} (h : c.thread = T) : Remains T [.call now c, .finish now c]
  | called (now : Timestamp) {c : Change} (h : c.thread = T) (online : Bool)
      {later : List BridgeAction} (hlater : ∀ x ∈ later, Bridge.Later x) :
      Remains T (.act now (.publishAvailability online) ::
        (later.map (.act now) ++ [.finish now c]))
  | later (now : Timestamp) {c : Change} (h : c.thread = T) {later : List BridgeAction}
      (hlater : ∀ x ∈ later, Bridge.Later x) : Remains T (later.map (.act now) ++ [.finish now c])

namespace Threads

/-- The last availability published is the one of the state manager. -/
def Shows (s : Bridge) : Prop := s.published.getLast? = some s.state.available

/-- While the client is connected and not about to call `mqtt_connected`, a payload that
waits is the right one, and if none waits the topic is right. -/
structure Fresh (m : Threads) : Prop where
  remains : ∀ T, Remains T (m.tasks T)
  clean : ∃ b, Topics.cleanSegment m.bridge.mqtt.baseTopic = .ok b
  current : m.bridge.mqtt.connected = true → ¬ Calls (m.tasks .mqtt) →
    ∀ T online, Publishes (m.tasks T) online → online = m.bridge.state.available
  shown : m.bridge.mqtt.connected = true → ¬ Calls (m.tasks .mqtt) →
    (∃ T online, Publishes (m.tasks T) online) ∨ Shows m.bridge

/-- The step is no call that makes a payload wrong which the other thread has yet to
publish on a connected client. -/
def Timely (m : Threads) : Move → Prop
  | .hear .. => True
  | .work T => m.bridge.mqtt.connected = true → ∀ now c rest, m.tasks T = .call now c :: rest →
    ∀ online, Publishes (m.tasks T.other) online →
      online = (m.bridge.state.call c.call).1.available

section Fresh
variable {E : Env} {m : Threads} {T : Thread} {t : Bridge} {tasks : List Task}

theorem not_publishes_later {now : Timestamp} {c : Change} {later : List BridgeAction}
    (hlater : ∀ x ∈ later, Bridge.Later x) {online : Bool} :
    ¬ Publishes (later.map (.act now) ++ [.finish now c]) online := by
  rintro ⟨now', h⟩
  rcases List.mem_append.mp h with h | h
  · obtain ⟨x, hx, heq⟩ := List.mem_map.mp h
    obtain ⟨_, rfl⟩ := Task.act.inj heq
    exact hlater _ hx
  · exact Task.noConfusion (List.mem_singleton.mp h)

theorem not_calls_later {now : Timestamp} {c : Change} {later : List BridgeAction} :
    ¬ Calls (later.map (.act now) ++ [.finish now c]) := by
  rintro ⟨now', c', h⟩
  rcases List.mem_append.mp h with h | h
  · obtain ⟨x, _, heq⟩ := List.mem_map.mp h
    exact Task.noConfusion heq
  · exact Task.noConfusion (List.mem_singleton.mp h)

/-- The tasks of the threads after those of one were replaced. -/
theorem withTasks_apply (T' : Thread) :
    (m.withTasks T t tasks).tasks T' = if T' = T then tasks else m.tasks T' :=
  Function.update_apply (β := List Task) m.tasks T tasks T'

theorem remains_withTasks (h : m.Fresh) (hremains : Remains T tasks) (T' : Thread) :
    Remains T' ((m.withTasks T t tasks).tasks T') := by
  rw [withTasks_apply]
  split
  · next heq => exact heq ▸ hremains
  · exact h.remains T'

theorem calls_withTasks (hcalls : T = .mqtt → Calls (m.tasks T) → Calls tasks)
    (h : Calls (m.tasks .mqtt)) : Calls ((m.withTasks T t tasks).tasks .mqtt) := by
  rw [withTasks_apply]
  split
  · next heq => exact hcalls heq.symm (heq ▸ h)
  · exact h

/-- A step that leaves the availability alone, and what waits of it. -/
theorem Fresh.aside (h : m.Fresh) (haside : m.bridge.Aside t) (hremains : Remains T tasks)
    (hpublishes : ∀ online, Publishes tasks online ↔ Publishes (m.tasks T) online)
    (hcalls : T = .mqtt → Calls (m.tasks T) → Calls tasks) : (m.withTasks T t tasks).Fresh where
  remains := remains_withTasks h hremains
  clean := haside.mqtt ▸ h.clean
  current hconn hnone T' online hp := by
    have hwas : m.bridge.mqtt.connected = true := haside.mqtt ▸ hconn
    have hnone' := mt (calls_withTasks hcalls) hnone
    rw [withTasks_apply] at hp
    refine (h.current hwas hnone' T' online ?_).trans
      (congrArg StateManager.available haside.state).symm
    split at hp
    · next heq => exact heq ▸ (hpublishes online).mp hp
    · exact hp
  shown hconn hnone := by
    have hwas : m.bridge.mqtt.connected = true := haside.mqtt ▸ hconn
    rcases h.shown hwas (mt (calls_withTasks hcalls) hnone) with ⟨T', online, hp⟩ | hshows
    · refine .inl ⟨T', online, ?_⟩
      rw [withTasks_apply]
      split
      · next heq => exact (hpublishes online).mpr (heq ▸ hp)
      · exact hp
    · refine .inr ?_
      show t.published.getLast? = some t.state.available
      rw [haside.published, haside.state]
      exact hshows

theorem publishes_nil {online : Bool} : ¬ Publishes [] online := by
  rintro ⟨_, h⟩
  cases h

/-- The tasks of the thread hold neither payload nor call: so do the ones that replace
them. -/
theorem Fresh.quiet (h : m.Fresh) (haside : m.bridge.Aside t) (hremains : Remains T tasks)
    (hbefore : ∀ online, ¬ Publishes (m.tasks T) online) (hcall : T = .mqtt → ¬ Calls (m.tasks T))
    (hafter : ∀ online, ¬ Publishes tasks online) : (m.withTasks T t tasks).Fresh :=
  h.aside haside hremains (fun online => iff_of_false (hafter online) (hbefore online))
    fun hT hcalls => absurd hcalls (hcall hT)

/-- The thread hears of a change. -/
theorem Fresh.hear (h : m.Fresh) (now : Timestamp) (c : Change) :
    (m.move E (.hear now c)).Fresh := by
  cases htasks : m.tasks c.thread with
  | cons task rest =>
    simp only [move, htasks]
    exact h
  | nil =>
    simp only [move, htasks]
    refine h.aside (.refl _) (.heard now rfl) (fun online => ?_) fun _ _ =>
      ⟨now, c, by simp⟩
    rw [htasks]
    refine iff_of_false ?_ publishes_nil
    rintro ⟨now', hp⟩
    simp at hp

/-- One of the later actions, or the rest of the callback. -/
theorem Fresh.later (h : m.Fresh) {now : Timestamp} {c : Change} (hc : c.thread = T)
    {later : List BridgeAction} (hlater : ∀ x ∈ later, Bridge.Later x)
    (htasks : m.tasks T = later.map (.act now) ++ [.finish now c]) :
    (m.move E (.work T)).Fresh := by
  have hpublishes : ∀ online, ¬ Publishes (m.tasks T) online := fun online =>
    htasks ▸ not_publishes_later hlater
  have hcalls : T = .mqtt → ¬ Calls (m.tasks T) := fun _ => htasks ▸ not_calls_later
  cases later with
  | nil =>
    have haside := Bridge.aside_finish (E := E) (s := m.bridge) now c
    cases hexec : exec (c.finish E now) m.bridge with
    | mk result t =>
      rw [hexec] at haside
      cases result with
      | error e =>
        rw [move_work_error htasks (by rw [Task.run, exec_bind_error _ _ _ hexec])]
        exact h.quiet haside .idle hpublishes hcalls fun _ => publishes_nil
      | ok u =>
        rw [move_work_ok htasks (by rw [Task.run, exec_bind_ok _ _ _ hexec, exec_pure])]
        exact h.quiet haside .idle hpublishes hcalls fun _ => publishes_nil
  | cons x later =>
    have haside := Bridge.aside_later (E := E) (s := m.bridge) now (hlater x List.mem_cons_self)
    rw [← Bridge.exec_attempt_state] at haside
    have hrest := fun y hy => hlater y (List.mem_cons_of_mem _ hy)
    cases hexec : exec (Bridge.attempt E now x) m.bridge with
    | mk result t =>
      rw [hexec] at haside
      cases result with
      | error e =>
        rw [move_work_error htasks (by rw [Task.run, exec_bind_error _ _ _ hexec])]
        exact h.quiet haside .idle hpublishes hcalls fun _ => publishes_nil
      | ok goOn =>
        rw [move_work_ok htasks (by rw [Task.run, exec_bind_ok _ _ _ hexec, exec_pure])]
        cases goOn with
        | true =>
          exact h.quiet haside (.later now hc hrest) hpublishes hcalls fun _ =>
            not_publishes_later hrest
        | false =>
          -- a failed send drops the actions that are left
          have hnone : ∀ y ∈ ([] : List BridgeAction), Bridge.Later y := List.forall_mem_nil _
          have hfinish : (m.withTasks T t [.finish now c]).Fresh :=
            h.quiet haside (@Remains.later T now c hc [] hnone) hpublishes hcalls fun _ =>
              @not_publishes_later now c [] hnone _
          rwa [← dropWhile_actions now c later] at hfinish

/-- Publishing the availability, which a connected client does. -/
theorem exec_availability (now : Timestamp) {s : Bridge} {b : String}
    (hb : Topics.cleanSegment s.mqtt.baseTopic = .ok b) (online : Bool) : ∃ t,
      exec (Bridge.executeAction E now (.publishAvailability online)) s = (.ok (), t) ∧
      t.state = s.state ∧ t.mqtt = s.mqtt ∧
      (s.mqtt.connected = true → t.published = s.published ++ [online]) := by
  have hsuffix : Topics.cleanSegment "availability" = .ok "availability" :=
    Topics.cleanSegment_fixed _ (by simp)
  have htopic := Topics.bridgeTopic_eq hb hsuffix
  rw [Bridge.executeAction, exec_bind, exec_get]
  dsimp only
  cases hconn : s.mqtt.connected with
  | false => exact ⟨_, rfl, rfl, rfl, fun hon => Bool.noConfusion hon⟩
  | true =>
    rw [if_neg (by simp), Bridge.publishAvailability, Bridge.exec_publishOn, Topics.availability,
      htopic]
    refine ⟨_, rfl, rfl, rfl, fun _ => ?_⟩
    rw [Bridge.published_emit, Output.online_publish htopic]
    rfl

/-- The first action of a callback. -/
theorem Fresh.called (h : m.Fresh) {now : Timestamp} {c : Change} (hc : c.thread = T) {online : Bool}
    {later : List BridgeAction} (hlater : ∀ x ∈ later, Bridge.Later x)
    (htasks : m.tasks T = .act now (.publishAvailability online) ::
      (later.map (.act now) ++ [.finish now c])) : (m.move E (.work T)).Fresh := by
  obtain ⟨b, hb⟩ := h.clean
  obtain ⟨t, hexec, hstate, hmqtt, hpublished⟩ := exec_availability (E := E) now hb online
  have hattempt := Bridge.exec_attempt now hexec
  rw [move_work_ok htasks (by rw [Task.run, exec_bind_ok _ _ _ hattempt, exec_pure])]
  -- the tasks of the thread hold no call, before and after
  have hcalls : T = .mqtt → Calls (m.tasks T) → Calls (later.map (.act now) ++ [.finish now c]) := by
    rintro _ ⟨now', c', hcall⟩
    rw [htasks] at hcall
    exact ⟨now', c', (List.mem_cons.mp hcall).resolve_left Task.noConfusion⟩
  have hright : t.mqtt.connected = true →
      ¬ Calls ((m.withTasks T t (later.map (.act now) ++ [.finish now c])).tasks .mqtt) →
      ∀ T' online', Publishes (m.tasks T') online' → online' = t.state.available := by
    intro hconn hnone T' online' hp
    refine (h.current (hmqtt ▸ hconn) (mt (calls_withTasks hcalls) hnone) T' online' hp).trans ?_
    rw [hstate]
  refine ⟨remains_withTasks h (.later now hc hlater), hmqtt ▸ h.clean,
    fun hconn hnone T' online' hp => ?_, fun hconn hnone => .inr ?_⟩
  · rw [withTasks_apply] at hp
    split at hp
    · exact absurd hp (not_publishes_later hlater)
    · exact hright hconn hnone T' online' hp
  · have honline := hright hconn hnone T online ⟨now, htasks ▸ List.mem_cons_self⟩
    show t.published.getLast? = some t.state.available
    rw [hpublished (hmqtt ▸ hconn), List.getLast?_concat, honline]

/-- The call of the state manager. -/
theorem Fresh.noted (h : m.Fresh) {now : Timestamp} {c : Change} (hc : c.thread = T)
    (htasks : m.tasks T = [.call now c, .finish now c]) (htimely : m.Timely (.work T)) :
    (m.move E (.work T)).Fresh := by
  obtain ⟨later, hactions, hlater⟩ := change_actions m.bridge.state c
  have hcalled := Remains.called now hc (m.bridge.state.call c.call).1.available hlater
  rw [move_work_ok htasks (exec_call now c), hactions]
  refine ⟨remains_withTasks h hcalled, h.clean, fun hconn _ T' online hp => ?_,
    fun _ _ => .inl ⟨T, (m.bridge.state.call c.call).1.available, now, ?_⟩⟩
  · rw [withTasks_apply] at hp
    split at hp
    · obtain ⟨now', hp⟩ := hp
      rcases List.mem_cons.mp hp with heq | hp
      · exact (BridgeAction.publishAvailability.inj (Task.act.inj heq).2)
      · exact absurd ⟨now', hp⟩ (not_publishes_later hlater)
    · next hne =>
      rw [Thread.eq_other hne] at hp
      exact htimely hconn now c _ htasks online hp
  · rw [withTasks_tasks]
    exact List.mem_cons_self

/-- The transport notes a change. -/
theorem Fresh.heard (h : m.Fresh) {now : Timestamp} {c : Change} (hc : c.thread = T)
    (htasks : m.tasks T = [.transport now c, .call now c, .finish now c]) :
    (m.move E (.work T)).Fresh := by
  have hbefore : ∀ online, ¬ Publishes (m.tasks T) online := by
    rintro online ⟨now', hp⟩
    simp [htasks] at hp
  have hafter : ∀ online, ¬ Publishes [.call now c, .finish now c] online := by
    rintro online ⟨now', hp⟩
    simp at hp
  cases c with
  | mqttConnected =>
    have hmove : m.move E (.work T) = m.withTasks T ((Bridge.Label.mqtt true).apply m.bridge)
        [.call now .mqttConnected, .finish now .mqttConnected] := move_work_ok htasks rfl
    rw [hmove]
    have hcall : Calls ((m.withTasks T ((Bridge.Label.mqtt true).apply m.bridge)
        [.call now .mqttConnected, .finish now .mqttConnected]).tasks .mqtt) := by
      rw [withTasks_apply, if_pos (show Thread.mqtt = T from hc)]
      exact ⟨now, .mqttConnected, List.mem_cons_self⟩
    exact ⟨remains_withTasks h (.noted now hc), h.clean,
      fun _ hnone => absurd hcall hnone, fun _ hnone => absurd hcall hnone⟩
  | mqttDisconnected =>
    have hmove : m.move E (.work T) = m.withTasks T ((Bridge.Label.mqtt false).apply m.bridge)
        (if !m.bridge.stopping then [.call now .mqttDisconnected, .finish now .mqttDisconnected]
          else []) := move_work_ok htasks rfl
    rw [hmove]
    cases hstop : m.bridge.stopping with
    | true =>
      exact ⟨remains_withTasks h .idle, h.clean, fun hconn => Bool.noConfusion hconn,
        fun hconn => Bool.noConfusion hconn⟩
    | false =>
      exact ⟨remains_withTasks h (.noted now hc), h.clean,
        fun hconn => Bool.noConfusion hconn, fun hconn => Bool.noConfusion hconn⟩
  | mochadConnected =>
    -- the mochad thread has no part in the calls of the MQTT thread
    have hcalls : ∀ {tasks : List Task}, T = .mqtt → Calls (m.tasks T) → Calls tasks := fun hT =>
      absurd (hc.trans hT) (by decide)
    cases hstop : m.bridge.stopping with
    | true =>
      have hmove : m.move E (.work T) = m.withTasks T m.bridge [] := move_work_ok htasks (by
        rw [Task.run, exec_bind, Change.note, exec_bind, exec_get]
        dsimp only
        rw [hstop, if_pos rfl]
        rfl)
      rw [hmove]
      exact h.aside (.refl _) .idle
        (fun online => iff_of_false publishes_nil (hbefore online)) hcalls
    | false =>
      have hmove : m.move E (.work T) = m.withTasks T ((Bridge.Label.mochad true).apply m.bridge)
          [.call now .mochadConnected, .finish now .mochadConnected] := move_work_ok htasks (by
        rw [Task.run, exec_bind, Change.note, exec_bind, exec_get]
        dsimp only
        rw [hstop, if_neg Bool.false_ne_true]
        rfl)
      rw [hmove]
      exact h.aside (Bridge.aside_silent rfl rfl rfl) (.noted now hc)
        (fun online => iff_of_false (hafter online) (hbefore online)) hcalls
  | mochadDisconnected =>
    have hmove : m.move E (.work T) = m.withTasks T (m.bridge.unlinked now)
        [.call now .mochadDisconnected, .finish now .mochadDisconnected] := move_work_ok htasks rfl
    rw [hmove]
    exact h.aside (Bridge.aside_silent rfl rfl rfl) (.noted now hc)
      (fun online => iff_of_false (hafter online) (hbefore online)) fun hT =>
        absurd (hc.trans hT) (by decide)

/-- What a timely move keeps. -/
theorem Fresh.move (h : m.Fresh) (i : Move) (htimely : m.Timely i) : (m.move E i).Fresh := by
  cases i with
  | hear now c => exact h.hear now c
  | work T =>
    generalize htasks : m.tasks T = tasks
    cases htasks ▸ h.remains T with
    | idle =>
      simp only [Threads.move, htasks]
      exact h
    | heard now hc => exact h.heard hc htasks
    | noted now hc => exact h.noted hc htasks htimely
    | called now hc online hlater => exact h.called hc hlater htasks
    | later now hc hlater => exact h.later hc hlater htasks

/-! ## A payload that was overtaken -/

/-- A callback whose availability is next, run to its end on a connected client. -/
theorem drains_called {s : Bridge} {b : String}
    (hb : Topics.cleanSegment s.mqtt.baseTopic = .ok b) (hconn : s.mqtt.connected = true)
    (now : Timestamp) (c : Change) (online : Bool) {later : List BridgeAction}
    (hlater : ∀ x ∈ later, Bridge.Later x) :
    ∃ t, Drains E s (.act now (.publishAvailability online) ::
        (later.map (.act now) ++ [.finish now c])) t ∧
      t.state = s.state ∧ t.mqtt = s.mqtt ∧ t.published.getLast? = some online := by
  obtain ⟨u, hexec, hstate, hmqtt, hpublished⟩ := exec_availability (E := E) now hb online
  have haside := Bridge.aside_actions (E := E) (s := u) now c hlater
  refine ⟨_, .step ?_ (drains_actions now c later), haside.state.trans hstate,
    haside.mqtt.trans hmqtt, ?_⟩
  · rw [Task.run, exec_bind_ok _ _ _ (Bridge.exec_attempt now hexec)]
    rfl
  · rw [haside.published, hpublished hconn, List.getLast?_concat]

/-- A payload that waits is the next action of its thread. -/
theorem Fresh.waiting (h : m.Fresh) {online : Bool} (hp : Publishes (m.tasks T) online) :
    ∃ (now : Timestamp) (c : Change) (later : List BridgeAction),
      (∀ x ∈ later, Bridge.Later x) ∧ m.tasks T = .act now (.publishAvailability online) ::
        (later.map (.act now) ++ [.finish now c]) := by
  generalize hwaits : m.tasks T = tasks at hp
  cases hwaits ▸ h.remains T with
  | idle => exact absurd hp publishes_nil
  | heard now hc =>
    obtain ⟨_, hp⟩ := hp
    simp at hp
  | noted now hc =>
    obtain ⟨_, hp⟩ := hp
    simp at hp
  | later now hc hlater => exact absurd hp (not_publishes_later hlater)
  | called now hc online' hlater =>
    obtain ⟨now', hp⟩ := hp
    rcases List.mem_cons.mp hp with heq | hp
    · rw [BridgeAction.publishAvailability.inj (Task.act.inj heq).2]
      exact ⟨now, _, _, hlater, rfl⟩
    · exact absurd ⟨now', hp⟩ (not_publishes_later hlater)

/-- A call that comes first is followed by the end of its callback. -/
theorem rest_of_call {tasks rest : List Task} {now : Timestamp} {c : Change}
    (h : Remains T tasks) (htasks : tasks = .call now c :: rest) : rest = [.finish now c] := by
  cases h with
  | idle => cases htasks
  | heard => cases htasks
  | noted =>
    cases htasks
    rfl
  | called => cases htasks
  | later _ _ hlater =>
    rename_i later
    cases later <;> cases htasks

/-- A call that makes a waiting payload of the other thread wrong: if nothing else
happens, the topic is wrong once both threads are done. -/
theorem overtaken_stale (h : m.Fresh) (hconn : m.bridge.mqtt.connected = true)
    {now : Timestamp} {c : Change} (htasks : m.tasks T = [.call now c, .finish now c])
    {online : Bool} (hp : Publishes (m.tasks T.other) online)
    (hne : online ≠ (m.bridge.state.call c.call).1.available) : ∃ n k,
    let m' := Run.exec (Threads.move E) m
      (.work T :: (List.replicate n (.work T) ++ List.replicate k (.work T.other)))
    (∀ T', m'.tasks T' = []) ∧ m'.bridge.mqtt.connected = true ∧ ¬ Shows m'.bridge := by
  obtain ⟨b, hb⟩ := h.clean
  -- the thread of the call publishes what the call computed
  obtain ⟨later, hactions, hlater⟩ := change_actions m.bridge.state c
  have hcall : m.move E (.work T) = m.withTasks T
      { m.bridge with state := (m.bridge.state.call c.call).1 }
      (.act now (.publishAvailability (m.bridge.state.call c.call).1.available) ::
        (later.map (.act now) ++ [.finish now c])) := by
    rw [move_work_ok htasks (exec_call now c), hactions]
    rfl
  obtain ⟨t, ⟨n, hn⟩, hstate, hmqtt, _⟩ := drains_called (E := E)
    (s := { m.bridge with state := (m.bridge.state.call c.call).1 }) hb hconn now c _ hlater
  -- the other thread publishes what it has had all along
  obtain ⟨now', c', later', hlater', hwaits⟩ := h.waiting hp
  obtain ⟨u, ⟨k, hk⟩, hstate', hmqtt', hlast⟩ := drains_called (E := E) (s := t)
    (hmqtt ▸ hb) (hmqtt ▸ hconn) now' c' online hlater'
  have hstarts : m.withTasks T t [] = (m.withTasks T t []).withTasks T.other t
      (.act now' (.publishAvailability online) ::
        (later'.map (.act now') ++ [.finish now' c'])) :=
    (withTasks_self (s := t)
      ((withTasks_apply T.other).trans ((if_neg T.other_ne).trans hwaits))).symm
  have hrun : Run.exec (Threads.move E) m (.work T :: (List.replicate n (.work T) ++
      List.replicate k (.work T.other))) = (m.withTasks T t []).withTasks T.other u [] := by
    rw [Run.exec, List.foldl_cons, List.foldl_append, hcall]
    exact ((congrArg (List.foldl _ · _) (hn m T)).trans
      (congrArg (List.foldl _ · _) hstarts)).trans (hk _ _)
  refine ⟨n, k, ?_⟩
  rw [hrun]
  refine ⟨fun T' => ?_, (congrArg MqttClient.connected (hmqtt'.trans hmqtt)).trans hconn,
    fun hshows => hne ?_⟩
  · rw [withTasks_apply]
    split
    · rfl
    · next heq =>
      rw [withTasks_apply, if_pos ((Thread.eq_other heq).trans T.other_other)]
  · have hsame := Option.some.inj (hlast.symm.trans hshows)
    rw [hsame]
    exact congrArg StateManager.available (hstate'.trans hstate)

end Fresh

/-! ## Runs -/

/-- A bridge neither of whose threads has heard of anything. -/
def start (s : Bridge) : Threads := { bridge := s, tasks := fun _ => [] }

/-- Once both threads are done and the client is connected, the last availability
published is right. -/
def Converges (m : Threads) : Prop :=
  (∀ T, m.tasks T = []) → m.bridge.mqtt.connected = true → Shows m.bridge

theorem Fresh.converges {m : Threads} (h : m.Fresh) : Converges m := by
  intro hdone hconn
  have hnone : ¬ Calls (m.tasks .mqtt) := by
    rintro ⟨now, c, hcall⟩
    rw [hdone] at hcall
    cases hcall
  rcases h.shown hconn hnone with ⟨T, online, hp⟩ | hshows
  · rw [hdone] at hp
    exact absurd hp publishes_nil
  · exact hshows

section Runs
variable {E : Env} {config : Config} {signature : Option (Int × Nat)} {monotonic : Nat}
  {registry : RegistryFile} {journal : Journal} {s₀ : Bridge} {m : Threads}

/-- A new bridge has no connection yet. -/
theorem start_fresh (h₀ : Bridge.init E config signature monotonic registry journal = .ok s₀) :
    (start s₀).Fresh := by
  have hsound := Bridge.init_sound h₀
  obtain ⟨_, file, rfl⟩ := Bridge.init_ok h₀
  exact ⟨fun _ => .idle, hsound.clean, fun hconn => Bool.noConfusion hconn,
    fun hconn => Bool.noConfusion hconn⟩

/-- While no call of one thread overtakes a payload of the other thread that it makes
wrong, the availability converges. -/
theorem availability_converges
    (h₀ : Bridge.init E config signature monotonic registry journal = .ok s₀)
    (hm : Run.Reaches (move E) Timely (start s₀) m) : Converges m :=
  Fresh.converges <| hm.invariant (start_fresh h₀) fun _ i h hi => h.move i hi

/-- A thread that works while the other one is idle is timely. -/
theorem meets_alone (hidle : m.tasks T.other = []) (n : ℕ) :
    Run.Meets (move E) Timely m (List.replicate n (.work T)) := by
  induction n generalizing m with
  | zero => trivial
  | succ n ih =>
    refine ⟨fun _ _ _ _ _ online hp => ?_, ih ?_⟩
    · rw [hidle] at hp
      exact absurd hp publishes_nil
    · rw [move_tasks_other T.other_ne, hidle]

theorem meets_callback {c : Change} (hidle : m.tasks T.other = []) (hc : c.thread = T)
    (now : Timestamp) (n : ℕ) :
    Run.Meets (move E) Timely m (.hear now c :: List.replicate n (.work T)) :=
  ⟨trivial, meets_alone ((move_tasks_other (i := .hear now c) fun h =>
    T.other_ne (h.trans hc)).trans hidle) n⟩

/-- One callback after the other. -/
theorem availability_converges_alone : ∃ s₀,
    Bridge.init {} (.plain "A1:Lamp") none 0 .absent = .ok s₀ ∧
    Converges (Run.exec (move {}) (start s₀)
      (.hear 1 .mochadConnected :: List.replicate 6 (.work .mochad) ++
        .hear 2 .mqttConnected :: List.replicate 8 (.work .mqtt))) := by
  have hinit : (Bridge.init {} (.plain "A1:Lamp") none 0 .absent).map (fun s₀ =>
      (Run.exec (move {}) (start s₀) (.hear 1 .mochadConnected ::
        List.replicate 6 (.work .mochad))).tasks .mochad |>.isEmpty) = .ok true := by
    decide +kernel
  obtain ⟨s₀, h₀, hidle⟩ := map_ok hinit
  refine ⟨s₀, h₀, availability_converges h₀ ?_⟩
  rw [Run.exec, List.foldl_append]
  exact (Run.reaches_exec (meets_callback (T := .mochad) rfl rfl 1 6)).trans
    (Run.reaches_exec (meets_callback (T := .mqtt) (List.isEmpty_iff.mp hidle) rfl 2 8))

/-- mochad is lost after `mqtt_connected` was called and before its actions are executed:
`online` is published after `offline`, and stays. -/
theorem overtaken_diverges : ∃ s₀,
    Bridge.init {} (.plain "A1:Lamp") none 0 .absent = .ok s₀ ∧
    ¬ Converges (Run.exec (move {}) (start s₀)
      (.hear 1 .mochadConnected :: List.replicate 6 (.work .mochad) ++
        [.hear 2 .mqttConnected, .work .mqtt, .work .mqtt, .hear 3 .mochadDisconnected] ++
        List.replicate 5 (.work .mochad) ++ List.replicate 6 (.work .mqtt))) := by
  have hinit : (Bridge.init {} (.plain "A1:Lamp") none 0 .absent).map (fun s₀ =>
      let m := Run.exec (move {}) (start s₀)
        (.hear 1 .mochadConnected :: List.replicate 6 (.work .mochad) ++
          [.hear 2 .mqttConnected, .work .mqtt, .work .mqtt, .hear 3 .mochadDisconnected] ++
          List.replicate 5 (.work .mochad) ++ List.replicate 6 (.work .mqtt))
      ((m.tasks .mqtt).isEmpty && (m.tasks .mochad).isEmpty && m.bridge.mqtt.connected,
        m.bridge.published, m.bridge.state.available)) = .ok (true, [false, true], false) := by
    decide +kernel
  obtain ⟨s₀, h₀, hfinal⟩ := map_ok hinit
  obtain ⟨hdone, hpublished, havailable⟩ := Prod.mk.inj hfinal |>.imp id Prod.mk.inj
  simp only [Bool.and_eq_true, List.isEmpty_iff] at hdone
  refine ⟨s₀, h₀, fun h => ?_⟩
  have hshows := h (fun T => by cases T; exacts [hdone.1.1, hdone.1.2]) hdone.2
  rw [Shows, hpublished, havailable] at hshows
  exact absurd hshows (by decide)

/-- Whenever a run comes to a call that is not timely, it can go on to a state that is wrong
for good: both threads are done, the client is connected, and the topic says otherwise. -/
theorem untimely_diverges
    (h₀ : Bridge.init E config signature monotonic registry journal = .ok s₀)
    (hm : Run.Reaches (move E) Timely (start s₀) m) (huntimely : ¬ m.Timely (.work T)) :
    ∃ n k, ¬ Converges (Run.exec (move E) m
      (.work T :: (List.replicate n (.work T) ++ List.replicate k (.work T.other)))) := by
  have hfresh : m.Fresh := hm.invariant (start_fresh h₀) fun _ i h hi => h.move i hi
  rw [Timely] at huntimely
  push Not at huntimely
  obtain ⟨hconn, now, c, rest, htasks, online, hp, hne⟩ := huntimely
  rw [rest_of_call (hfresh.remains T) htasks] at htasks
  obtain ⟨n, k, hdone, hconn', hwrong⟩ := overtaken_stale hfresh hconn htasks hp hne
  exact ⟨n, k, fun h => hwrong (h hdone hconn')⟩

/-- The run of `overtaken_diverges`, up to the call. -/
theorem untimely_diverges_overtaken : ∃ s₀,
    Bridge.init {} (.plain "A1:Lamp") none 0 .absent = .ok s₀ ∧
    let m := Run.exec (move {}) (start s₀)
      (.hear 1 .mochadConnected :: List.replicate 6 (.work .mochad) ++
        .hear 2 .mqttConnected :: List.replicate 2 (.work .mqtt) ++
        [.hear 3 .mochadDisconnected, .work .mochad])
    ∃ n k, ¬ Converges (Run.exec (move {}) m
      (.work .mochad :: (List.replicate n (.work .mochad) ++ List.replicate k (.work .mqtt)))) := by
  have hinit : (Bridge.init {} (.plain "A1:Lamp") none 0 .absent).map (fun s₀ =>
      let m₁ := Run.exec (move {}) (start s₀)
        (.hear 1 .mochadConnected :: List.replicate 6 (.work .mochad))
      let m₂ := Run.exec (move {}) m₁ (.hear 2 .mqttConnected :: List.replicate 2 (.work .mqtt))
      let m₃ := Run.exec (move {}) m₂ [.hear 3 .mochadDisconnected, .work .mochad]
      decide (m₁.tasks .mochad = [] ∧ m₂.tasks .mochad = [] ∧
        (Run.exec (move {}) m₂ [.hear 3 .mochadDisconnected]).tasks .mochad =
          [.transport 3 .mochadDisconnected, .call 3 .mochadDisconnected,
            .finish 3 .mochadDisconnected] ∧
        m₃.tasks .mochad = [.call 3 .mochadDisconnected, .finish 3 .mochadDisconnected] ∧
        (.act 2 (.publishAvailability true)) ∈ m₃.tasks .mqtt ∧
        m₃.bridge.mqtt.connected = true ∧
        (m₃.bridge.state.call Change.mochadDisconnected.call).1.available = false)) = .ok true := by
    decide +kernel
  obtain ⟨s₀, h₀, hfacts⟩ := map_ok hinit
  obtain ⟨hidle, hidle', hheard, hcall, hwaits, hconn, hdown⟩ := of_decide_eq_true hfacts
  refine ⟨s₀, h₀, ?_⟩
  rw [Run.exec, List.foldl_append, List.foldl_append]
  refine untimely_diverges h₀ (T := .mochad) ?_ fun htimely => ?_
  · refine ((Run.reaches_exec (meets_callback (T := .mochad) rfl rfl 1 6)).trans
      (Run.reaches_exec (meets_callback (T := .mqtt) hidle rfl 2 2))).trans
      (Run.reaches_exec ⟨trivial, ?_, trivial⟩)
    intro _ now c rest htasks
    cases (List.cons.inj (hheard.symm.trans htasks)).1
  · have := htimely hconn 3 _ _ hcall true ⟨2, hwaits⟩
    exact Bool.noConfusion (this.trans hdown)

end Runs

end Threads

end MochadBridge
