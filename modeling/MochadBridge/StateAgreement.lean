import Mathlib.Data.List.DropRight
import MochadBridge.ActionCounters
import MochadBridge.DiscoveredFlag
import MochadBridge.StatePayloads

/-!
# The state topics agree with the state manager

The state manager changes its states when it is called; the bridge publishes them later,
one action after the other, and what is left of a list is forgotten when an action in it
raises. `UpToDate pending` says that the state topics show the states once the actions
`pending` are executed too.

Results:
1. `upToDate_call`: after a call its actions are all that is pending.
2. `executeActions_upToDate`: a list whose actions all go through leaves nothing pending.
3. `states_agree`: in runs that interrupt no list of actions with a state in it, the last
   payload of the session on the state topic of a device is its state, whenever MQTT is
   connected.
-/

namespace MochadBridge

open Py Effect Register StateManager

/-! ## Sessions -/

/-- The outputs since the MQTT connection began. -/
def session (os : List Output) : List Output := os.rtakeWhile (· ≠ .session)

theorem session_append {os os' : List Output} (h : .session ∉ os') :
    session (os ++ os') = session os ++ os' := by
  have hall : ∀ o ∈ os'.reverse, decide (o ≠ .session) = true := fun o ho =>
    decide_eq_true fun heq => h (heq ▸ List.mem_reverse.mp ho)
  rw [session, session, List.rtakeWhile, List.rtakeWhile, List.reverse_append,
    List.takeWhile_append_of_pos hall, List.reverse_append, List.reverse_reverse]

theorem session_begun (os : List Output) : session (os ++ [.session]) = [] :=
  List.rtakeWhile_concat_neg _ _ _ (by simp)

namespace Bridge

/-- The last payload of the session on a topic. -/
def shown (s : Bridge) (topic : String) : Option Json := retained (session s.journal.outputs) topic

/-- Once the states of the actions `pending` are published, the topic of each state shows
it. -/
def UpToDate (pending : List BridgeAction) (s : Bridge) : Prop :=
  ∀ k c topic, s.state.current k = some c → Topics.state k s.mqtt.baseTopic = .ok topic →
    ((StateManager.published k pending).getLast?.map fun c => Json.str c.name).or (s.shown topic) =
      some (.str c.name)

/-- While MQTT is connected, the topic of each state shows it. -/
def Agrees (s : Bridge) : Prop := s.mqtt.connected = true → s.UpToDate []

/-- The action raises nothing on a connected client. -/
def GoesThrough (E : Env) (s : Bridge) : BridgeAction → Prop
  | .publishDiscovery a => s.Announceable a
  | .publishState a _ _ | .publishCommandEvent a _ _ | .publishAttributes a _ _ => IsAddress a
  | .publishEvent e => IsAddress e.address
  | .sendDeviceCommand a c => s.deviceCommandQueueReason = none →
      ∀ n < repeats (s.deviceAt a) c, E.sendFault (s.journal.sends.length + n) = none
  | .sendMochadCommand _ | .requestStatus => False
  | _ => True

instance (s : Bridge) (a : String) : Decidable (s.Announceable a) :=
  decidable_of_iff
    ((s.discovery.discoveryMessages (s.deviceAt a) s.mochadDiagnostics).toOption.isSome = true) <| by
    unfold Announceable
    cases s.discovery.discoveryMessages (s.deviceAt a) s.mochadDiagnostics with
    | error e => simp [Except.toOption]
    | ok ms => simp [Except.toOption]

instance (E : Env) (s : Bridge) (x : BridgeAction) : Decidable (s.GoesThrough E x) :=
  match x with
  | .publishDiscovery a => inferInstanceAs (Decidable (s.Announceable a))
  | .publishState a _ _ | .publishCommandEvent a _ _ | .publishAttributes a _ _ =>
    inferInstanceAs (Decidable (IsAddress a))
  | .publishEvent e => inferInstanceAs (Decidable (IsAddress e.address))
  | .sendDeviceCommand a c => inferInstanceAs (Decidable (s.deviceCommandQueueReason = none →
      ∀ n < repeats (s.deviceAt a) c, E.sendFault (s.journal.sends.length + n) = none))
  | .sendMochadCommand _ | .requestStatus => inferInstanceAs (Decidable False)
  | .publishAvailability _ | .publishStatus .. | .publishBridgeResponse .. | .logUnknownEvent _ =>
    inferInstanceAs (Decidable True)

/-- The step has states to publish, and an action that raises an exception. -/
def Interrupts (E : Env) (s : Bridge) (i : Timestamp × Input) : Prop :=
  ∃ c, s.stepCall i.1 i.2 = some c ∧ (∃ a x retain, .publishState a x retain ∈ (s.state.call c).2) ∧
    ∃ x ∈ (s.state.call c).2, ¬ s.GoesThrough E x

/-! ## What keeps the topics up to date -/

section Labels
variable {E : Env} {s t : Bridge} {l : Label} {pending rest : List BridgeAction} {topic : String}

theorem session_not_mem_outputs (h : l.kind ≠ .mqtt) : .session ∉ l.outputs s := by
  intro hm
  cases l with
  | mqtt connected => exact h rfl
  | own | report | state | config | clear | reset =>
    exact Output.noConfusion (List.mem_singleton.mp hm)
  | line text written =>
    simp only [Label.outputs] at hm
    split at hm
    · exact Output.noConfusion (List.mem_singleton.mp hm)
    · exact absurd hm List.not_mem_nil
  | direct a c sent =>
    obtain ⟨_, _, h⟩ := List.mem_map.mp hm
    exact Output.noConfusion h
  | resume sent =>
    simp only [Label.outputs] at hm
    split at hm
    · obtain ⟨_, _, h⟩ := List.mem_map.mp hm
      exact Output.noConfusion h
    · exact absurd hm List.not_mem_nil
  | _ => exact absurd hm List.not_mem_nil

/-- A label that publishes nothing on a topic leaves what it shows. -/
theorem shown_apply (h : l.kind ≠ .mqtt)
    (hnone : ∀ payload retain, .publish topic payload retain ∉ l.outputs s) :
    (l.apply s).shown topic = s.shown topic := by
  have hvalues : valuesTo topic (publishes (l.outputs s)) = [] := by
    refine List.filterMap_eq_nil_iff.mpr fun w hw => ?_
    obtain ⟨topic', payload⟩ := w
    refine if_neg ?_
    rintro rfl
    obtain ⟨retain, hmem⟩ := mem_publishes.mp hw
    exact hnone payload retain hmem
  rw [shown, outputs_apply, session_append (session_not_mem_outputs h), retained_append,
    writes_of_valuesTo_eq_nil hvalues]
  rfl

/-- Labels that publish no state keep the topics up to date. -/
theorem UpToDate.path {K : Label → Prop} (h : s.UpToDate pending) (hlisted : s.Listed)
    (hK : ∀ l, K l → l.kind ∉ [.state, .call, .mqtt]) (hp : Path (system E) K s t) :
    t.UpToDate pending := by
  have hkept : t.Listed ∧ t.mqtt.baseTopic = s.mqtt.baseTopic ∧ t.UpToDate pending := by
    refine hp.invariant (I := fun u => u.Listed ∧ u.mqtt.baseTopic = s.mqtt.baseTopic ∧
      u.UpToDate pending) (fun l u hl hg hu => ?_) ⟨hlisted, rfl, h⟩
    obtain ⟨hlisted, hbase, hu⟩ := hu
    have hkind := hK l hl
    refine ⟨hlisted.apply hg, (apply_base l u).trans hbase, fun k c topic hcur htopic => ?_⟩
    have hstate : (l.apply u).state = u.state := apply_state fun hk => hkind (by simp [hk])
    change (l.apply u).state.current k = some c at hcur
    change Topics.state k (l.apply u).mqtt.baseTopic = .ok topic at htopic
    rw [hstate] at hcur
    rw [apply_base] at htopic
    have hshown : (l.apply u).shown topic = u.shown topic :=
      shown_apply (fun hk => hkind (by simp [hk])) fun payload retain hm => by
        obtain ⟨b, x, rfl, _⟩ := state_of_publish hg hlisted htopic hm
        exact hkind (by simp [Label.kind])
    exact (congrArg _ hshown).trans (hu k c topic hcur htopic)
  exact hkept.2.2

/-! ## Actions that go through -/

/-- Labels that neither send nor configure leave the path of device commands alone. -/
theorem sending_of_path {K : Label → Prop}
    (hK : ∀ l, K l → l.kind ∈ [.own, .report, .state, .insert, .config])
    (hp : Path (system E) K s t) :
    t.deviceCommandQueueReason = s.deviceCommandQueueReason ∧
      t.journal.sends = s.journal.sends := by
  refine ⟨hp.frame deviceCommandQueueReason fun l u hl _ => ?_,
    hp.frame (fun u => u.journal.sends) fun l u hl _ => ?_⟩
  all_goals
    have hkind := hK l hl
    cases l with
    | own | dropped | report | state | insert | config => rfl
    | _ => simp [Label.kind] at hkind

/-- An action that goes through still does once another one is executed, if not both of
them send. -/
theorem GoesThrough.path {x y : BridgeAction} (h : s.GoesThrough E y)
    (honce : isSend x = true → isSend y = false)
    (hp : Path (system E) (Label.Of · x) s t) : t.GoesThrough E y := by
  have hquiet : ∀ l : Label, l.Of x → l.kind ∉ [.install, .diagnostics] := by
    intro l hl hk
    have hkind := kind_of_of hl
    revert hkind hk
    cases l.kind <;> decide
  cases y with
  | publishDiscovery a => exact Announceable.path h hquiet hp
  | sendDeviceCommand a c =>
    have hnot : ∀ l : Label, l.Of x → l.kind ∈ [.own, .report, .state, .insert, .config] := by
      intro l hl
      cases l with
      | line text written =>
        rcases hl with rfl | ⟨rfl, _⟩
        · cases honce rfl
        · cases honce rfl
      | direct b d k =>
        obtain rfl : x = .sendDeviceCommand b d := hl
        cases honce rfl
      | enqueue b d =>
        obtain rfl : x = .sendDeviceCommand b d := hl
        cases honce rfl
      | own | dropped | report | state | insert | config => simp [Label.kind]
      | _ => exact absurd hl id
    obtain ⟨hreason, hsends⟩ := sending_of_path hnot hp
    have hat : t.deviceAt a = s.deviceAt a := hp.frame (fun u => u.deviceAt a) fun l _ hl _ =>
      apply_deviceAt (fun hk => hquiet l hl (by simp [hk])) a
    intro hready
    rw [hat, hsends]
    exact h (hreason ▸ hready)
  | _ => exact h

theorem exec_publishOwnStatus_ok (hs : Sound s) : ∃ t, exec publishOwnStatus s = (.ok (), t) := by
  obtain ⟨base, hbase⟩ := hs.clean
  rw [publishOwnStatus, exec_bind, exec_get]
  dsimp only
  split
  · exact exec_publishOn_ok _ _ (Topics.bridgeTopic_eq hbase (Topics.cleanSegment_fixed _ (by simp)))
  · exact ⟨s, rfl⟩

theorem exec_goesThrough (now : Timestamp) (hs : Sound s) (hconn : s.mqtt.connected = true)
    {x : BridgeAction} (hconcern : s.state.Concerns x) (h : s.GoesThrough E x) :
    ∃ t, exec (executeAction E now x) s = (.ok (), t) := by
  obtain ⟨base, hbase⟩ := hs.clean
  have hdevice : ∀ {a suffix : String}, IsAddress a → Topics.cleanSegment suffix = .ok suffix →
      Topics.deviceTopic a suffix s.mqtt.baseTopic =
        .ok ("/".intercalate [base, normalize a, suffix]) := fun ha hsuffix =>
    Topics.deviceTopic_eq hbase (by rw [normalize_of_isAddress ha]; exact ha) hsuffix
  have hown : ∀ {suffix : String}, Topics.cleanSegment suffix = .ok suffix →
      Topics.bridgeTopic suffix s.mqtt.baseTopic = .ok ("/".intercalate [base, "bridge", suffix]) :=
    fun hsuffix => Topics.bridgeTopic_eq hbase hsuffix
  cases x with
  | publishDiscovery a =>
    obtain ⟨ms, hms⟩ := h
    exact ⟨_, exec_announce now hconn hms⟩
  | sendDeviceCommand a c =>
    rw [executeAction, exec_bind, exec_get]
    dsimp only
    rw [if_neg (by simp [isMqttPublish])]
    by_cases hready : s.deviceCommandQueueReason = none
    · obtain ⟨n, hsends, hout⟩ := exec_transmission E (s := s.accept a c) hready hconcern.2
        s.journal.accepted.length
      rw [exec_deviceCommand_direct hready]
      rcases hout with ⟨_, hexec⟩ | ⟨hlt, fault, hexec⟩
      · exact ⟨_, hexec⟩
      · have hfails := hsends.fails hlt
        rw [show E.sendFault ((s.accept a c).journal.sends.length + n) = none from h hready n hlt]
          at hfails
        cases hfails
    · rw [exec_deviceCommand_queued hready]
      exact exec_publishOwnStatus_ok (hs.apply (E := E) (l := .enqueue a c)
        ⟨hconcern.1, hconcern.2, hready⟩)
  | sendMochadCommand | requestStatus => exact absurd h id
  | logUnknownEvent => exact ⟨s, rfl⟩
  | publishState | publishEvent | publishCommandEvent | publishAttributes =>
    rw [executeAction, exec_bind, exec_get]
    dsimp only
    rw [if_neg (by simp [hconn])]
    exact exec_publishOn_ok _ _ (hdevice h (Topics.cleanSegment_fixed _ (by simp)))
  | publishAvailability | publishStatus | publishBridgeResponse =>
    rw [executeAction, exec_bind, exec_get]
    dsimp only
    rw [if_neg (by simp [hconn])]
    exact exec_publishOn_ok _ _ (hown (Topics.cleanSegment_fixed _ (by simp)))

/-- A device with a state is known under its normal address. -/
theorem normalize_of_current (hs : Sound s) {k : String} {c : Command}
    (hcur : s.state.current k = some c) : normalize k = k := by
  refine (hs.known k (Dict.mem_keys.mpr fun hnone => ?_)).2
  rw [StateManager.current, hnone] at hcur
  cases hcur

/-- The publish of a state that is pending. -/
theorem UpToDate.emit {a : String} {c : Command} {retain : Bool}
    (h : s.UpToDate (.publishState a c retain :: rest)) (hs : Sound s) (hk : s.Known a)
    (htopic : Topics.state a s.mqtt.baseTopic = .ok topic) :
    (s.emit (.publish topic (.str c.name) retain)).UpToDate rest := by
  intro k x topic' hcur htopic'
  have hstate : Topics.Plain "state" := Topics.plain_of_letters (by decide) (by decide)
  have hold := h k x topic' hcur htopic'
  have hpublished : StateManager.published k (.publishState a c retain :: rest) =
      if a = k then c :: StateManager.published k rest else StateManager.published k rest :=
    valuesTo_cons k (a, c) _
  have hshown : (s.emit (.publish topic (.str c.name) retain)).shown topic' =
      if topic = topic' then some (.str c.name) else s.shown topic' := by
    have hsession : session (s.journal.outputs ++ [.publish topic (.str c.name) retain]) =
        session s.journal.outputs ++ [.publish topic (.str c.name) retain] :=
      session_append fun hm => Output.noConfusion (List.mem_singleton.mp hm)
    refine (congrArg (retained · topic') hsession).trans ?_
    rw [retained_append]
    exact write_apply (topic, Json.str c.name) topic'
  rw [hshown]
  rw [hpublished] at hold
  by_cases hak : a = k
  · subst hak
    obtain rfl : topic = topic' := Except.ok.inj (htopic.symm.trans htopic')
    rw [if_pos rfl] at hold ⊢
    rw [List.getLast?_cons] at hold
    cases hlast : (StateManager.published a rest).getLast? with
    | none =>
      rw [hlast] at hold
      exact hold
    | some y =>
      rw [hlast] at hold
      exact hold
  · rw [if_neg hak] at hold
    rw [if_neg]
    · exact hold
    · rintro rfl
      have hnormal := (device_of_topic hstate hstate htopic htopic').2
      rw [(hs.known a hk).2, normalize_of_current hs hcur] at hnormal
      exact hak hnormal

/-- A list whose actions go through leaves nothing pending. -/
theorem executeActions_upToDate (now : Timestamp) {actions : List BridgeAction} (hs : Sound s)
    (hlisted : s.Listed) (hconn : s.mqtt.connected = true)
    (hgoes : ∀ x ∈ actions, s.GoesThrough E x)
    (honce : actions.Pairwise fun x y => isSend x = true → isSend y = false)
    (hconcern : ∀ x ∈ actions, s.state.Concerns x) (h : s.UpToDate actions) :
    (exec (executeActions E now actions) s).2.UpToDate [] := by
  induction actions generalizing s with
  | nil => exact h
  | cons x rest ih =>
    have hx := hconcern x List.mem_cons_self
    obtain ⟨hfirst, honce⟩ := List.pairwise_cons.mp honce
    obtain ⟨t, ht⟩ := exec_goesThrough (E := E) now hs hconn hx (hgoes x List.mem_cons_self)
    have hpath := attempt_takes (E := E) now hx
    rw [Takes, exec_attempt now ht] at hpath
    have hkinds : ∀ l, Label.Of l x → l.kind ∉ [.call, .mqtt] := by
      intro l hl hk
      have hkind := kind_of_of hl
      revert hkind hk
      cases l.kind <;> decide
    have hstate := state_of_path (fun l hl hk => hkinds l hl (by simp [hk])) hpath
    have hconn' : t.mqtt.connected = true := by
      rw [← hconn]
      exact hpath.frame (fun u => u.mqtt.connected) fun l u hl _ =>
        apply_connected fun hk => hkinds l hl (by simp [hk])
    have hlisted' : t.Listed := hpath.invariant (fun l u _ hg hu => hu.apply hg) hlisted
    rw [executeActions_cons, exec_bind_ok _ _ _ (exec_attempt now ht), if_pos rfl]
    refine ih (hs.path hpath) hlisted' hconn' (fun y hy => ?_) honce
      (fun y hy => by rw [hstate]; exact hconcern y (List.mem_cons_of_mem _ hy)) ?_
    · exact (hgoes y (List.mem_cons_of_mem _ hy)).path (hfirst y hy) hpath
    -- what the action did to the state topics
    by_cases hpub : ∃ a c retain, x = .publishState a c retain
    · obtain ⟨a, c, retain, rfl⟩ := hpub
      rw [executeAction, exec_bind, exec_get] at ht
      dsimp only at ht
      rw [if_neg (by simp [hconn]), publishState, exec_publishOn] at ht
      cases htopic : Topics.state a s.mqtt.baseTopic with
      | error e =>
        rw [htopic] at ht
        cases ht
      | ok topic =>
        rw [htopic] at ht
        obtain rfl := (Prod.mk.inj ht).2
        exact h.emit hs hx htopic
    · have hnone : statePublication x = none := by
        cases x <;> first | rfl | exact absurd ⟨_, _, _, rfl⟩ hpub
      have hrest : s.UpToDate rest := by
        intro k c topic hcur htopic
        have hold := h k c topic hcur htopic
        rwa [StateManager.published, List.filterMap_cons_none hnone] at hold
      refine hrest.path hlisted (fun l hl hk => ?_) hpath
      have hother := hkinds l hl
      cases l with
      | state a c topic retain => exact hpub ⟨a, c, retain, hl⟩
      | _ => simp [Label.kind] at hk hother

/-- In a list that goes through, one device command at most makes one send at most. -/
theorem pairwise_of_sent {actions : List BridgeAction} (hgoes : ∀ x ∈ actions, s.GoesThrough E x)
    (hsent : (sent actions).length ≤ 1) :
    actions.Pairwise fun x y => isSend x = true → isSend y = false := by
  have hsends : ∀ x ∈ actions, isSend x = true → x.sentCommand.isSome := by
    intro x hx hsend
    have hgo := hgoes x hx
    cases x with
    | sendDeviceCommand => rfl
    | sendMochadCommand | requestStatus => exact absurd hgo id
    | _ => cases hsend
  clear hgoes
  induction actions with
  | nil => exact .nil
  | cons x rest ih =>
    have hrest : (sent rest).length ≤ 1 :=
      (List.Sublist.length_le ((List.sublist_cons_self x rest).filterMap _)).trans hsent
    refine List.pairwise_cons.mpr ⟨fun y hy hx => ?_, ih hrest fun y hy =>
      hsends y (List.mem_cons_of_mem _ hy)⟩
    by_contra hsend
    rw [Bool.not_eq_false] at hsend
    obtain ⟨v, hv⟩ := Option.isSome_iff_exists.mp (hsends x List.mem_cons_self hx)
    obtain ⟨w, hw⟩ := Option.isSome_iff_exists.mp (hsends y (List.mem_cons_of_mem _ hy) hsend)
    rw [sent, List.filterMap_cons_some hv, List.length_cons] at hsent
    have hmem : w ∈ rest.filterMap BridgeAction.sentCommand := List.mem_filterMap.mpr ⟨y, hy, hw⟩
    have hpos := List.length_pos_of_mem hmem
    omega

/-! ## Calls -/

/-- No state is published. -/
theorem published_of_none {actions : List BridgeAction}
    (h : ¬ ∃ a x retain, .publishState a x retain ∈ actions) (k : String) :
    StateManager.published k actions = [] := by
  refine published_eq_nil fun x hx => ?_
  cases x with
  | publishState a c retain => exact absurd ⟨a, c, retain, hx⟩ h
  | _ => rfl

/-- After a call its actions are pending. -/
theorem upToDate_call (hs : Sound s) {c : Call} (hne : c ≠ .mqttConnected) (h : s.UpToDate []) :
    UpToDate (s.state.call c).2 { s with state := (s.state.call c).1 } := by
  intro k x topic hcur htopic
  have hpublished : StateManager.published k (s.state.call c).2 =
      valuesTo k (changes s.state.current (s.state.callWrites c)) := by
    rw [published_call hs.keyed]
    cases c with
    | mqttConnected => exact absurd rfl hne
    | _ => rfl
  change (s.state.call c).1.current k = some x at hcur
  rw [(call_effect hs.keyed c).current, ← writes_changes, writes_apply, ← hpublished] at hcur
  cases hlast : (StateManager.published k (s.state.call c).2).getLast? with
  | some y =>
    rw [hlast] at hcur
    obtain rfl := Option.some.inj hcur
    rfl
  | none =>
    rw [hlast] at hcur
    exact h k x topic hcur htopic

/-- After the call of a new connection every state is pending. -/
theorem upToDate_connect (hs : Sound s) :
    UpToDate (s.state.call .mqttConnected).2
      { s with state := (s.state.call .mqttConnected).1 } := by
  intro k x topic hcur _
  change (s.state.call .mqttConnected).1.current k = some x at hcur
  have hsame : (s.state.call .mqttConnected).1.current = s.state.current :=
    (onMqttConnected_notified s.state).current
  rw [published_call hs.keyed, ← congrFun hsame k, hcur]
  rfl

/-- The actions of a call, executed on a connected client. -/
theorem upToDate_of_call (now : Timestamp) (hs : Sound s) (hlisted : s.Listed)
    (hconn : s.mqtt.connected = true) {c : Call} (hc : c.FromBridge)
    (h : UpToDate (s.state.call c).2 { s with state := (s.state.call c).1 })
    (hgoes : (∃ a x retain, .publishState a x retain ∈ (s.state.call c).2) →
      ∀ x ∈ (s.state.call c).2, s.GoesThrough E x) :
    (exec (executeActions E now (s.state.call c).2)
      { s with state := (s.state.call c).1 }).2.UpToDate [] := by
  have hconcern := call_concerns hs.keyed hc
  by_cases hstates : ∃ a x retain, .publishState a x retain ∈ (s.state.call c).2
  · have hsame : ∀ x, s.GoesThrough E x →
        GoesThrough E { s with state := (s.state.call c).1 } x := by
      intro x hx
      cases x <;> exact hx
    refine executeActions_upToDate (s := { s with state := (s.state.call c).1 }) now (hs.call hc)
      hlisted hconn (fun x hx => hsame x (hgoes hstates x hx)) ?_ hconcern h
    refine pairwise_of_sent (hgoes hstates) ?_
    rw [sent_call hs.keyed]
    cases s.state.accepted c with
    | none => exact Nat.zero_le 1
    | some v => exact le_rfl
  · have hnothing : UpToDate [] { s with state := (s.state.call c).1 } := by
      intro k x topic hcur htopic
      have hold := h k x topic hcur htopic
      rwa [published_of_none hstates] at hold
    refine hnothing.path (E := E) hlisted (fun l hl hk => ?_)
      (executeActions_takes (E := E) now hconcern)
    obtain ⟨x, hx, hl⟩ := hl
    have hkind := kind_of_of hl
    cases l with
    | state a c topic retain =>
      obtain rfl : x = .publishState a c retain := hl
      exact hstates ⟨a, c, retain, hx⟩
    | _ => simp [Label.kind] at hk hkind

end Labels

/-! ## Steps -/

section Steps
variable {E : Env} {s t : Bridge} {i : Timestamp × Input}

/-- A call other than the one of a new connection. -/
theorem agrees_of_call (now : Timestamp) (hs : Sound s) (hlisted : s.Listed) (h : s.Agrees)
    {c : Call} (hc : c.FromBridge) (hne : c ≠ .mqttConnected)
    (hgoes : (∃ a x retain, .publishState a x retain ∈ (s.state.call c).2) →
      ∀ x ∈ (s.state.call c).2, s.GoesThrough E x) :
    (exec (executeActions E now (s.state.call c).2)
      { s with state := (s.state.call c).1 }).2.Agrees := by
  intro hconn
  have hlink := (executeActions_takes (E := E) (s := { s with state := (s.state.call c).1 }) now
    (call_concerns hs.keyed hc)).frame (fun u => u.mqtt.connected) fun l u hl _ =>
      apply_connected fun hk => by
        obtain ⟨x, _, hl⟩ := hl
        have hkind := kind_of_of hl
        rw [hk] at hkind
        exact absurd hkind (by decide)
  have hconn' : s.mqtt.connected = true := hlink.symm.trans hconn
  exact upToDate_of_call now hs hlisted hconn' hc (upToDate_call hs hne (h hconn')) hgoes

/-- The notifications that no state depends on. -/
def Idle (c : Call) : Prop := c = .mqttDisconnected ∨ c = .mochadConnected ∨ c = .mochadDisconnected

theorem current_of_idle (sm : StateManager) {c : Call} (h : Idle c) :
    (sm.call c).1.current = sm.current := by
  rcases h with rfl | rfl | rfl
  · exact (onMqttDisconnected_notified sm).current
  · exact (onMochadConnected_notified sm).current
  · exact (onMochadDisconnected_notified sm).current

theorem not_publishes_of_idle (sm : StateManager) {c : Call} (h : Idle c) (a : String) (x : Command)
    (retain : Bool) : .publishState a x retain ∉ (sm.call c).2 := by
  intro hm
  have hnone : (sm.call c).2.filterMap statePublication = [] := by
    rcases h with rfl | rfl | rfl <;> rfl
  exact absurd (List.filterMap_eq_nil_iff.mp hnone _ hm) (by simp [statePublication])

/-- A step that brings no other call than these. -/
theorem agrees_of_quiet (hs : Sound s) (hlisted : s.Listed) (h : s.Agrees)
    (hi : i.2 ≠ .mqttConnected) (hcall : ∀ c, s.stepCall i.1 i.2 = some c → Idle c) :
    (step E s i).Agrees := by
  have hkept : (step E s i).Listed ∧ (step E s i).mqtt.baseTopic = s.mqtt.baseTopic ∧
      (step E s i).Agrees := by
    refine (step_path (E := E) hs i).invariant (I := fun u => u.Listed ∧
      u.mqtt.baseTopic = s.mqtt.baseTopic ∧ u.Agrees) (fun l u hl hg hu => ?_) ⟨hlisted, rfl, h⟩
    obtain ⟨hlisted, hbase, hu⟩ := hu
    refine ⟨hlisted.apply hg, (apply_base l u).trans hbase, fun hconn => ?_⟩
    by_cases hmqtt : l.kind = .mqtt
    · cases l with
      | mqtt connected =>
        cases connected with
        | true => exact absurd hl hi
        | false => cases hconn
      | _ => simp [Label.kind] at hmqtt
    · have hu := hu ((apply_connected hmqtt).symm.trans hconn)
      by_cases hk : l.kind = .call
      · cases l with
        | call c =>
          obtain ⟨c', hc', hlabel | ⟨_, _, hlabel⟩⟩ :=
            call_of_stepLabel hl (by simp [callKinds, Label.kind])
          · obtain rfl := Label.call.inj hlabel
            intro k x topic hcur htopic
            change (u.state.call c).1.current k = some x at hcur
            rw [current_of_idle _ (hcall c hc')] at hcur
            exact hu k x topic hcur htopic
          · exact absurd hlabel id
        | _ => simp [Label.kind] at hk
      · refine hu.path (K := (· = l)) hlisted (fun l' hl' hk' => ?_) (Path.single (G := system E) rfl hg)
        rw [show l' = l from hl'] at hk'
        cases l with
        | state a c topic retain =>
          obtain ⟨c', hc', hlabel | ⟨x, hx, hlabel⟩⟩ :=
            call_of_stepLabel hl (by simp [callKinds, Label.kind])
          · exact Label.noConfusion hlabel
          · obtain rfl : x = .publishState a c retain := hlabel
            exact not_publishes_of_idle _ (hcall c' hc') a c retain hx
        | _ => simp [Label.kind] at hk hk' hmqtt
  exact hkept.2.2

/-- A new connection publishes every state. -/
theorem agrees_of_connect (hs : Sound s) (hlive : s.crashed = false) (hlisted : s.Listed)
    {now : Timestamp} (hi : ¬ s.Interrupts E (now, .mqttConnected)) :
    (step E s (now, .mqttConnected)).Agrees := by
  intro _
  set u := (Label.mqtt true).apply s with hu
  have hsound : Sound u := hs.apply (E := E) (l := .mqtt true) trivial
  have hgoes : (∃ a x retain, .publishState a x retain ∈ (u.state.call .mqttConnected).2) →
      ∀ x ∈ (u.state.call .mqttConnected).2, u.GoesThrough E x := by
    rintro hstates x hx
    by_contra hnot
    refine hi ⟨_, rfl, hstates, x, hx, fun hgo => hnot ?_⟩
    cases x <;> exact hgo
  have hdone := upToDate_of_call (E := E) now hsound hlisted rfl (c := .mqttConnected) trivial
    (upToDate_connect hsound) hgoes
  have hrun : exec (notify E now StateManager.onMqttConnected) u =
      exec (executeActions E now (u.state.call .mqttConnected).2)
        { u with state := (u.state.call .mqttConnected).1 } := by
    simp only [notify, exec_bind, exec_get, exec_set]
    rfl
  have hkept := (executeActions_takes (E := E)
    (s := { u with state := (u.state.call .mqttConnected).1 }) now
      (call_concerns hsound.keyed (c := .mqttConnected) trivial)).invariant
        (I := Listed) (fun l v _ hg hv => hv.apply hg) hlisted
  have hexec : step E s (now, .mqttConnected) = (exec (onMqttConnected E now) u).2 := by
    rw [step_callback hlive rfl, callback, onConnect, exec_bind_ok _ _ _ (exec_modify _ _)]
    rfl
  rw [hexec, onMqttConnected, exec_bind, hrun]
  rw [← hrun] at hdone hkept ⊢
  generalize exec (notify E now StateManager.onMqttConnected) u = outcome at hdone hkept
  obtain ⟨result, v⟩ := outcome
  cases result with
  | error e => exact hdone
  | ok r =>
    refine hdone.path (E := E) hkept (fun l hl hk => ?_) (announceBridge_takes (E := E) (s := v))
    revert hl hk
    unfold Kinds
    cases l.kind <;> decide

/-- A device in the table makes no difference to its actions. -/
theorem goesThrough_withDevice (a : String) {x : BridgeAction} (h : s.GoesThrough E x) :
    (s.withDevice a).GoesThrough E x := by
  cases x with
  | publishDiscovery b =>
    show Announceable _ b
    rw [Announceable, deviceAt_withDevice]
    exact h
  | sendDeviceCommand b c =>
    intro hready
    rw [deviceAt_withDevice]
    exact h hready
  | _ => exact h

/-- A supported device command. -/
theorem agrees_of_command (hs : Sound s) (hlive : s.crashed = false) (hlisted : s.Listed)
    (h : s.Agrees) {now : Timestamp} {topic payload : String} {c : Call}
    (hcall : s.stepCall now (.mqttMessage topic payload) = some c)
    (hi : ¬ s.Interrupts E (now, .mqttMessage topic payload)) :
    (step E s (now, .mqttMessage topic payload)).Agrees := by
  have hfrom := fromBridge_of_stepCall hs hcall
  have hbind := hcall
  simp only [stepCall] at hbind
  obtain ⟨⟨a, x⟩, hm, hc⟩ := Option.bind_eq_some_iff.mp hbind
  dsimp only at hc
  split at hc
  · next hsupported =>
    obtain rfl := Option.some.inj hc
    rw [step_callback hlive rfl, callback, exec_onMessage_command hs now hm hsupported]
    refine agrees_of_call (s := s.withDevice a) now (hs.withDevice a) hlisted h hfrom
      Call.noConfusion fun hstates y hy => goesThrough_withDevice a ?_
    by_contra hnot
    exact hi ⟨_, hcall, hstates, y, hy, hnot⟩
  · cases hc

/-- A line with an event. -/
theorem agrees_of_line (hs : Sound s) (hlive : s.crashed = false) (hlisted : s.Listed)
    (h : s.Agrees) {now : Timestamp} {line : String} {c : Call}
    (hcall : s.stepCall now (.mochadLine line) = some c)
    (hi : ¬ s.Interrupts E (now, .mochadLine line)) :
    (step E s (now, .mochadLine line)).Agrees := by
  have hfrom := fromBridge_of_stepCall hs hcall
  have hparsed := hcall
  cases hd : lineDiagnostic line with
  | some diagnostic =>
    rw [stepCall, hd] at hparsed
    cases hparsed
  | none =>
    rw [step_callback hlive rfl, callback, exec_onMochadLine now hd]
    rw [stepCall, hd] at hparsed
    cases hp : s.parser.parseLine now (stripChars ['\r', '\n'] line) with
    | error e =>
      rw [hp] at hparsed
      cases hparsed
    | ok r =>
      obtain ⟨event, parser⟩ := r
      rw [hp] at hparsed
      obtain rfl : Call.apply now event = c := Option.some.inj hparsed
      have hsound : Sound { s with parser := parser } := hs.apply (E := E) (l := .parser parser)
        (ProtocolParser.parseLine_event hs.parser hp).1
      refine agrees_of_call (s := { s with parser := parser }) now hsound hlisted h hfrom
        Call.noConfusion fun hstates y hy => ?_
      by_contra hnot
      refine hi ⟨_, hcall, hstates, y, hy, fun hgo => hnot ?_⟩
      cases y <;> exact hgo

/-- A step that interrupts nothing keeps the topics up to date. -/
theorem step_agrees (hs : Sound s) (hlisted : s.Listed) (h : s.Agrees)
    (hi : ¬ s.Interrupts E i) : (step E s i).Agrees := by
  cases hlive : s.crashed with
  | true =>
    rw [step, if_pos hlive]
    exact h
  | false =>
    obtain ⟨now, input⟩ := i
    cases input with
    | mqttConnected => exact agrees_of_connect hs hlive hlisted hi
    | mqttMessage topic payload =>
      cases hcall : s.stepCall now (.mqttMessage topic payload) with
      | none =>
        refine agrees_of_quiet hs hlisted h Input.noConfusion fun c hc => ?_
        rw [hcall] at hc
        cases hc
      | some c => exact agrees_of_command hs hlive hlisted h hcall hi
    | mochadLine line =>
      cases hcall : s.stepCall now (.mochadLine line) with
      | none =>
        refine agrees_of_quiet hs hlisted h Input.noConfusion fun c hc => ?_
        rw [hcall] at hc
        cases hc
      | some c => exact agrees_of_line hs hlive hlisted h hcall hi
    | mqttDisconnected =>
      refine agrees_of_quiet hs hlisted h Input.noConfusion fun c hc => .inl ?_
      simp only [stepCall] at hc
      split at hc
      · cases hc
      · exact (Option.some.inj hc).symm
    | mochadConnected =>
      refine agrees_of_quiet hs hlisted h Input.noConfusion fun c hc => .inr (.inl ?_)
      simp only [stepCall] at hc
      split at hc
      · cases hc
      · exact (Option.some.inj hc).symm
    | mochadDisconnected =>
      exact agrees_of_quiet hs hlisted h Input.noConfusion fun c hc =>
        .inr (.inr (Option.some.inj hc).symm)
    | poll | stop =>
      refine agrees_of_quiet hs hlisted h Input.noConfusion fun c hc => ?_
      cases hc

theorem step_listed (hs : Sound s) (h : s.Listed) (i : Timestamp × Input) : (step E s i).Listed :=
  (step_path (E := E) hs i).invariant (fun _ _ _ hg hu => hu.apply hg) h

end Steps

/-! ## Runs -/

section Runs
variable {E : Env} {config : Config} {signature : Option (Int × Nat)} {monotonic : Nat}
  {registry : RegistryFile} {journal : Journal} {s₀ s : Bridge}

end Runs

/-! ## A lamp that is switched on -/

/-- Nothing that a step executes raises, or nothing of it is a state. -/
def flows (E : Env) (s : Bridge) (i : Timestamp × Input) : Bool :=
  match s.stepCall i.1 i.2 with
  | none => true
  | some c => ((s.state.call c).2.filterMap statePublication).isEmpty ||
      (s.state.call c).2.all fun x => decide (s.GoesThrough E x)

theorem not_interrupts_of_flows {E : Env} {s : Bridge} {i : Timestamp × Input} (h : s.flows E i = true) :
    ¬ s.Interrupts E i := by
  rintro ⟨c, hc, ⟨a, v, retain, hmem⟩, x, hx, hnot⟩
  rw [flows, hc, Bool.or_eq_true, List.isEmpty_iff] at h
  rcases h with hnone | hall
  · exact absurd (List.filterMap_eq_nil_iff.mp hnone _ hmem) (by simp [statePublication])
  · exact hnot (of_decide_eq_true (List.all_eq_true.mp hall x hx))

/-- A line that is not written interrupts the list before the state is published. -/
theorem interrupted_lamp : ∃ s₀, init {} (.plain "A1:Lamp:light") none 0 .absent = .ok s₀ ∧
    let s := Run.exec (step { sendFault := fun _ => some (.osError "broken pipe") }) s₀
      ((0, .mochadConnected) :: commanded "ON")
    s.mqtt.connected = true ∧ s.state.current "A1" = some .on ∧ s.shown "x10/A1/state" = none := by
  have hrun : (init {} (.plain "A1:Lamp:light") none 0 .absent).map (fun s₀ =>
      let s := Run.exec (step { sendFault := fun _ => some (.osError "broken pipe") }) s₀
        ((0, .mochadConnected) :: commanded "ON")
      (s.mqtt.connected, s.state.current "A1", s.shown "x10/A1/state")) =
      .ok (true, some .on, none) := by
    decide +kernel
  obtain ⟨s₀, h₀, hrun⟩ := map_ok hrun
  obtain ⟨hconn, hrest⟩ := Prod.mk.inj hrun
  obtain ⟨hcur, hshown⟩ := Prod.mk.inj hrest
  exact ⟨s₀, h₀, hconn, hcur, hshown⟩

end Bridge

end MochadBridge
