import MochadBridge.DiscoveryOrder

/-!
# Commands and announcements

Two kinds of actions are counted by the state manager: the commands it sends, and
the announcements it asks for. A command is never held back, whatever the device
does; an announcement is made once for each connection.

Results:
1. `call_counted`: a call counts the commands and the announcements it returns.
2. `sent_call`, `commands_sent`: the commands of a run are the accepted ones.
3. `announced_call`, `announced_once`: a call announces a device that it marks, and
   so none twice between two connections.
-/

namespace MochadBridge

open Py StateManager

/-! ## Sent and announced -/

/-- The command that an action sends. -/
def BridgeAction.sentCommand : BridgeAction → Option (String × Command)
  | .sendDeviceCommand address command => some (address, command)
  | _ => none

/-- The device that an action announces. -/
def BridgeAction.announcedDevice : BridgeAction → Option String
  | .publishDiscovery address => some address
  | _ => none

/-- The commands among actions. -/
def sent (actions : List BridgeAction) : List (String × Command) :=
  actions.filterMap BridgeAction.sentCommand

/-- The announcements among actions. -/
def announced (actions : List BridgeAction) : List String :=
  actions.filterMap BridgeAction.announcedDevice

@[simp] theorem sent_append (l l' : List BridgeAction) : sent (l ++ l') = sent l ++ sent l' :=
  List.filterMap_append

@[simp] theorem announced_append (l l' : List BridgeAction) :
    announced (l ++ l') = announced l ++ announced l' := List.filterMap_append

@[simp] theorem sent_publications (ws : List (String × Command)) : sent (publications ws) = [] := by
  rw [sent, publications, List.filterMap_map, List.filterMap_eq_nil_iff]
  exact fun _ _ => rfl

@[simp] theorem announced_publications (ws : List (String × Command)) :
    announced (publications ws) = [] := by
  rw [announced, publications, List.filterMap_map, List.filterMap_eq_nil_iff]
  exact fun _ _ => rfl

@[simp] theorem sent_changes (st : DeviceState) (c : Command) (retain : Bool) :
    sent (st.changes c retain) = [] := by
  unfold DeviceState.changes
  split <;> rfl

@[simp] theorem announced_changes (st : DeviceState) (c : Command) (retain : Bool) :
    announced (st.changes c retain) = [] := by
  unfold DeviceState.changes
  split <;> rfl

@[simp] theorem sent_discovery (st : DeviceState) (m : Bool) : sent (st.discovery m) = [] := by
  unfold DeviceState.discovery
  split <;> rfl

namespace StateManager

variable {sm sm' sm'' : StateManager} {actions actions' : List BridgeAction}

/-! ## The counters -/

/-- The counters have grown by what the actions hold. -/
structure Counted (sm sm' : StateManager) (actions : List BridgeAction) : Prop where
  commands : sm'.statistics.commandsSent = sm.statistics.commandsSent + (sent actions).length
  discovery : sm'.statistics.discoveryMessages =
    sm.statistics.discoveryMessages + (announced actions).length

theorem Counted.of_same (hc : sm'.statistics.commandsSent = sm.statistics.commandsSent)
    (hd : sm'.statistics.discoveryMessages = sm.statistics.discoveryMessages)
    (hsent : sent actions = []) (hannounced : announced actions = []) : Counted sm sm' actions :=
  ⟨by rw [hc, hsent]; rfl, by rw [hd, hannounced]; rfl⟩

theorem Counted.refl (sm : StateManager) : Counted sm sm [] := .of_same rfl rfl rfl rfl

theorem Counted.append (h : Counted sm sm' actions) (h' : Counted sm' sm'' actions') :
    Counted sm sm'' (actions ++ actions') where
  commands := by rw [h'.commands, h.commands, sent_append, List.length_append, Nat.add_assoc]
  discovery := by
    rw [h'.discovery, h.discovery, announced_append, List.length_append, Nat.add_assoc]

theorem ensureDevice_statistics (a : String) : (sm.ensureDevice a).1.statistics = sm.statistics := by
  unfold ensureDevice
  split <;> rfl

theorem setDeviceState_counted (st : DeviceState) (c : Command) (t : Timestamp) (r p : Bool) :
    Counted sm (sm.setDeviceState st c t r p).1 (sm.setDeviceState st c t r p).2 := by
  rw [setDeviceState_actions]
  unfold setDeviceState
  dsimp only
  split <;> exact .of_same rfl rfl (sent_changes ..) (announced_changes ..)

theorem discoveryActions_counted (st : DeviceState) :
    Counted sm (sm.discoveryActions st).1 (sm.discoveryActions st).2.2 := by
  unfold discoveryActions
  split
  · exact .refl sm
  · exact ⟨rfl, rfl⟩

/-- The loop rule. -/
theorem foldl_counted {α : Type}
    {f : StateManager × List BridgeAction → α → StateManager × List BridgeAction}
    (hstep : ∀ sm actions x, ∃ more, (f (sm, actions) x).2 = actions ++ more ∧
      Counted sm (f (sm, actions) x).1 more) (xs : List α) (actions : List BridgeAction) :
    ∃ more, (xs.foldl f (sm, actions)).2 = actions ++ more ∧
      Counted sm (xs.foldl f (sm, actions)).1 more := by
  induction xs generalizing sm actions with
  | nil => exact ⟨[], (List.append_nil _).symm, .refl sm⟩
  | cons x xs ih =>
    obtain ⟨first, hfirst, hcounted⟩ := hstep sm actions x
    obtain ⟨more, hmore, hrest⟩ := @ih (f (sm, actions) x).1 (f (sm, actions) x).2
    exact ⟨first ++ more, by rw [List.foldl_cons, hmore, hfirst, List.append_assoc],
      hcounted.append hrest⟩

theorem applyDeviceEvent_counted (e : DeviceEvent) :
    Counted sm (sm.applyDeviceEvent e).1 (sm.applyDeviceEvent e).2 := by
  cases ha : sm.addressAllowed e.address with
  | false =>
    rw [applyDeviceEvent_denied ha]
    exact .refl sm
  | true =>
    -- the event is counted and its device found; neither is a counter of ours
    generalize hs₁ : ({ sm with
      statistics := { sm.statistics with eventsReceived := sm.statistics.eventsReceived + 1 } } :
      StateManager) = sm₁
    have hfound : (sm₁.ensureDevice e.address).1.statistics = sm₁.statistics :=
      ensureDevice_statistics e.address
    generalize hst : ({ (sm₁.ensureDevice e.address).2 with
      available := true, lastSeen := some e.timestamp } : DeviceState) = st
    generalize hs₂ : (sm₁.ensureDevice e.address).1.store st = sm₂
    have hstart : Counted sm sm₂ [] := by
      have hstats : sm₂.statistics = sm₁.statistics := by rw [← hs₂, ← hfound]; rfl
      refine .of_same ?_ ?_ rfl rfl
      · rw [hstats, ← hs₁]
      · rw [hstats, ← hs₁]
    have hdiscovery := hstart.append (discoveryActions_counted st)
    have hevent : Counted sm (sm₂.discoveryActions st).1
        ((sm₂.discoveryActions st).2.2 ++ [.publishEvent e]) := by
      have h := hdiscovery.append (.of_same rfl rfl (show sent [.publishEvent e] = [] from rfl) rfl)
      rwa [List.nil_append] at h
    simp only [applyDeviceEvent, ha, Bool.not_true, Bool.false_eq_true, if_false, hs₁, hst, hs₂]
    split
    · exact hevent
    · exact hevent.append (setDeviceState_counted ..)

theorem applyHouseEvent_counted (e : HouseEvent) :
    Counted sm (sm.applyHouseEvent e).1 (sm.applyHouseEvent e).2 := by
  have hstart : Counted sm { sm with statistics :=
      { sm.statistics with eventsReceived := sm.statistics.eventsReceived + 1 } } [] :=
    .of_same rfl rfl rfl rfl
  unfold applyHouseEvent
  split
  · exact .refl sm
  · dsimp only
    split
    · exact hstart
    · have hstep : ∀ sm actions st, ∃ more,
          (applyHouseCommand e.command e.timestamp (sm, actions) st).2 = actions ++ more ∧
            Counted sm (applyHouseCommand e.command e.timestamp (sm, actions) st).1 more := by
        intro sm actions st
        unfold applyHouseCommand
        dsimp only
        split
        · exact ⟨[], (List.append_nil _).symm, .refl sm⟩
        · split
          · exact ⟨[], (List.append_nil _).symm, .refl sm⟩
          · exact ⟨_, rfl, setDeviceState_counted ..⟩
      obtain ⟨more, hmore, hcounted⟩ := foldl_counted hstep (devicesForHouse { sm with statistics :=
        { sm.statistics with eventsReceived := sm.statistics.eventsReceived + 1 } } e.house) []
      rw [hmore, List.nil_append]
      exact hstart.append hcounted

theorem applyStatusSnapshot_counted (now : Timestamp) (snap : StatusSnapshot) :
    Counted sm (sm.applyStatusSnapshot now snap).1 (sm.applyStatusSnapshot now snap).2 := by
  have hstart : Counted sm { sm with statistics :=
      { sm.statistics with statusSyncs := sm.statistics.statusSyncs + 1 } } [] :=
    .of_same rfl rfl rfl rfl
  have hstep : ∀ sm actions entry, ∃ more,
      (applySnapshotEntry now (sm, actions) entry).2 = actions ++ more ∧
        Counted sm (applySnapshotEntry now (sm, actions) entry).1 more := by
    intro sm actions entry
    have hfound : Counted sm (sm.ensureDevice entry.1).1 [] :=
      .of_same (by rw [ensureDevice_statistics]) (by rw [ensureDevice_statistics]) rfl rfl
    unfold applySnapshotEntry
    dsimp only
    split
    · exact ⟨[], (List.append_nil _).symm, .refl sm⟩
    · split
      · exact ⟨[], (List.append_nil _).symm, hfound⟩
      · exact ⟨_, rfl, hfound.append (setDeviceState_counted ..)⟩
  obtain ⟨more, hmore, hcounted⟩ := foldl_counted hstep snap.devices.entries []
  unfold applyStatusSnapshot
  dsimp only
  rw [hmore, List.nil_append]
  exact hstart.append hcounted

theorem optimisticUpdate_counted (now : Timestamp) (a : String) (c : Command) :
    Counted sm (sm.optimisticUpdate now a c).1 (sm.optimisticUpdate now a c).2 := by
  have hfound : (sm.ensureDevice a).1.statistics = sm.statistics := ensureDevice_statistics a
  have hsame : Counted sm (sm.ensureDevice a).1 [] := .of_same (by rw [hfound]) (by rw [hfound]) rfl rfl
  unfold optimisticUpdate
  split
  · exact .refl sm
  · dsimp only
    split
    · exact hsame
    · -- the command is counted before the actions come
      generalize hst : ({ (sm.ensureDevice a).2 with pendingCommand := some c } : DeviceState) = st
      generalize hs₂ : (({ (sm.ensureDevice a).1 with statistics :=
        { (sm.ensureDevice a).1.statistics with
          commandsSent := (sm.ensureDevice a).1.statistics.commandsSent + 1 } } :
        StateManager).store st) = sm₂
      have hcommands : sm₂.statistics.commandsSent = sm.statistics.commandsSent + 1 := by
        rw [← hs₂, ← hfound]; rfl
      have hdiscovery : sm₂.statistics.discoveryMessages = sm.statistics.discoveryMessages := by
        rw [← hs₂, ← hfound]; rfl
      have hd : Counted sm₂ (sm₂.discoveryActions st).1 (sm₂.discoveryActions st).2.2 :=
        discoveryActions_counted st
      -- every branch adds actions that are neither commands nor announcements
      have hsend : ∀ k rest, sent rest = [] → announced rest = [] →
          Counted sm (sm₂.discoveryActions st).1
            ((sm₂.discoveryActions st).2.2 ++ [.sendDeviceCommand k c] ++ rest) := by
        intro k rest hsent hannounced
        have hnone : sent (sm₂.discoveryActions st).2.2 = [] := by
          unfold discoveryActions
          split <;> rfl
        constructor
        · have h := hd.commands
          rw [hnone] at h
          rw [h, hcommands, sent_append, sent_append, hnone, hsent]
          rfl
        · rw [hd.discovery, hdiscovery, announced_append, announced_append, hannounced,
            List.append_nil]
          exact congrArg (fun n => sm.statistics.discoveryMessages + n)
            (by rw [List.length_append]; rfl)
      split
      · exact hsend _ _ rfl rfl
      · split
        · exact (hsend _ _ rfl rfl).append (setDeviceState_counted ..)
        · exact hsend _ _ rfl rfl

theorem sent_status : sent sm.bridgeStatusActions = [] := rfl

theorem announced_status : announced sm.bridgeStatusActions = [] := rfl

theorem sent_replay (sts : List DeviceState) : sent (sts.flatMap replayActions) = [] := by
  induction sts with
  | nil => rfl
  | cons st sts ih =>
    have hone : sent (replayActions st) = [] := by
      unfold replayActions
      cases st.currentState <;> rfl
    rw [List.flatMap_cons, sent_append, hone, ih]
    rfl

/-- A replay announces each device once. -/
theorem announced_replay (sts : List DeviceState) :
    announced (sts.flatMap replayActions) = sts.map DeviceState.address := by
  induction sts with
  | nil => rfl
  | cons st sts ih =>
    have hone : announced (replayActions st) = [st.address] := by
      unfold replayActions
      cases st.currentState <;> rfl
    rw [List.flatMap_cons, announced_append, hone, ih]
    rfl

theorem onMqttConnected_counted :
    Counted sm sm.onMqttConnected.1 sm.onMqttConnected.2 := by
  constructor
  · rw [onMqttConnected_actions, sent_append, sent_status, sent_replay]
    rfl
  · rw [onMqttConnected_actions, announced_append, announced_status, announced_replay,
      List.nil_append, List.length_map]
    show sm.statistics.discoveryMessages + _ = _
    rw [Dict.values, Dict.values, List.length_map, List.length_map]
    exact congrArg _ (List.length_map _).symm

/-- Every call counts the commands and the announcements it returns. -/
theorem call_counted (sm : StateManager) (c : Call) : Counted sm (sm.call c).1 (sm.call c).2 := by
  cases c with
  | apply now event =>
    cases event with
    | none => exact .refl sm
    | some event =>
      cases event with
      | device e => exact applyDeviceEvent_counted e
      | house e => exact applyHouseEvent_counted e
      | snapshot snap => exact applyStatusSnapshot_counted now snap
      | unknown e => exact .of_same rfl rfl rfl rfl
  | optimisticUpdate now a c => exact optimisticUpdate_counted now a c
  | mqttConnected => exact onMqttConnected_counted
  | mqttDisconnected | mochadConnected | mochadDisconnected => exact .of_same rfl rfl rfl rfl

/-! ## Runs -/

/-- The actions that calls return, one after the other. -/
def returned (sm : StateManager) : List Call → List BridgeAction
  | [] => []
  | c :: calls => (sm.call c).2 ++ (sm.call c).1.returned calls

theorem run_counted (sm : StateManager) (calls : List Call) :
    Counted sm (sm.run calls) (sm.returned calls) := by
  induction calls generalizing sm with
  | nil => exact .refl sm
  | cons c calls ih => exact (call_counted sm c).append (ih (sm.call c).1)

/-! ## The commands of a run -/

/-- The command of a call that asks for one, if its address is allowed and its device
supports it. -/
def accepted (sm : StateManager) : Call → Option (String × Command)
  | .optimisticUpdate _ a c =>
    if sm.addressAllowed a ∧ c ∈ (sm.deviceConfig a).supportedCommands then some (normalize a, c)
    else none
  | _ => none

theorem sent_applyLead (event : Option Event) : sent (sm.applyLead event) = [] := by
  cases event with
  | none => rfl
  | some event =>
    cases event with
    | device e =>
      unfold applyLead
      dsimp only
      split
      · rw [sent_append, sent_discovery]
        rfl
      · rfl
    | house e | snapshot snap | unknown e => rfl

/-- A call sends the command it is accepted with, and no other. -/
theorem sent_call (hk : sm.Keyed) (c : Call) : sent (sm.call c).2 = (sm.accepted c).toList := by
  cases c with
  | apply now event =>
    show sent (sm.apply now event).2 = []
    rw [(apply_performs hk now event).actions, sent_append, sent_applyLead, sent_publications]
    rfl
  | optimisticUpdate now a c =>
    rw [call, accepted]
    cases ha : sm.addressAllowed a with
    | false =>
      rw [optimisticUpdate_denied ha, if_neg (by simp)]
      rfl
    | true =>
      by_cases hc : c ∈ (sm.deviceConfig a).supportedCommands
      · have hlead : sent (sm.announcement now a c) = [(normalize a, c)] := by
          unfold announcement
          rw [sent_append, sent_append, sent_discovery]
          split <;> rfl
        rw [if_pos (show true = true ∧ c ∈ (sm.deviceConfig a).supportedCommands from ⟨rfl, hc⟩),
          (optimisticUpdate_accepted hk now ha hc).actions, sent_append, hlead]
        split
        · rw [sent_changes]
          rfl
        · rfl
      · rw [(optimisticUpdate_unsupported hk now ha hc).actions, if_neg (by simp [hc])]
        rfl
  | mqttConnected =>
    rw [call, onMqttConnected_actions, sent_append, sent_status, sent_replay]
    rfl
  | mqttDisconnected | mochadDisconnected => exact sent_status
  | mochadConnected =>
    show sent (sm.onMochadConnected.1.bridgeStatusActions ++ [.requestStatus]) = []
    rw [sent_append, sent_status]
    rfl

theorem SameSetup.accepted (h : SameSetup sm sm') (c : Call) : sm'.accepted c = sm.accepted c := by
  cases c with
  | optimisticUpdate now a c =>
    simp only [StateManager.accepted, h.addressAllowed, h.deviceConfig]
  | _ => rfl

/-- The commands of a run are the accepted ones, each once and in their order. -/
theorem sent_returned (hk : sm.Keyed) (calls : List Call) :
    sent (sm.returned calls) = calls.filterMap sm.accepted := by
  induction calls generalizing sm with
  | nil => rfl
  | cons c calls ih =>
    have heffect := call_effect hk c
    have hrest : calls.filterMap (sm.call c).1.accepted = calls.filterMap sm.accepted :=
      List.filterMap_congr fun c' _ => heffect.setup.accepted c'
    rw [returned, sent_append, sent_call hk, ih heffect.keyed, hrest, List.filterMap_cons]
    cases sm.accepted c <;> rfl

/-- A new manager has counted nothing, and knows of no connection. -/
theorem init_idle (devices : List DeviceConfig) (optimistic : Bool)
    (housecodes : Option (List String)) : (init devices optimistic housecodes).statistics = {} ∧
      (init devices optimistic housecodes).mqttConnected = false := by
  have hfold : ∀ (devices : List DeviceConfig) (sm : StateManager),
      (devices.foldl addDevice sm).statistics = sm.statistics ∧
        (devices.foldl addDevice sm).mqttConnected = sm.mqttConnected := by
    intro devices
    induction devices with
    | nil => exact fun _ => ⟨rfl, rfl⟩
    | cons d devices ih =>
      intro sm
      obtain ⟨hstatistics, hmqtt⟩ := ih (sm.addDevice d)
      rw [List.foldl_cons, hstatistics, hmqtt]
      unfold addDevice
      split
      · exact ⟨ensureDevice_statistics _, (ensureDevice_session _ _).mqtt⟩
      · exact ⟨rfl, rfl⟩
  exact hfold devices _

/-- Commands are never held back: a run sends the accepted commands, one each and in
their order, and counts them. -/
theorem commands_sent (devices : List DeviceConfig) (optimistic : Bool)
    (housecodes : Option (List String)) (calls : List Call) :
    sent ((init devices optimistic housecodes).returned calls) =
        calls.filterMap (init devices optimistic housecodes).accepted ∧
      ((init devices optimistic housecodes).run calls).statistics.commandsSent =
        (sent ((init devices optimistic housecodes).returned calls)).length := by
  refine ⟨sent_returned (init_fresh ..).keyed calls, ?_⟩
  rw [(run_counted _ calls).commands, (init_idle ..).1]
  exact Nat.zero_add _

/-! ## The announcements of a connection -/

/-- How often the device is marked as discovered. -/
def marks (sm : StateManager) (k : String) : Nat := (sm.stateAt k).discovered.toNat

/-- The announcements of the device account for its mark. -/
def Marked (sm sm' : StateManager) (actions : List BridgeAction) : Prop :=
  ∀ k, (announced actions).count k + sm.marks k = sm'.marks k

theorem Marked.append (h : Marked sm sm' actions) (h' : Marked sm' sm'' actions') :
    Marked sm sm'' (actions ++ actions') := by
  intro k
  rw [announced_append, List.count_append, ← h' k, ← h k]
  omega

/-- A call that announces nothing and discovers nothing. -/
theorem Evolves.marked {K : Touch → Prop} (h : Evolves K sm sm') (hK : ¬ K .discover)
    (hnone : announced actions = []) : Marked sm sm' actions := by
  intro k
  rw [hnone, marks, marks, discovered_of_path hK (h.device k)]
  exact Nat.zero_add _

/-- A call about one device announces it if it marks it. -/
theorem Touched.marked {a : String} {st : DeviceState} {rest : List BridgeAction}
    {r : StateManager × List BridgeAction} (hk : sm.Keyed)
    (h : Touched sm (normalize a) st ((sm.stateOf a).discovery sm.mqttConnected ++ rest) r)
    (hrest : announced rest = [])
    (hst : st.discovered = ((sm.stateOf a).discovered || sm.mqttConnected)) :
    Marked sm r.1 r.2 := by
  intro k
  rw [h.actions, announced_append, hrest, List.append_nil, marks, marks, h.stateAt]
  have haddr := stateOf_address hk a
  unfold DeviceState.discovery
  by_cases hkey : normalize a = k
  · subst hkey
    rw [if_pos rfl, hst, stateAt_normalize]
    cases hm : sm.mqttConnected <;> cases hd : (sm.stateOf a).discovered <;>
      simp [announced, BridgeAction.announcedDevice, haddr]
  · rw [if_neg hkey]
    split
    · exact Nat.zero_add _
    · have hcount : (announced [.publishDiscovery (sm.stateOf a).address]).count k = 0 := by
        simp [announced, BridgeAction.announcedDevice, haddr, hkey]
      rw [hcount, Nat.zero_add]

theorem announced_apply (hk : sm.Keyed) (now : Timestamp) {event : Option Event}
    (hlead : announced (sm.applyLead event) = []) : announced (sm.apply now event).2 = [] := by
  rw [(apply_performs hk now event).actions, announced_append, hlead, announced_publications]
  rfl

theorem optimisticUpdate_marked (hk : sm.Keyed) (now : Timestamp) (a : String) (c : Command) :
    Marked sm (sm.optimisticUpdate now a c).1 (sm.optimisticUpdate now a c).2 := by
  cases ha : sm.addressAllowed a with
  | false =>
    rw [optimisticUpdate_denied ha]
    exact fun k => Nat.zero_add _
  | true =>
    by_cases hc : c ∈ (sm.deviceConfig a).supportedCommands
    · have htouched := optimisticUpdate_accepted hk now ha hc
      rw [announcement, List.append_assoc, List.append_assoc] at htouched
      refine htouched.marked hk ?_ ?_
      · rw [announced_append, announced_append]
        have hrest : announced (if (sm.deviceConfig a).stateful ∧ sm.optimisticUpdates then
            (sm.stateOf a).changes c true else []) = [] := by
          split
          · exact announced_changes ..
          · rfl
        rw [hrest]
        split <;> rfl
      · split
        · rw [DeviceState.take_discovered]
          rfl
        · rfl
    · have htouched := optimisticUpdate_unsupported hk now ha hc
      intro k
      rw [htouched.actions, marks, marks, htouched.stateAt]
      split
      · next hkey =>
        rw [← hkey, stateAt_normalize]
        exact Nat.zero_add _
      · exact Nat.zero_add _

/-- Between connections a call announces what it marks. -/
theorem call_marked (hk : sm.Keyed) {c : Call} (hc : c ≠ .mqttConnected) :
    Marked sm (sm.call c).1 (sm.call c).2 := by
  have htouches := call_touches hk c
  cases c with
  | apply now event =>
    cases event with
    | none => exact fun k => Nat.zero_add _
    | some event =>
      cases event with
      | device e =>
        show Marked sm (sm.applyDeviceEvent e).1 (sm.applyDeviceEvent e).2
        cases ha : sm.addressAllowed e.address with
        | false =>
          rw [applyDeviceEvent_denied ha]
          exact fun k => Nat.zero_add _
        | true =>
          have htouched := applyDeviceEvent_spec hk ha
          rw [List.append_assoc] at htouched
          refine htouched.marked hk ?_ ?_
          · rw [announced_append]
            split
            · rfl
            · rw [announced_changes]
              rfl
          · split
            · rfl
            · rw [DeviceState.take_discovered]
              rfl
      | house e =>
        refine htouches.marked ?_ (announced_apply hk now rfl)
        rintro (h | h) <;> cases h
      | snapshot snap =>
        refine htouches.marked ?_ (announced_apply hk now rfl)
        rintro (h | ⟨_, _, h⟩) <;> cases h
      | unknown e => exact htouches.marked id (announced_apply hk now rfl)
  | optimisticUpdate now a c => exact optimisticUpdate_marked hk now a c
  | mqttConnected => exact absurd rfl hc
  | mqttDisconnected => exact htouches.marked id announced_status
  | mochadConnected => exact htouches.marked id rfl
  | mochadDisconnected => exact htouches.marked (fun h => nomatch h) announced_status

/-- While MQTT is disconnected, nothing is announced. -/
theorem announced_disconnected (hk : sm.Keyed) (hm : sm.mqttConnected = false) {c : Call}
    (hc : c ≠ .mqttConnected) : announced (sm.call c).2 = [] := by
  have hquiet : ∀ st : DeviceState, st.discovery sm.mqttConnected = [] := by
    intro st
    rw [hm]
    rfl
  cases c with
  | apply now event =>
    refine announced_apply hk now ?_
    unfold applyLead
    split
    · rw [hquiet]
      split <;> rfl
    · rfl
    · rfl
  | optimisticUpdate now a c =>
    rw [call]
    cases ha : sm.addressAllowed a with
    | false => rw [optimisticUpdate_denied ha]; rfl
    | true =>
      by_cases hsupported : c ∈ (sm.deviceConfig a).supportedCommands
      · rw [(optimisticUpdate_accepted hk now ha hsupported).actions, announcement, hquiet,
          announced_append, announced_append]
        have hrest : announced (if (sm.deviceConfig a).stateful ∧ sm.optimisticUpdates then
            (sm.stateOf a).changes c true else []) = [] := by
          split
          · exact announced_changes ..
          · rfl
        rw [hrest]
        split <;> rfl
      · rw [(optimisticUpdate_unsupported hk now ha hsupported).actions]
        rfl
  | mqttConnected => exact absurd rfl hc
  | mqttDisconnected | mochadDisconnected => exact announced_status
  | mochadConnected => rfl

/-- When MQTT connects, each known device is announced once. -/
theorem announced_connect (hk : sm.Keyed) :
    announced (sm.call .mqttConnected).2 = sm.devices.keys := by
  rw [call, onMqttConnected_actions, announced_append, announced_status, announced_replay]
  show sm.onMqttConnected.1.devices.values.map DeviceState.address = _
  rw [← (onMqttConnected_notified sm).keys, Dict.values, Dict.keys, List.map_map]
  refine List.map_congr_left fun e he => ?_
  exact (onMqttConnected_notified sm).keyed hk _ _ (Dict.mem_entries.mp he)

theorem marks_connect (hk : sm.Keyed) (k : String) :
    (announced (sm.call .mqttConnected).2).count k = (sm.call .mqttConnected).1.marks k := by
  rw [announced_connect hk]
  have hget : (sm.call .mqttConnected).1.devices.get? k =
      (sm.devices.get? k).map fun state => { state with discovered := true } :=
    Dict.get?_mapValues ..
  rw [marks, stateAt, hget]
  cases hold : sm.devices.get? k with
  | none => exact List.count_eq_zero.mpr (Dict.get?_eq_none.mp hold)
  | some st =>
    have hmem : k ∈ sm.devices.keys := Dict.mem_keys.mpr (by simp [hold])
    exact List.count_eq_one_of_mem sm.devices.nodup hmem

theorem returned_marked (hk : sm.Keyed) {calls : List Call}
    (hcalls : ∀ c ∈ calls, c ≠ .mqttConnected) :
    Marked sm (sm.run calls) (sm.returned calls) := by
  induction calls generalizing sm with
  | nil => exact fun k => Nat.zero_add _
  | cons c calls ih =>
    exact (call_marked hk (hcalls c List.mem_cons_self)).append
      (ih (call_effect hk c).keyed fun c' hc' => hcalls c' (List.mem_cons_of_mem _ hc'))

/-- From one connection to the next, each device is announced at most once. -/
theorem announced_once (hk : sm.Keyed) {calls : List Call}
    (hcalls : ∀ c ∈ calls, c ≠ .mqttConnected) (k : String) :
    (announced (sm.returned (.mqttConnected :: calls))).count k ≤ 1 := by
  have hrest := returned_marked (call_effect hk .mqttConnected).keyed hcalls k
  rw [returned, announced_append, List.count_append, marks_connect hk, Nat.add_comm, hrest]
  unfold marks
  cases (StateManager.stateAt _ k).discovered <;> decide

/-- MQTT is connected after the call. -/
def connection (connected : Bool) : Call → Bool
  | .mqttConnected => true
  | .mqttDisconnected => false
  | _ => connected

/-- MQTT is connected after the calls. -/
def connectedAfter (calls : List Call) : Bool := calls.foldl connection false

theorem mqttConnected_run (hk : sm.Keyed) (calls : List Call) :
    (sm.run calls).mqttConnected = calls.foldl connection sm.mqttConnected := by
  induction calls generalizing sm with
  | nil => rfl
  | cons c calls ih =>
    have hcall : (sm.call c).1.mqttConnected = connection sm.mqttConnected c := by
      cases c with
      | apply now event =>
        rw [call, (apply_performs hk now event).session.mqtt]
        rfl
      | optimisticUpdate now a c =>
        obtain ⟨_, _, hp⟩ := optimisticUpdate_callEffect hk now a c
        rw [call, hp.session.mqtt]
        rfl
      | mqttConnected | mqttDisconnected | mochadConnected | mochadDisconnected => rfl
    rw [List.foldl_cons, ← hcall]
    exact ih (call_effect hk c).keyed

/-- Nothing is announced while MQTT is disconnected, and no device twice between two
connections; a connection announces every known device once; the counter tells how
many announcements there were. -/
structure AnnouncesOnce (sm : StateManager) : Prop where
  silent : ∀ calls c, connectedAfter calls = false → c ≠ .mqttConnected →
    announced ((sm.run calls).call c).2 = []
  once : ∀ calls rest k, (∀ c ∈ rest, c ≠ .mqttConnected) →
    (announced ((sm.run calls).returned (.mqttConnected :: rest))).count k ≤ 1
  all : ∀ calls k, (announced ((sm.run calls).call .mqttConnected).2).count k =
    if k ∈ (sm.run calls).devices.keys then 1 else 0
  counter : ∀ calls, (sm.run calls).statistics.discoveryMessages =
    (announced (sm.returned calls)).length

theorem init_announcesOnce (devices : List DeviceConfig) (optimistic : Bool)
    (housecodes : Option (List String)) : (init devices optimistic housecodes).AnnouncesOnce := by
  have hk := (init_fresh devices optimistic housecodes).keyed
  have hm : (init devices optimistic housecodes).mqttConnected = false :=
    (init_idle ..).2
  have hrun := fun calls => (run_keyed hk calls).1
  refine ⟨fun calls c hconnected => announced_disconnected (hrun calls) ?_, fun calls rest k hrest =>
    announced_once (hrun calls) hrest k, fun calls k => ?_, fun calls => ?_⟩
  · rwa [mqttConnected_run hk, hm]
  · rw [announced_connect (hrun calls)]
    split
    · next hmem => exact List.count_eq_one_of_mem (Dict.nodup _) hmem
    · next hmem => exact List.count_eq_zero.mpr hmem
  · rw [(run_counted _ calls).discovery, (init_idle ..).1]
    exact Nat.zero_add _

end StateManager

end MochadBridge
