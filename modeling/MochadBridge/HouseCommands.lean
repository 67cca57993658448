import MochadBridge.LastWriterWins

/-!
# House commands

What a house event does to every device: those of the house that respond take the
state of the command, the others keep all their fields.

Results:
1. `foldl_applyHouseCommand`: the loop over the devices of a house.
2. `house_effect`: a house event changes the devices that heed it, and no other.
-/

namespace MochadBridge

open Py StateManager

theorem DeviceState.take_available (st : DeviceState) (c : Command) (t : Timestamp) (b : Bool) :
    (st.take c t b).available = st.available := by
  simp only [DeviceState.take, clearConfirmedPending]
  split_ifs <;> rfl

theorem DeviceState.take_lastSeen (st : DeviceState) (c : Command) (t : Timestamp) (b : Bool) :
    (st.take c t b).lastSeen = some t := by
  simp only [DeviceState.take, clearConfirmedPending]
  split_ifs <;> rfl

namespace StateManager

variable {sm sm₀ : StateManager}

/-- A device that responds to the house command. -/
def answer (c : Command) (t : Timestamp) (st : DeviceState) : DeviceState :=
  ({ st with available := true, lastSeen := some t } : DeviceState).take (houseState c) t true

/-- The actions of a device that is visited. -/
def answerActions (sm : StateManager) (c : Command) (st : DeviceState) : List BridgeAction :=
  if sm.responds c st.address then st.changes (houseState c) true else []

/-- The loop of `_apply_house_event`: each device visited that responds is answered
for, and the others are left alone. -/
theorem foldl_applyHouseCommand {c : Command} {t : Timestamp} {sts : List DeviceState}
    {actions : List BridgeAction} (h : HouseReady sm₀ sm sts) :
    (∀ k, (sts.foldl (applyHouseCommand c t) (sm, actions)).1.devices.get? k =
      if sm₀.responds c k = true ∧ k ∈ sts.map DeviceState.address then
        (sm.devices.get? k).map (answer c t)
      else sm.devices.get? k) ∧
    (sts.foldl (applyHouseCommand c t) (sm, actions)).1.devices.keys = sm.devices.keys ∧
    (sts.foldl (applyHouseCommand c t) (sm, actions)).2 =
      actions ++ sts.flatMap (sm₀.answerActions c) := by
  induction sts generalizing sm actions with
  | nil => exact ⟨fun k => by simp, rfl, by simp⟩
  | cons st sts ih =>
    have hget := h.stored st List.mem_cons_self
    have hready := (@applyHouseCommand_performs sm sm₀ c t actions st sts h).2
    have hresp : sm₀.responds c st.address = sm.responds c st.address := by
      simp only [responds, h.session.deviceConfig]
    obtain ⟨hdevices, hkeys, hactions⟩ := @ih (applyHouseCommand c t (sm, actions) st).1
      (applyHouseCommand c t (sm, actions) st).2 hready
    have hnew : st.address ∉ sts.map DeviceState.address := (List.nodup_cons.mp h.nodup).1
    rw [List.foldl_cons, List.flatMap_cons]
    by_cases hr : sm.responds c st.address = true
    · have htouched := applyHouseCommand_responds t actions hr
      refine ⟨fun k => ?_, ?_, ?_⟩
      · rw [hdevices, htouched.devices, Dict.get?_insert]
        by_cases hkey : st.address = k
        · subst hkey
          rw [if_neg fun hmem => hnew hmem.2, if_pos rfl,
            if_pos ⟨hresp.trans hr, List.mem_cons_self⟩, hget]
          rfl
        · rw [if_neg hkey]
          refine if_congr ?_ rfl rfl
          rw [List.map_cons, List.mem_cons, or_iff_right (Ne.symm hkey)]
      · rw [hkeys, htouched.devices, Dict.keys_insert, if_pos (Dict.mem_keys.mpr (by simp [hget]))]
      · rw [hactions, htouched.actions, answerActions, if_pos (hresp.trans hr), List.append_assoc]
    · rw [applyHouseCommand_ignores t actions hr] at hdevices hkeys hactions ⊢
      refine ⟨fun k => ?_, hkeys, ?_⟩
      · rw [hdevices]
        refine if_congr ?_ rfl rfl
        rw [List.map_cons, List.mem_cons]
        refine ⟨fun hk => ⟨hk.1, .inr hk.2⟩, fun hk => ⟨hk.1, hk.2.resolve_left ?_⟩⟩
        rintro rfl
        exact hr (hresp.symm.trans hk.1)
      · rw [hactions, answerActions, if_neg (hresp ▸ hr), List.nil_append]

/-! ## House events -/

/-- The device heeds the event: the house is allowed, and the device is one of the
house, has a state and responds to the command. -/
def heeds (sm : StateManager) (e : HouseEvent) (k : String) : Bool :=
  sm.houseAllowed e.house && e.command ∈ houseCommands && k.toList.head? == e.house.toList.head? &&
    (sm.deviceConfig k).stateful && deviceRespondsToHouseCommand (sm.deviceConfig k) e.command

/-- What the event does: no device appears, those that heed it take the state of the
command and publish it if it is new, in the order of the devices; all others stay as
they are. -/
structure HouseEffect (sm : StateManager) (e : HouseEvent)
    (r : StateManager × List BridgeAction) : Prop where
  keys : r.1.devices.keys = sm.devices.keys
  heeding : ∀ k st, sm.devices.get? k = some st → sm.heeds e k = true →
    ∃ st', r.1.devices.get? k = some st' ∧ st'.currentState = some (houseState e.command) ∧
      st'.available = true ∧ st'.lastSeen = some e.timestamp
  others : ∀ k st, sm.devices.get? k = some st → sm.heeds e k = false →
    r.1.devices.get? k = some st
  actions : r.2 = sm.devices.entries.flatMap fun x =>
    if sm.heeds e x.1 ∧ x.2.currentState ≠ some (houseState e.command) then
      [.publishState x.1 (houseState e.command) true]
    else []

/-- Where no device heeds an event, it does nothing. -/
theorem houseEffect_nothing {e : HouseEvent} {r : StateManager × List BridgeAction}
    (hnone : ∀ k, sm.heeds e k = false) (hdevices : r.1.devices = sm.devices) (hactions : r.2 = []) :
    HouseEffect sm e r where
  keys := by rw [hdevices]
  heeding k st _ hheeds := nomatch (hnone k).symm.trans hheeds
  others k st hget _ := by rw [hdevices, hget]
  actions := by simp [hactions, hnone]

/-- The devices of the loop are the known ones of the house. -/
theorem mem_devicesForHouse (hk : sm.Keyed) (house : String) {k : String}
    (hknown : k ∈ sm.devices.keys) :
    k ∈ (sm.devicesForHouse house).map DeviceState.address ↔
      startsWith k (normalize house) = true := by
  simp only [devicesForHouse, List.map_map, List.mem_map, List.mem_filter]
  constructor
  · rintro ⟨x, ⟨hx, hstarts⟩, rfl⟩
    rwa [Function.comp_apply, hk _ _ (Dict.mem_entries.mp hx)]
  · intro hstarts
    obtain ⟨st, hget⟩ := Option.ne_none_iff_exists'.mp (Dict.mem_keys.mp hknown)
    exact ⟨(k, st), ⟨Dict.mem_entries.mpr hget, hstarts⟩, hk _ _ hget⟩

/-- Those of the house that respond heed the event. -/
theorem heeds_iff {e : HouseEvent} {c : Char} (hc : isHouse c = true)
    (hhouse : e.house = String.singleton c) (hallowed : sm.houseAllowed e.house = true)
    (hcommand : e.command ∈ houseCommands) (k : String) :
    (sm.responds e.command k = true ∧ startsWith k (normalize e.house) = true) ↔
      sm.heeds e k = true := by
  have hnorm : normalize e.house = e.house := by rw [hhouse]; exact upper_strip_singleton hc
  have hhead : startsWith k e.house = true ↔ k.toList.head? = e.house.toList.head? := by
    rw [hhouse]
    exact head_eq_of_startsWith.trans eq_comm
  simp only [hnorm, hhead, responds, heeds, hallowed, hcommand, Bool.and_eq_true, decide_true,
    beq_iff_eq, true_and]
  tauto

theorem flatMap_filter_eq {α β : Type} (p : α → Bool) (f : α → List β) (l : List α) :
    (l.filter p).flatMap f = l.flatMap fun x => if p x then f x else [] := by
  induction l with
  | nil => rfl
  | cons x l ih =>
    rw [List.filter_cons, List.flatMap_cons, ← ih]
    split <;> rfl

/-- A house event with a house letter changes the devices that heed it, and no other. -/
theorem house_effect (hk : sm.Keyed) {e : HouseEvent}
    (hhouse : ∃ c, isHouse c = true ∧ e.house = String.singleton c) :
    HouseEffect sm e (sm.applyHouseEvent e) := by
  obtain ⟨c, hc, hhouse⟩ := hhouse
  unfold applyHouseEvent
  cases hallowed : sm.houseAllowed e.house with
  | false => exact houseEffect_nothing (fun k => by simp [heeds, hallowed]) rfl rfl
  | true =>
    by_cases hcommand : e.command ∈ houseCommands
    · rw [if_neg (by simp)]
      dsimp only
      rw [if_neg (not_not.mpr hcommand)]
      generalize hs₁ : ({ sm with
        statistics := { sm.statistics with eventsReceived := sm.statistics.eventsReceived + 1 } } :
        StateManager) = sm₁
      have hd₁ : sm₁.devices = sm.devices := by subst hs₁; rfl
      have hk₁ : sm₁.Keyed := by subst hs₁; exact hk
      have hheeds : ∀ k, sm₁.heeds e k = sm.heeds e k := by subst hs₁; exact fun _ => rfl
      obtain ⟨hget, hkeys, hactions⟩ := @foldl_applyHouseCommand sm₁ sm₁ e.command e.timestamp _ []
        (devicesForHouse_ready hk₁ e.house)
      have hallowed₁ : sm₁.houseAllowed e.house = true := by subst hs₁; exact hallowed
      have hiff := heeds_iff hc hhouse hallowed₁ hcommand
      have hvisited : ∀ k ∈ sm₁.devices.keys, (sm₁.responds e.command k = true ∧
          k ∈ (sm₁.devicesForHouse e.house).map DeviceState.address) ↔ sm.heeds e k = true := by
        intro k hknown
        rw [mem_devicesForHouse hk₁ e.house hknown, hiff, hheeds]
      refine ⟨by rw [hkeys, hd₁], fun k st hst hk => ?_, fun k st hst hk => ?_, ?_⟩
      · have hknown : k ∈ sm₁.devices.keys := Dict.mem_keys.mpr (by rw [hd₁, hst]; simp)
        rw [hget, if_pos ((hvisited k hknown).mpr hk), hd₁, hst]
        refine ⟨_, rfl, ?_, ?_, ?_⟩
        · rw [answer, DeviceState.take_currentState, authoritativeState_houseState]
        · rw [answer, DeviceState.take_available]
        · rw [answer, DeviceState.take_lastSeen]
      · have hknown : k ∈ sm₁.devices.keys := Dict.mem_keys.mpr (by rw [hd₁, hst]; simp)
        rw [hget, if_neg, hd₁, hst]
        intro hboth
        cases hk.symm.trans ((hvisited k hknown).mp hboth)
      · rw [hactions, List.nil_append, devicesForHouse, List.flatMap_map, ← hd₁,
          flatMap_filter_eq]
        refine List.flatMap_congr fun x hx => ?_
        have hstored := Dict.mem_entries.mp hx
        have haddress := hk₁ _ _ hstored
        rw [← hheeds, answerActions, haddress, DeviceState.changes, authoritativeState_houseState,
          haddress]
        by_cases hheed : sm₁.heeds e x.1 = true
        · obtain ⟨hr, hstarts⟩ := (hiff x.1).mpr hheed
          rw [if_pos hstarts, if_pos hr]
          simp only [hheed, true_and, ne_eq, ite_not]
        · rw [if_neg fun h : sm₁.heeds e x.1 = true ∧ _ => hheed h.1]
          by_cases hstarts : startsWith x.1 (normalize e.house) = true
          · rw [if_pos hstarts, if_neg fun hr => hheed ((hiff x.1).mp ⟨hr, hstarts⟩)]
          · rw [if_neg hstarts]
    · rw [if_neg (by simp)]
      dsimp only
      rw [if_pos hcommand]
      exact houseEffect_nothing (fun k => by simp [heeds, hcommand]) rfl rfl

/-- All lights of the house A are switched off. -/
def lightsOff : HouseEvent where
  timestamp := 2
  direction := .rx
  transport := .pl
  command := .allLightsOff
  house := "A"

end StateManager

end MochadBridge
