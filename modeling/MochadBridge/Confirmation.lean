import MochadBridge.DiscoveryOrder

/-!
# Confirmed commands

A command that is sent is pending until the device reports it. The state manager
keeps the command as it was sent, and compares it with the authoritative form of
what is reported, so that a command with another authoritative form stays
pending.

Results:
1. `clears_call`: a call leaves the pending command of a device, or confirms it.
2. `confirmed_iff`: which commands are confirmed by an event with the same command.
-/

namespace MochadBridge

open Py StateManager

/-- The call is about the device. -/
def Call.Concerns (k : String) : Call → Prop
  | .apply _ (some (.device e)) => normalize e.address = k
  | .apply _ (some (.house e)) => startsWith k (normalize e.house) = true
  | .apply _ (some (.snapshot snap)) => ∃ entry ∈ snap.devices.entries, normalize entry.1 = k
  | .optimisticUpdate _ a _ => normalize a = k
  | _ => False

/-- The input brings the device a command whose authoritative form is the one of
`p`. -/
def Call.Confirms (k : String) (p : Command) : Call → Prop
  | .apply _ (some (.device e)) =>
    normalize e.address = k ∧ authoritativeState e.command = authoritativeState p
  | .apply _ (some (.house e)) =>
    startsWith k (normalize e.house) = true ∧ houseState e.command = authoritativeState p
  | .apply _ (some (.snapshot snap)) => ∃ entry ∈ snap.devices.entries,
      normalize entry.1 = k ∧ authoritativeState entry.2 = authoritativeState p
  | _ => False

theorem Call.Confirms.concerns {k : String} {p : Command} {c : Call} (h : c.Confirms k p) :
    c.Concerns k := by
  cases c with
  | apply now event =>
    match event, h with
    | some (.device _), h => exact h.1
    | some (.house _), h => exact h.1
    | some (.snapshot _), ⟨entry, hmem, hk, _⟩ => exact ⟨entry, hmem, hk⟩
  | _ => exact absurd h id

/-- A pending command stays, or it is one of `P` and no longer pending. -/
def Clears (P : Command → Prop) (before after : Option Command) : Prop :=
  after = before ∨ ∃ p, before = some p ∧ after = none ∧ P p

namespace Clears

variable {P Q : Command → Prop} {o o' o'' : Option Command}

theorem refl (o : Option Command) : Clears P o o := .inl rfl

theorem trans (h : Clears P o o') (h' : Clears P o' o'') : Clears P o o'' := by
  rcases h with rfl | ⟨p, rfl, rfl, hp⟩
  · exact h'
  · rcases h' with rfl | ⟨p', hp', _⟩
    · exact .inr ⟨p, rfl, rfl, hp⟩
    · exact absurd hp' (by simp)

theorem mono (hPQ : ∀ p, P p → Q p) (h : Clears P o o') : Clears Q o o' :=
  h.imp_right fun ⟨p, ho, ho', hp⟩ => ⟨p, ho, ho', hPQ p hp⟩

end Clears

theorem authoritativeState_idem (c : Command) :
    authoritativeState (authoritativeState c) = authoritativeState c := by
  cases c <;> rfl

/-- A report clears the pending command that it has the authoritative form of. -/
theorem DeviceState.take_pendingCommand (st : DeviceState) (c : Command) (t : Timestamp)
    (b : Bool) : (st.take c t b).pendingCommand =
      if b = true ∧ st.pendingCommand = some (authoritativeState c) then none
      else st.pendingCommand := by
  simp only [DeviceState.take, clearConfirmedPending]
  cases b <;> split_ifs <;> simp_all

theorem clears_take (st : DeviceState) (c : Command) (t : Timestamp) :
    Clears (fun p => authoritativeState c = authoritativeState p) st.pendingCommand
      (st.take c t true).pendingCommand := by
  rw [DeviceState.take_pendingCommand]
  split
  · next h => exact .inr ⟨_, h.2, rfl, (authoritativeState_idem c).symm⟩
  · exact .refl _

namespace StateManager

variable {sm : StateManager} {k : String}

/-- The pending command of a device. -/
def pending (sm : StateManager) (k : String) : Option Command := (sm.stateAt k).pendingCommand

/-- One device changes. -/
theorem Touched.clears {P : Command → Prop} {k' : String} {st : DeviceState}
    {actions : List BridgeAction} {r : StateManager × List BridgeAction}
    (h : Touched sm k' st actions r) (hst : Clears P (sm.pending k') st.pendingCommand) :
    Clears (fun p => k' = k ∧ P p) (sm.pending k) (r.1.pending k) := by
  unfold pending
  rw [h.stateAt]
  split
  · next hk =>
    subst hk
    exact hst.mono fun p hp => ⟨rfl, hp⟩
  · exact .refl _

/-- The loop rule. -/
theorem foldl_clears {α : Type} {P : α → Command → Prop}
    {f : StateManager × List BridgeAction → α → StateManager × List BridgeAction}
    (Ready : StateManager → List α → Prop)
    (hstep : ∀ sm actions x xs, Ready sm (x :: xs) →
      Clears (P x) (sm.pending k) ((f (sm, actions) x).1.pending k) ∧
        Ready (f (sm, actions) x).1 xs)
    (xs : List α) (actions : List BridgeAction) (hready : Ready sm xs) :
    Clears (fun p => ∃ x ∈ xs, P x p) (sm.pending k) ((xs.foldl f (sm, actions)).1.pending k) := by
  induction xs generalizing sm actions with
  | nil => exact .refl _
  | cons x xs ih =>
    obtain ⟨hx, hready'⟩ := hstep sm actions x xs hready
    rw [List.foldl_cons]
    refine (hx.mono fun p hp => ⟨x, List.mem_cons_self, hp⟩).trans
      ((ih (f (sm, actions) x).2 hready').mono fun p ⟨x', hmem, hp⟩ => ?_)
    exact ⟨x', List.mem_cons_of_mem _ hmem, hp⟩

theorem clears_deviceEvent (hk : sm.Keyed) (now : Timestamp) (e : DeviceEvent) :
    Clears ((Call.apply now (some (.device e))).Confirms k · ) (sm.pending k)
      ((sm.applyDeviceEvent e).1.pending k) := by
  cases ha : sm.addressAllowed e.address with
  | false =>
    rw [applyDeviceEvent_denied ha]
    exact .refl _
  | true =>
    refine (applyDeviceEvent_spec hk ha).clears ?_
    split
    · exact .refl _
    · exact clears_take _ e.command e.timestamp

theorem clears_houseEvent (hk : sm.Keyed) (now : Timestamp) (e : HouseEvent) :
    Clears ((Call.apply now (some (.house e))).Confirms k · ) (sm.pending k)
      ((sm.applyHouseEvent e).1.pending k) := by
  simp only [applyHouseEvent]
  split
  · exact .refl _
  · split
    · exact .refl _
    · generalize hs₁ : ({ sm with
        statistics := { sm.statistics with eventsReceived := sm.statistics.eventsReceived + 1 } } :
        StateManager) = sm₁
      have hsame : sm₁.pending k = sm.pending k := by subst hs₁; rfl
      have hk₁ : sm₁.Keyed := by subst hs₁; exact hk
      rw [← hsame]
      -- each device that is visited takes the state of the house command
      refine (foldl_clears (P := fun st p => st.address = k ∧
          authoritativeState (houseState e.command) = authoritativeState p) (HouseReady sm₁)
        (fun sm' actions st sts h => ⟨?_, (applyHouseCommand_performs h).2⟩) _ []
        (devicesForHouse_ready hk₁ e.house)).mono ?_
      · by_cases hr : sm'.responds e.command st.address = true
        · refine (applyHouseCommand_responds e.timestamp actions hr).clears ?_
          have hst : sm'.stateAt st.address = st := by
            rw [stateAt, h.stored st List.mem_cons_self]
            rfl
          rw [pending, hst]
          exact clears_take _ (houseState e.command) e.timestamp
        · rw [applyHouseCommand_ignores e.timestamp actions hr]
          exact .refl _
      · rintro p ⟨st, hst, rfl, hp⟩
        obtain ⟨entry, hentry, rfl⟩ := List.mem_map.mp hst
        obtain ⟨hmem, hstarts⟩ := List.mem_filter.mp hentry
        rw [authoritativeState_houseState] at hp
        refine ⟨?_, hp⟩
        rw [hk₁ _ _ (Dict.mem_entries.mp hmem)]
        exact hstarts

theorem clears_snapshotEntry (hk : sm.Keyed) (now : Timestamp) (actions : List BridgeAction)
    (entry : String × Command) :
    Clears (fun p => normalize entry.1 = k ∧ authoritativeState entry.2 = authoritativeState p)
      (sm.pending k) ((applySnapshotEntry now (sm, actions) entry).1.pending k) := by
  by_cases ha : sm.addressAllowed entry.1 = true
  · refine (applySnapshotEntry_spec hk now actions ha).clears ?_
    split
    · exact clears_take _ entry.2 now
    · exact .refl _
  · rw [applySnapshotEntry_denied now actions ha]
    exact .refl _

theorem clears_snapshot (hk : sm.Keyed) (now : Timestamp) (snap : StatusSnapshot) :
    Clears ((Call.apply now (some (.snapshot snap))).Confirms k · ) (sm.pending k)
      ((sm.applyStatusSnapshot now snap).1.pending k) := by
  simp only [applyStatusSnapshot]
  generalize hs₁ : ({ sm with
    statistics := { sm.statistics with statusSyncs := sm.statistics.statusSyncs + 1 } } :
    StateManager) = sm₁
  have hsame : sm₁.pending k = sm.pending k := by subst hs₁; rfl
  have hk₁ : sm₁.Keyed := by subst hs₁; exact hk
  rw [← hsame]
  exact foldl_clears (fun sm' _ => sm'.Keyed)
    (fun sm' actions entry _ h => ⟨clears_snapshotEntry h now actions entry,
      (applySnapshotEntry_performs h now actions entry).keyed⟩) _ [] hk₁

/-- A call other than a command for the device leaves its pending command, or
confirms it. -/
theorem clears_call (hk : sm.Keyed) (c : Call)
    (hc : ∀ now a command, c = .optimisticUpdate now a command → normalize a ≠ k) :
    Clears (c.Confirms k ·) (sm.pending k) ((sm.call c).1.pending k) := by
  have hmap : ∀ (sm' : StateManager) (f : DeviceState → DeviceState),
      (∀ st, (f st).pendingCommand = st.pendingCommand) → sm'.devices = sm.devices.mapValues f →
        sm'.pending k = sm.pending k := by
    intro sm' f hf hd
    unfold pending stateAt
    rw [hd, Dict.get?_mapValues]
    cases sm.devices.get? k with
    | none => rfl
    | some st => exact hf st
  cases c with
  | apply now event =>
    match event with
    | none => exact .refl _
    | some (.device e) => exact clears_deviceEvent hk now e
    | some (.house e) => exact clears_houseEvent hk now e
    | some (.snapshot snap) => exact clears_snapshot hk now snap
    | some (.unknown e) => exact .refl _
  | optimisticUpdate now a command =>
    refine .inl ?_
    have hother := hc now a command rfl
    have htouched : ∀ {st actions r}, Touched sm (normalize a) st actions r →
        r.1.pending k = sm.pending k := fun h => by
      rw [pending, h.stateAt, if_neg hother]
      rfl
    cases ha : sm.addressAllowed a with
    | false =>
      show (sm.optimisticUpdate now a command).1.pending k = _
      rw [optimisticUpdate_denied ha]
    | true =>
      by_cases hs : command ∈ (sm.deviceConfig a).supportedCommands
      · exact htouched (optimisticUpdate_accepted hk now ha hs)
      · exact htouched (optimisticUpdate_unsupported hk now ha hs)
  | mqttConnected => exact .inl (hmap _ (Touch.apply .discover) (fun _ => rfl) rfl)
  | mqttDisconnected | mochadConnected => exact .refl _
  | mochadDisconnected => exact .inl (hmap _ (Touch.apply .lose) (fun _ => rfl) rfl)

/-- Calls that are not about the device leave its pending command. -/
theorem pending_run (hk : sm.Keyed) {calls : List Call} (hc : ∀ c ∈ calls, ¬ c.Concerns k) :
    (sm.run calls).pending k = sm.pending k := by
  induction calls generalizing sm with
  | nil => rfl
  | cons c calls ih =>
    have hfirst := hc c List.mem_cons_self
    have hstep : (sm.call c).1.pending k = sm.pending k := by
      rcases clears_call hk c (fun now a command heq hn => hfirst (by subst heq; exact hn)) with
        hsame | ⟨p, _, _, hp⟩
      · exact hsame
      · exact absurd hp.concerns hfirst
    exact (ih (call_effect hk c).keyed fun c' hc' => hc c' (List.mem_cons_of_mem _ hc')).trans hstep

/-- A command that is accepted is pending. -/
theorem pending_optimisticUpdate (hk : sm.Keyed) (now : Timestamp) {a : String} {c : Command}
    (ha : sm.addressAllowed a = true) (hc : c ∈ (sm.deviceConfig a).supportedCommands) :
    (sm.optimisticUpdate now a c).1.pending (normalize a) = some c := by
  rw [pending, (optimisticUpdate_accepted hk now ha hc).stateAt, if_pos rfl]
  split
  · rw [DeviceState.take_pendingCommand, if_neg (fun h => Bool.noConfusion h.1)]
    rfl
  · rfl

/-- An event of a stateful device confirms the command that is its authoritative
form. -/
theorem pending_deviceEvent (hk : sm.Keyed) {e : DeviceEvent}
    (ha : sm.addressAllowed e.address = true)
    (hs : (sm.deviceConfig e.address).stateful = true) (hc : e.command ∈ stateCommands) :
    (sm.applyDeviceEvent e).1.pending (normalize e.address) =
      if sm.pending (normalize e.address) = some (authoritativeState e.command) then none
      else sm.pending (normalize e.address) := by
  have hstate : ¬ sm.Stateless e := by
    rintro (h | h)
    · rw [hs] at h
      exact Bool.noConfusion h
    · exact h hc
  rw [pending, (applyDeviceEvent_spec hk ha).stateAt, if_pos rfl, if_neg hstate,
    DeviceState.take_pendingCommand]
  simp only [true_and]
  rfl

/-- A call that ends the waiting of a command confirms it. -/
theorem confirms_of_cleared (hk : sm.Keyed) {c : Call} {p : Command} (hp : sm.pending k = some p)
    (hnone : (sm.call c).1.pending k = none) : c.Confirms k p := by
  by_cases hcommand : ∃ now a command, c = .optimisticUpdate now a command ∧ normalize a = k
  · obtain ⟨now, a, command, rfl, rfl⟩ := hcommand
    -- the device gets another pending command, or keeps its own
    exfalso
    replace hnone : (sm.optimisticUpdate now a command).1.pending (normalize a) = none := hnone
    cases ha : sm.addressAllowed a with
    | false =>
      rw [optimisticUpdate_denied ha, hp] at hnone
      exact absurd hnone (by simp)
    | true =>
      by_cases hs : command ∈ (sm.deviceConfig a).supportedCommands
      · rw [pending_optimisticUpdate hk now ha hs] at hnone
        exact absurd hnone (by simp)
      · rw [pending, (optimisticUpdate_unsupported hk now ha hs).stateAt, if_pos rfl,
          ← stateAt_normalize] at hnone
        exact absurd (hp.symm.trans hnone) (by simp)
  · have hclears := clears_call (k := k) hk c fun now a command heq hn =>
      hcommand ⟨now, a, command, heq, hn⟩
    rcases hclears with hsame | ⟨p', hp', _, hconfirms⟩
    · rw [hnone, hp] at hsame
      exact absurd hsame (by simp)
    · obtain rfl := Option.some.inj (hp.symm.trans hp')
      exact hconfirms

end StateManager

/-- A command that was sent to a stateful device is confirmed by an event with
the same command exactly if the command is its own authoritative form; and no
pending command is dropped without an input of its authoritative form. -/
theorem confirmed_iff (devices : List DeviceConfig) (optimistic : Bool)
    (housecodes : Option (List String)) (calls others : List Call) (now now' : Timestamp)
    {a : String} {c : Command} {e : DeviceEvent} :
    let sm := (StateManager.init devices optimistic housecodes).run calls
    let sent := (sm.call (.optimisticUpdate now a c)).1
    (sm.addressAllowed a = true → (sm.deviceConfig a).stateful = true →
      c ∈ (sm.deviceConfig a).supportedCommands → c ∈ stateCommands →
      (∀ call ∈ others, ¬ call.Concerns (normalize a)) →
      normalize e.address = normalize a → e.command = c →
      ((((sent.run others).call (.apply now' (some (.device e)))).1.pending (normalize a) = none ↔
        authoritativeState c = c))) ∧
    ∀ (call : Call) (k : String) (p : Command), sm.pending k = some p →
      (sm.call call).1.pending k = none → call.Confirms k p := by
  intro sm sent
  have hk : sm.Keyed := (run_keyed (init_fresh devices optimistic housecodes).keyed calls).1
  refine ⟨fun ha hs hsupported hstate hothers he hec => ?_, fun call k p hp hnone =>
    confirms_of_cleared hk hp hnone⟩
  have heffect := call_effect hk (.optimisticUpdate now a c)
  obtain ⟨hkeyed, hsetup⟩ := run_keyed heffect.keyed others
  replace hsetup := heffect.setup.trans hsetup
  have hpending : (sent.run others).pending (normalize a) = some c :=
    (pending_run heffect.keyed hothers).trans (pending_optimisticUpdate hk now ha hsupported)
  have hconfig : ((sent.run others).deviceConfig e.address) = sm.deviceConfig a := by
    rw [hsetup.deviceConfig, ← deviceConfig_normalize, he, deviceConfig_normalize]
  have hallowed : (sent.run others).addressAllowed e.address = true := by
    rw [hsetup.addressAllowed, ← addressAllowed_normalize, he, addressAllowed_normalize]
    exact ha
  have hevent := pending_deviceEvent hkeyed hallowed (by rw [hconfig]; exact hs)
    (by rw [hec]; exact hstate)
  rw [he, hpending, hec] at hevent
  show ((sent.run others).applyDeviceEvent e).1.pending (normalize a) = none ↔ _
  rw [hevent]
  constructor
  · intro h
    split at h
    · next heq => exact (Option.some.inj heq).symm
    · exact absurd h (by simp)
  · intro h
    rw [h, if_pos rfl]

/-- A dimmable lamp. -/
def dimmer : DeviceConfig :=
  .postInit { address := "A1", name := "Lamp", entityType := .light }

/-- The lamp reports the command. -/
def reported (c : Command) : DeviceEvent := ⟨2, .rx, .rf, c, "A1"⟩

/-- The lamp is switched on, and reports that it is. -/
theorem confirmed_iff_lamp :
    ((((((StateManager.init [dimmer] true none).call (.optimisticUpdate 1 "A1" .on)).1.run
      [.mqttConnected]).call (.apply 2 (some (.device (reported .on))))).1.pending
        (normalize "A1") = none) ↔ authoritativeState .on = .on) := by
  refine (confirmed_iff [dimmer] true none [] [.mqttConnected] 1 2).1 (by decide)
    (by decide) (by decide) (by decide) (fun call hcall => ?_) (by decide) rfl
  rw [List.mem_singleton.mp hcall]
  exact id

/-- The lamp is brightened, reports it, and is still waited for. -/
theorem bright_stays_pending :
    (StateManager.init [dimmer] true none).addressAllowed "A1" = true ∧
    ((StateManager.init [dimmer] true none).deviceConfig "A1").stateful = true ∧
    Command.bright ∈ ((StateManager.init [dimmer] true none).deviceConfig "A1").supportedCommands ∧
    Command.bright ∈ stateCommands ∧
    ((((StateManager.init [dimmer] true none).call (.optimisticUpdate 1 "A1" .bright)).1.call
      (.apply 2 (some (.device (reported .bright))))).1.pending "A1" = some .bright) := by
  decide

end MochadBridge
