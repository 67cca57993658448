import MochadBridge.DeviceHistory

/-!
# What a device record says

The operations of the state manager update different fields of a `DeviceState`: an
event marks it as seen, a command notes itself as pending, and a state that changes
moves the old one to `previous_state`.

Results:
1. `Recorded.apply`: a change made at a time not before the last one keeps a record
   consistent.
2. `Known.call`: every known device has an address that the filter allows.
3. `records_consistent`: along every run whose times do not go back, every record is
   consistent.
-/

namespace MochadBridge

open Py Effect StateManager

/-! ## Times -/

/-- When a call happens: the timestamp of its event, or the reading of the clock. A
notification has no time, nor has an event that is not understood. -/
def Call.time : Call → Option Timestamp
  | .apply _ (some (.device e)) => some e.timestamp
  | .apply _ (some (.house e)) => some e.timestamp
  | .apply now (some (.snapshot _)) => some now
  | .optimisticUpdate now _ _ => some now
  | _ => none

/-- The times of the calls do not go back. -/
def Ordered (calls : List Call) : Prop := (calls.filterMap Call.time).Pairwise (· ≤ ·)

/-! ## One record -/

/-- The record is consistent, for a device with this configuration that was last seen at
the time or before. -/
structure Recorded (d : DeviceConfig) (t : Timestamp) (st : DeviceState) : Prop where
  changed : st.currentState = none ↔ st.lastChanged = none
  previous : st.currentState = none → st.previousState = none
  differs : st.currentState ≠ none → st.currentState ≠ st.previousState
  seen : ∀ changed, st.lastChanged = some changed →
    ∃ seen, st.lastSeen = some seen ∧ changed ≤ seen
  pending : ∀ command, st.pendingCommand = some command → command ∈ d.supportedCommands
  recent : ∀ seen, st.lastSeen = some seen → seen ≤ t

/-- The time at which a touch looks at the device. -/
def Touch.time : Touch → Option Timestamp
  | .seen now | .take _ now _ => some now
  | _ => none

section Record
variable {d : DeviceConfig} {t t' : Timestamp} {st : DeviceState}

theorem recorded_fresh (d : DeviceConfig) (t : Timestamp) (k : String) :
    Recorded d t { address := k } :=
  ⟨⟨fun _ => rfl, fun _ => rfl⟩, fun _ => rfl, fun h => absurd rfl h, fun _ h => (nomatch h),
    fun _ h => (nomatch h), fun _ h => (nomatch h)⟩

theorem Recorded.mono (h : Recorded d t st) (ht : t ≤ t') : Recorded d t' st :=
  { h with recent := fun seen hs => Nat.le_trans (h.recent seen hs) ht }

/-- A device that is seen was not seen later before. -/
theorem Recorded.see (h : Recorded d t st) :
    Recorded d t { st with available := true, lastSeen := some t } :=
  { h with
    seen := fun changed hc => by
      obtain ⟨seen, hs, hle⟩ := h.seen changed hc
      exact ⟨t, rfl, Nat.le_trans hle (h.recent seen hs)⟩
    recent := fun seen hs => Nat.le_of_eq (Option.some.inj hs).symm }

theorem Recorded.clear (h : Recorded d t st) (command : Command) :
    Recorded d t (clearConfirmedPending st command) := by
  unfold clearConfirmedPending
  split
  · exact { h with pending := fun _ hp => (nomatch hp) }
  · exact h

/-- Both branches of `_set_device_state`: a duplicate is seen only, another state
replaces the current one. -/
theorem Recorded.take (h : Recorded d t st) (command : Command) (clearPending : Bool) :
    Recorded d t (st.take command t clearPending) := by
  have hset : Recorded d t (if st.currentState = some (authoritativeState command) then
      { st with lastSeen := some t }
    else { st with
      previousState := st.currentState
      currentState := some (authoritativeState command)
      lastSeen := some t
      lastChanged := some t }) := by
    split
    · exact { h.see with }
    · next hnew =>
      exact
        { changed := by simp
          previous := fun hnone => (nomatch hnone)
          differs := fun _ heq => hnew heq.symm
          seen := fun changed hc => ⟨t, rfl, Nat.le_of_eq (Option.some.inj hc).symm⟩
          pending := h.pending
          recent := fun seen hs => Nat.le_of_eq (Option.some.inj hs).symm }
  unfold DeviceState.take
  cases clearPending with
  | true => exact hset.clear _
  | false => exact hset

/-- A touch at the time keeps a record consistent. -/
theorem Recorded.apply (h : Recorded d t st) {l : Touch} (hfit : l.fits d)
    (htime : ∀ now, l.time = some now → now = t) : Recorded d t (l.apply st) := by
  cases l with
  | seen now =>
    obtain rfl := htime now rfl
    exact h.see
  | pend command =>
    exact { h with pending := fun c hc => by rw [← Option.some.inj hc]; exact hfit }
  | discover | lose => exact { h with }
  | take command now clearPending =>
    obtain rfl := htime now rfl
    exact h.take command clearPending

end Record

/-- The touches of a call are made at its time. -/
theorem time_of_touches {c : Call} {l : Touch} (hl : c.touches l) {now : Timestamp}
    (h : l.time = some now) : c.time = some now := by
  cases c with
  | apply now' event =>
    match event, hl with
    | some (.device e), hl =>
      rcases hl with rfl | rfl | rfl
      · exact h
      · cases h
      · exact h
    | some (.house e), hl =>
      rcases hl with rfl | rfl
      · exact h
      · exact h
    | some (.snapshot snap), hl =>
      rcases hl with rfl | ⟨e, _, rfl⟩
      · exact h
      · exact h
  | optimisticUpdate now' a command =>
    rcases hl with rfl | rfl | rfl
    · cases h
    · cases h
    · exact h
  | mqttConnected =>
    obtain rfl : l = .discover := hl
    cases h
  | mochadDisconnected =>
    obtain rfl : l = .lose := hl
    cases h
  | mqttDisconnected | mochadConnected => exact absurd hl not_false

/-! ## All records -/

namespace StateManager

/-- The known devices have normal addresses that the filter allows. -/
def Known (sm : StateManager) : Prop :=
  ∀ k ∈ sm.devices.keys, normalize k = k ∧ sm.addressAllowed k = true

/-- Every record is consistent, for devices that were last seen at the time or before. -/
structure Records (t : Timestamp) (sm : StateManager) : Prop where
  keyed : sm.Keyed
  known : sm.Known
  device : ∀ k, Recorded (sm.deviceConfig k) t (sm.stateAt k)

section Records
variable {sm : StateManager} {t : Timestamp}

theorem Known.call (h : sm.Known) (hk : sm.Keyed) (c : Call) : (sm.call c).1.Known := by
  have heffect := call_effect hk c
  intro k hmem
  rw [heffect.setup.addressAllowed]
  rcases (heffect.known k).mp hmem with hmem | hmem
  · exact h k hmem
  · exact of_mem_callNames hmem

/-- A call that is not before the time keeps the records consistent, at its own time. -/
theorem Records.call (h : Records t sm) {c : Call} (htime : ∀ now, c.time = some now → t ≤ now) :
    Records (c.time.getD t) (sm.call c).1 := by
  have htouches := call_touches h.keyed c
  have hle : t ≤ c.time.getD t := by
    cases hc : c.time with
    | none => exact Nat.le_refl t
    | some now => exact htime now hc
  refine ⟨(call_effect h.keyed c).keyed, h.known.call h.keyed c, fun k => ?_⟩
  rw [htouches.setup.deviceConfig]
  refine (htouches.device k).invariant (fun l st hl hfit hst => hst.apply hfit ?_)
    ((h.device k).mono hle)
  intro now hnow
  rw [time_of_touches hl hnow]
  rfl

theorem Records.run (h : Records t sm) {calls : List Call} (hordered : Ordered calls)
    (hlater : ∀ now ∈ calls.filterMap Call.time, t ≤ now) : ∃ t', Records t' (sm.run calls) := by
  induction calls generalizing sm t with
  | nil => exact ⟨t, h⟩
  | cons c calls ih =>
    have hcall := h.call (c := c) fun now hc => hlater now (by
      rw [List.filterMap_cons_some hc]
      exact List.mem_cons_self)
    cases hc : c.time with
    | none =>
      rw [Ordered, List.filterMap_cons_none hc] at hordered
      rw [List.filterMap_cons_none hc] at hlater
      rw [hc] at hcall
      exact ih hcall hordered hlater
    | some now =>
      rw [Ordered, List.filterMap_cons_some hc] at hordered
      obtain ⟨hnext, hrest⟩ := List.pairwise_cons.mp hordered
      rw [hc] at hcall
      exact ih hcall hrest hnext

theorem init_records (devices : List DeviceConfig) (optimistic : Bool)
    (housecodes : Option (List String)) (t : Timestamp) :
    Records t (init devices optimistic housecodes) := by
  refine ⟨(init_fresh devices optimistic housecodes).keyed, fun k hk => ?_, fun k => ?_⟩
  · obtain ⟨d, _, hallowed, rfl⟩ := (init_keys devices optimistic housecodes k).mp hk
    exact ⟨normalize_normalize _, by rwa [addressAllowed_normalize]⟩
  · rw [init_stateAt]
    exact recorded_fresh _ t k

end Records

/-! ## Consistency -/

/-- The record stored under a key is consistent. -/
structure Consistent (sm : StateManager) (k : String) (st : DeviceState) : Prop where
  address : st.address = k
  house : ∃ house unit, k.toList = house :: unit ∧ sm.houseAllowed (String.singleton house) = true
  changed : st.currentState = none ↔ st.lastChanged = none
  previous : st.currentState = none → st.previousState = none
  differs : st.currentState ≠ none → st.currentState ≠ st.previousState
  seen : ∀ changed, st.lastChanged = some changed →
    ∃ seen, st.lastSeen = some seen ∧ changed ≤ seen
  pending : ∀ command, st.pendingCommand = some command →
    command ∈ (sm.deviceConfig k).supportedCommands

/-- The first character of an allowed address passes the house filter. -/
theorem house_of_addressAllowed {sm : StateManager} {k : String} (hk : normalize k = k)
    (h : sm.addressAllowed k = true) :
    ∃ house unit, k.toList = house :: unit ∧ sm.houseAllowed (String.singleton house) = true := by
  rw [addressAllowed, hk] at h
  cases hl : k.toList with
  | nil =>
    rw [hl] at h
    cases h
  | cons house unit =>
    rw [hl] at h
    exact ⟨house, unit, rfl, h⟩

theorem Records.consistent {sm : StateManager} {t : Timestamp} (h : Records t sm) {k : String}
    {st : DeviceState} (hget : sm.devices.get? k = some st) : sm.Consistent k st := by
  have hst : sm.stateAt k = st := by rw [stateAt, hget, Option.getD_some]
  have hrecord := h.device k
  rw [hst] at hrecord
  obtain ⟨hnormal, hallowed⟩ := h.known k (Dict.mem_keys.mpr (by simp [hget]))
  exact ⟨h.keyed k st hget, house_of_addressAllowed hnormal hallowed, hrecord.changed,
    hrecord.previous, hrecord.differs, hrecord.seen, hrecord.pending⟩

/-- In every run whose times do not go back, every record stays consistent. -/
theorem records_consistent (devices : List DeviceConfig) (optimistic : Bool)
    (housecodes : Option (List String)) {calls : List Call} (hordered : Ordered calls)
    {k : String} {st : DeviceState}
    (hget : ((init devices optimistic housecodes).run calls).devices.get? k = some st) :
    ((init devices optimistic housecodes).run calls).Consistent k st := by
  obtain ⟨t, hrecords⟩ := (init_records devices optimistic housecodes 0).run hordered
    fun now _ => Nat.zero_le now
  exact hrecords.consistent hget

/-- A lamp that was switched on, and is being switched off. -/
def switched : List Call :=
  [.apply 1 (some (.snapshot { devices := .ofPairs [("A1", .on)] })),
    .optimisticUpdate 2 "A1" .off]

theorem records_consistent_switched : Ordered switched ∧
    ∃ st, ((init [.unlisted "A1"] true none).run switched).devices.get? "A1" = some st ∧
      st.currentState = some .off ∧ st.previousState = some .on ∧ st.pendingCommand = some .off ∧
      ((init [.unlisted "A1"] true none).run switched).Consistent "A1" st := by
  have hordered : Ordered switched := by
    unfold Ordered
    decide
  have hget : ((init [.unlisted "A1"] true none).run switched).devices.get? "A1" = some
      { address := "A1", currentState := some .off, previousState := some .on, lastSeen := some 2,
        lastChanged := some 2, pendingCommand := some .off, available := true } := by
    decide
  exact ⟨hordered, _, hget, rfl, rfl, rfl, records_consistent [.unlisted "A1"] true none hordered hget⟩

end StateManager

end MochadBridge
