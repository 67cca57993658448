import MochadBridge.BridgeSteps

/-!
# The two device tables

The bridge and the state manager each hold a copy of the device table. A lookup
that adds an unlisted address to the copy of the bridge says what the state
manager says of it anyway; a reload replaces that copy only.

Results:
1. `init_tables`: at the start the copies are equal.
2. `step_deviceAt`: a step changes what the bridge looks up only by a reload.
3. `agree_iff_meets`: the copies agree at every moment of a run exactly if no step
   loads a configuration under which an allowed device behaves otherwise.
-/

namespace MochadBridge

open Py Effect

/-- What the bridge and the state manager both go by. -/
structure Behaviour where
  entityType : DeviceType
  stateful : Bool
  supportedCommands : Finset Command
  allLightsOnResponse : Bool
  allLightsOffResponse : Bool
  allUnitsOffResponse : Bool
  deriving DecidableEq

def DeviceConfig.behaviour (d : DeviceConfig) : Behaviour where
  entityType := d.entityType
  stateful := d.stateful
  supportedCommands := d.supportedCommands
  allLightsOnResponse := d.allLightsOnResponse
  allLightsOffResponse := d.allLightsOffResponse
  allUnitsOffResponse := d.allUnitsOffResponse

namespace Bridge

/-- The tables agree on every allowed canonical address. -/
def Agree (s : Bridge) : Prop :=
  ∀ a, IsAddress a → addressAllowedByConfig s.config a = true →
    (s.deviceAt a).behaviour = (s.state.deviceConfig a).behaviour

/-- The configuration that a step loads: a stopped bridge polls no more. -/
def loads (s : Bridge) (i : Timestamp × Input) : Option Config :=
  if s.crashed ∨ s.stopping then none else s.inputConfig i.2

/-- The step loads a configuration under which an allowed device behaves
otherwise than under the one the bridge started with. -/
def Drifts (config : Config) (s : Bridge) (i : Timestamp × Input) : Prop :=
  ∃ newConfig, s.loads i = some newConfig ∧ ∃ a, IsAddress a ∧
    addressAllowedByConfig config a = true ∧
      (newConfig.deviceAt a).behaviour ≠ (config.deviceAt a).behaviour

/-! ## Steps -/

section Steps
variable {E : Env} {s t : Bridge}

theorem path_deviceAt {K : Label → Prop} (hK : ∀ l, K l → l.kind ≠ .install)
    (h : Path (system E) K s t) (a : String) : t.deviceAt a = s.deviceAt a :=
  h.frame (fun u => u.deviceAt a) fun l _ hl _ => apply_deviceAt (hK l hl) a

theorem path_housecodes {K : Label → Prop} (h : Path (system E) K s t) :
    t.config.x10Housecodes = s.config.x10Housecodes :=
  h.frame (fun u => u.config.x10Housecodes) fun l u _ _ => apply_housecodes l u

/-- Only the polling loop loads a configuration. -/
theorem polls_of_inputConfig {i : Input} {newConfig : Config}
    (h : s.inputConfig i = some newConfig) : i.polls = true := by
  cases i with
  | poll => rfl
  | _ => cases h

/-- The polling loop has ended. -/
theorem step_idle (hidle : s.crashed ∨ s.stopping) {now : Timestamp} {i : Input}
    (hpolls : i.polls = true) : step E s (now, i) = s := by
  rw [step]
  split
  · rfl
  · next hlive =>
    cases i with
    | poll => exact if_pos (hidle.resolve_left hlive)
    | _ => cases hpolls

/-- A step installs only what it loads. -/
theorem step_path_loads (h : Sound s) (i : Timestamp × Input) :
    Path (system E) (fun l => StepLabel s i.1 i.2 l ∧
      ∀ newConfig, l = .install newConfig → s.loads i = some newConfig) s (step E s i) := by
  obtain ⟨now, i⟩ := i
  by_cases hidle : (s.crashed ∨ s.stopping) ∧ i.polls
  · rw [step_idle hidle.1 hidle.2]
    exact .refl
  · refine (step_path h (now, i)).mono fun l hl => ⟨hl, ?_⟩
    rintro newConfig rfl
    have hinstall : s.inputConfig i = some newConfig := hl
    have hrun : ¬ (s.crashed ∨ s.stopping) := fun hrun => hidle ⟨hrun, polls_of_inputConfig hinstall⟩
    rw [loads, if_neg hrun]
    exact hinstall

/-- A step that loads nothing installs nothing. -/
theorem path_of_loads_none (h : Sound s) {i : Timestamp × Input} (hl : s.loads i = none) :
    Path (system E) (fun l => l.kind ≠ .install) s (step E s i) := by
  refine (step_path_loads h i).mono fun l hl' hkind => ?_
  cases l with
  | install newConfig =>
    rw [hl'.2 newConfig rfl] at hl
    cases hl
  | _ => simp [Label.kind] at hkind

/-- A step that loads nothing leaves the table as it is; one that does brings the
table of the new configuration. -/
theorem step_deviceAt (h : Sound s) (i : Timestamp × Input) (a : String) :
    (step E s i).deviceAt a =
      match s.loads i with
      | some newConfig => (s.install newConfig).deviceAt a
      | none => s.deviceAt a := by
  cases hl : s.loads i with
  | some newConfig =>
    rw [loads] at hl
    split at hl
    · cases hl
    · next hrun =>
      rw [not_or] at hrun
      obtain ⟨u, _, hdevices, hrest⟩ := reload_path (E := E) (Bool.eq_false_iff.mpr hrun.1)
        (Bool.eq_false_iff.mpr hrun.2) hl
      have hkinds : ∀ l, Kinds [.config, .registry, .clear, .own, .watch, .crashed] l →
          l.kind ≠ .install := by
        intro l hl he
        rw [Kinds, he] at hl
        exact absurd hl (by decide)
      rw [path_deviceAt hkinds hrest, deviceAt, hdevices]
      rfl
  | none => exact path_deviceAt (fun l hl => hl) (path_of_loads_none h hl) a

end Steps

/-! ## Start -/

section Start
variable {E : Env} {s : Bridge} {config : Config} {signature : Option (Int × Nat)}
  {monotonic : Nat} {registry : RegistryFile} {journal : Journal}

/-- An address begins with its house letter. -/
theorem head_of_matches {k : String} (h : matchesAddress isHouseIgnoringCase k.toList = true) :
    ∃ c rest, k.toList = c :: rest ∧ isHouseIgnoringCase c = true := by
  unfold matchesAddress at h
  split at h
  · next c u hk =>
    simp only [Bool.and_eq_true] at h
    exact ⟨c, _, hk, h.1.1⟩
  · next c t u hk =>
    simp only [Bool.and_eq_true] at h
    exact ⟨c, _, hk, h.1.1.1⟩
  · cases h

/-- An address that the configuration allows is allowed by the state manager. -/
theorem addressAllowed_of_config {optimistic : Bool} {k : String}
    (hm : matchesAddress isHouseIgnoringCase k.toList = true) (hn : normalize k = k)
    (h : addressAllowedByConfig config k = true) :
    (StateManager.empty optimistic config.x10Housecodes).addressAllowed k = true := by
  obtain ⟨c, rest, hk, hc⟩ := head_of_matches hm
  have hblank : strip (String.singleton c) ≠ "" := by
    intro hs
    refine trim_ne_nil (p := isSpace) (l := [c]) List.mem_cons_self
      (Config.isSpace_of_isHouseIgnoringCase hc) ?_
    have hlist := congrArg String.toList hs
    rwa [toList_strip, String.toList_singleton] at hlist
  rw [StateManager.addressAllowed, hn, hk]
  show (StateManager.empty optimistic config.x10Housecodes).houseAllowed (String.singleton c) = true
  rw [addressAllowedByConfig] at h
  cases hcodes : config.x10Housecodes with
  | none => rfl
  | some codes =>
    rw [hcodes] at h
    simp only [hn, hk] at h
    have hmem : normalize (String.singleton c) ∈
        (codes.filter fun code => strip code ≠ "").map normalize :=
      List.mem_map_of_mem (List.mem_filter.mpr ⟨by simpa using h, by simpa using hblank⟩)
    simp only [StateManager.houseAllowed, StateManager.empty, StateManager.normalizeHousecodes]
    split
    · rfl
    · next normalized heq =>
      split at heq
      · cases heq
      · cases heq
        simpa using hmem

/-- At the start both tables are the allowed part of the configuration. -/
theorem init_tables (h : init E config signature monotonic registry journal = .ok s) (a : String) :
    s.state.deviceConfig a = s.deviceAt a := by
  obtain ⟨_, file, rfl⟩ := init_ok h
  set devices := config.devices.filterKeys (addressAllowedByConfig config) with hdevices
  have hget : ∀ k d, devices.get? k = some d → Config.Configured k d ∧
      addressAllowedByConfig config k = true := by
    intro k d hk
    rw [hdevices, Dict.get?_filterKeys] at hk
    split at hk
    · next hallowed => exact ⟨config.configured k d hk, hallowed⟩
    · cases hk
  have hkey : ∀ k d, devices.get? k = some d → normalize d.address = k := by
    intro k d hk
    rw [(hget k d hk).1.address]
    exact (hget k d hk).1.normal
  have hallowed : ∀ d ∈ devices.values,
      (StateManager.empty config.optimisticUpdates config.x10Housecodes).addressAllowed d.address =
        true := by
    intro d hd
    obtain ⟨k, hk⟩ := Dict.mem_values.mp hd
    obtain ⟨hc, hcodes⟩ := hget k d hk
    rw [hc.address]
    exact addressAllowed_of_config hc.matched hc.normal hcodes
  have htable := StateManager.init_table hkey hallowed (normalize a)
  rw [deviceAt, StateManager.deviceConfig]
  dsimp only
  rw [htable]

end Start

/-! ## Runs -/

section Runs
variable {E : Env} {s s₀ : Bridge} {config : Config} {signature : Option (Int × Nat)}
  {monotonic : Nat} {registry : RegistryFile} {journal : Journal}

/-- What a run keeps: the house codes of the configuration, and the table of the
state manager. -/
structure Settled (config : Config) (s : Bridge) : Prop where
  sound : Sound s
  housecodes : s.config.x10Housecodes = config.x10Housecodes
  table : ∀ a, IsAddress a → addressAllowedByConfig config a = true →
    s.state.deviceConfig a = config.deviceAt a

theorem Settled.allowed (h : Settled config s) :
    addressAllowedByConfig s.config = addressAllowedByConfig config := by
  funext a
  simp only [addressAllowedByConfig, h.housecodes]

theorem deviceConfig_of_setup {sm sm' : StateManager} (h : StateManager.SameSetup sm sm')
    (a : String) : sm'.deviceConfig a = sm.deviceConfig a := by
  rw [StateManager.deviceConfig, StateManager.deviceConfig, h.configs]

theorem Settled.step (h : Settled config s) (i : Timestamp × Input) :
    Settled config (Bridge.step E s i) where
  sound := step_sound h.sound i
  housecodes := (path_housecodes (step_path (E := E) h.sound i)).trans h.housecodes
  table a ha hallowed := by
    rw [deviceConfig_of_setup (path_setup h.sound (step_path (E := E) h.sound i))]
    exact h.table a ha hallowed

theorem init_settled (h : init E config signature monotonic registry journal = .ok s) :
    Settled config s where
  sound := init_sound h
  housecodes := by
    obtain ⟨_, file, rfl⟩ := init_ok h
    rfl
  table a ha hallowed := by
    rw [init_tables h]
    obtain ⟨_, file, rfl⟩ := init_ok h
    rw [deviceAt, StateManager.normalize_of_isAddress ha, Config.deviceAt, Dict.get?_filterKeys,
      if_pos hallowed]

/-- A step keeps the tables in agreement exactly if it does not drift. -/
theorem step_agree (h : Settled config s) (hagree : s.Agree) (i : Timestamp × Input) :
    (step E s i).Agree ↔ ¬ s.Drifts config i := by
  have hnext := h.step (E := E) i
  constructor
  · rintro hstep ⟨newConfig, hl, a, ha, hallowed, hne⟩
    refine hne ?_
    have heq := hstep a ha (by rw [hnext.allowed]; exact hallowed)
    rw [step_deviceAt h.sound, hl, hnext.table a ha hallowed] at heq
    dsimp only at heq
    rwa [install_deviceAt ha (by rw [h.allowed]; exact hallowed)] at heq
  · intro hdrift a ha hallowed
    rw [hnext.allowed] at hallowed
    rw [hnext.table a ha hallowed, step_deviceAt h.sound]
    cases hl : s.loads i with
    | none =>
      rw [← h.table a ha hallowed]
      exact hagree a ha (by rw [h.allowed]; exact hallowed)
    | some newConfig =>
      dsimp only
      rw [install_deviceAt ha (by rw [h.allowed]; exact hallowed)]
      by_contra hne
      exact hdrift ⟨newConfig, hl, a, ha, hallowed, hne⟩

/-- The tables agree at every moment of a run exactly if no step of it loads a
configuration under which an allowed device behaves otherwise. -/
theorem agree_iff_meets (h₀ : init E config signature monotonic registry journal = .ok s₀)
    (inputs : List (Timestamp × Input)) :
    (∀ pre, pre <+: inputs → ∀ a, IsAddress a →
        addressAllowedByConfig (Run.exec (step E) s₀ pre).config a = true →
          ((Run.exec (step E) s₀ pre).deviceAt a).behaviour =
            ((Run.exec (step E) s₀ pre).state.deviceConfig a).behaviour) ↔
      Run.Meets (step E) (fun s i => ¬ s.Drifts config i) s₀ inputs := by
  refine Run.meets_iff (I := Agree) (B := Settled config) (fun s i hs => hs.step i)
    (fun s i hs hagree => step_agree hs hagree i) (init_settled h₀) ?_ inputs
  intro a _ _
  rw [init_tables h₀]

end Runs

/-! ## A lamp that is reloaded -/

/-- Configurations that agree on the addresses they list agree on every address. -/
theorem behaviour_of_keys {config newConfig : Config}
    (h : ∀ a ∈ config.devices.keys ++ newConfig.devices.keys,
      (newConfig.deviceAt a).behaviour = (config.deviceAt a).behaviour) (a : String) :
    (newConfig.deviceAt a).behaviour = (config.deviceAt a).behaviour := by
  by_cases ha : a ∈ config.devices.keys ++ newConfig.devices.keys
  · exact h a ha
  · rw [List.mem_append, not_or] at ha
    rw [Config.deviceAt, Config.deviceAt, Dict.get?_eq_none.mpr ha.1, Dict.get?_eq_none.mpr ha.2]

/-- A poll loads the configuration it carries. -/
theorem eq_of_loads {s : Bridge} {now : Timestamp} {monotonic : Nat}
    {signature : Option (Int × Nat)} {config newConfig : Config}
    (h : s.loads (now, .poll monotonic signature (.ok config)) = some newConfig) :
    newConfig = config := by
  rw [loads] at h
  split at h
  · cases h
  · rw [inputConfig] at h
    split at h
    · exact (Option.some.inj h).symm
    · cases h

/-- The file is read again with another table. -/
def reread (raw : String) : List (Timestamp × Input) :=
  [(1, .poll 5000000 (some (1, 2)) (.ok (.plain raw)))]

/-- A lamp gets another name, and a switch joins it. -/
theorem agree_renamed : ∃ s₀, init {} (.watched "A1:Lamp:light") none 0 .absent = .ok s₀ ∧
    ∀ pre, pre <+: reread "A1:Desk:light,B2:Fan" → ∀ a, IsAddress a →
      addressAllowedByConfig (Run.exec (step {}) s₀ pre).config a = true →
        ((Run.exec (step {}) s₀ pre).deviceAt a).behaviour =
          ((Run.exec (step {}) s₀ pre).state.deviceConfig a).behaviour := by
  have hinit : (init {} (.watched "A1:Lamp:light") none 0 .absent).toOption.isSome = true := by
    decide +kernel
  obtain ⟨s₀, h₀⟩ : ∃ s₀, init {} (.watched "A1:Lamp:light") none 0 .absent = .ok s₀ := by
    cases h : init {} (.watched "A1:Lamp:light") none 0 .absent with
    | error e =>
      rw [h] at hinit
      cases hinit
    | ok s₀ => exact ⟨s₀, rfl⟩
  refine ⟨s₀, h₀, (agree_iff_meets h₀ _).mpr ⟨?_, trivial⟩⟩
  rintro ⟨newConfig, hl, a, _, _, hne⟩
  rw [eq_of_loads hl] at hne
  exact hne (behaviour_of_keys (by decide +kernel) a)

/-- A lamp that the file makes a switch: the bridge takes it for one, the state
manager goes on with a lamp. -/
theorem lamp_reread_as_switch : ∃ s₀, init {} (.watched "A1:Lamp:light") none 0 .absent = .ok s₀ ∧
    ∃ a, IsAddress a ∧
      addressAllowedByConfig (Run.exec (step {}) s₀ (reread "A1:Lamp:switch")).config a = true ∧
      ((Run.exec (step {}) s₀ (reread "A1:Lamp:switch")).deviceAt a).behaviour ≠
        ((Run.exec (step {}) s₀ (reread "A1:Lamp:switch")).state.deviceConfig a).behaviour := by
  have hrun : (init {} (.watched "A1:Lamp:light") none 0 .absent).map (fun s₀ =>
      let s := Run.exec (step {}) s₀ (reread "A1:Lamp:switch")
      (addressAllowedByConfig s.config "A1",
        decide ((s.deviceAt "A1").behaviour = (s.state.deviceConfig "A1").behaviour))) =
      .ok (true, false) := by
    decide +kernel
  obtain ⟨s₀, h₀, hrun⟩ := map_ok hrun
  exact ⟨s₀, h₀, "A1", by decide, (Prod.mk.inj hrun).1, of_decide_eq_false (Prod.mk.inj hrun).2⟩

end Bridge

end MochadBridge
