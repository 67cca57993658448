import MochadBridge.Removal
import MochadBridge.StatePayloads
import MochadBridge.WireLines

/-!
# The house code filter

The constructor, a reload and the state manager each apply `x10_housecodes`.
`_on_mqtt_command` looks the address of its topic up before it asks the state
manager, and a lookup adds an unlisted address to the device table, whatever its
house.

Results:
1. `not_concerns_of_filtered`: while the tables are filtered, no label puts anything
   out about an address of another house.
2. `Filtered.step`: a step that brings no command for such an address keeps the
   tables filtered.
3. `filtered_iff`: so the filter is complete all along a run exactly if no step of it
   brings one.
-/

namespace MochadBridge

open Py Effect

/-- The house letter of the address is one of the codes. -/
def InHouses (codes : List String) (a : String) : Prop :=
  ∃ house unit, a.toList = house :: unit ∧ String.singleton house ∈ codes

/-- House codes are letters from `A` to `P`. -/
def HouseLetters (codes : List String) : Prop :=
  ∀ code ∈ codes, ∃ house, isHouse house = true ∧ code = String.singleton house

namespace Bridge

/-- The output is about the device at the address: a config that is not empty, a
publish on one of its topics, or a line for it. -/
def Concerns (s : Bridge) (a : String) : Output → Prop
  | .publish topic payload _ => payload ≠ .str "" ∧
      (ConfigTopic s.discovery.discoveryPrefix a topic ∨
        ∃ suffix ∈ ["state", "event", "attributes"],
          Topics.deviceTopic a suffix s.mqtt.baseTopic = .ok topic)
  | .line text _ => ∃ c, Protocol.encodeRfCommand a c = .ok text
  | .session => False

/-- Nothing is known, listed or put out about an address of another house. -/
structure Filtered (codes : List String) (s : Bridge) : Prop where
  known : ∀ k ∈ s.state.devices.keys, InHouses codes k
  table : ∀ k ∈ s.devices.keys, InHouses codes k
  outputs : ∀ a, IsAddress a → ¬ InHouses codes a → ∀ o ∈ s.journal.outputs, ¬ s.Concerns a o

/-- The filters of the bridge and of its state manager are the codes. -/
structure Filters (codes : List String) (s : Bridge) : Prop where
  normal : StateManager.normalizeHousecodes (some codes) = some codes
  config : s.config.x10Housecodes = some codes
  state : s.state.allowedHousecodes = some codes

/-- The step brings no command for an address of another house. -/
def Within (codes : List String) (s : Bridge) (i : Timestamp × Input) : Prop :=
  s.crashed = false → ∀ a c, s.inputCommand i.2 = some (a, c) → InHouses codes a

/-! ## The filters -/

section Filters
variable {codes : List String} {a : String}

/-- Letters are normalized already. -/
theorem normalizeHousecodes_letters (h : HouseLetters codes) (hne : codes ≠ []) :
    StateManager.normalizeHousecodes (some codes) = some codes := by
  have hnorm : ∀ code ∈ codes, normalize code = code := by
    intro code hcode
    obtain ⟨house, hhouse, rfl⟩ := h code hcode
    exact upper_strip_singleton hhouse
  have hkept : (codes.filter fun code => strip code ≠ "") = codes := by
    refine List.filter_eq_self.mpr fun code hcode => decide_eq_true fun hblank => ?_
    have hup := hnorm code hcode
    obtain ⟨house, _, rfl⟩ := h code hcode
    rw [normalize, hblank] at hup
    exact absurd (congrArg String.toList hup) (by simp [toList_upper])
  have hmap : codes.map normalize = codes :=
    List.map_congr_left hnorm |>.trans (List.map_id codes)
  simp only [StateManager.normalizeHousecodes, hkept, hmap]

theorem allowedByConfig_iff {config : Config} (h : config.x10Housecodes = some codes)
    (hn : normalize a = a) : addressAllowedByConfig config a = true ↔ InHouses codes a := by
  simp only [addressAllowedByConfig, h, hn, InHouses]
  cases a.toList with
  | nil => simp
  | cons house unit => simp

end Filters

/-! ## Labels -/

section Labels
variable {E : Env} {codes : List String} {s : Bridge} {l : Label} {a : String}

/-- The text of a command for an address. -/
theorem exists_commandLine {c : Command} {text : String} (ha : IsAddress a)
    (h : Protocol.encodeRfCommand a c = .ok text) : ∃ suffix, text = "rf " ++ a ++ " " ++ suffix := by
  cases hc : Protocol.encodeCommandMap c with
  | some suffix =>
    rw [Protocol.encodeRfCommand_ok ha hc] at h
    exact ⟨suffix, (Except.ok.inj h).symm⟩
  | none =>
    have hrf : lower (strip "rf") = "rf" := by decide
    simp only [Protocol.encodeRfCommand, Protocol.encodeCommand, hrf,
      Protocol.normalizeAddress_of_isAddress ha, hc] at h
    rw [if_neg (by simp)] at h
    cases h

/-- The line of a command shows the house of its address. -/
theorem inHouses_of_line {b : String} {c c' : Command} (ha : IsAddress a)
    (h : Protocol.encodeRfCommand a c = .ok (commandLine b c')) (hin : InHouses codes b) :
    InHouses codes a := by
  obtain ⟨suffix, hline⟩ := exists_commandLine ha h
  rw [← String.toList_inj, commandLine] at hline
  simp only [String.toList_append, List.append_assoc] at hline
  obtain ⟨house, unit, hb, hcode⟩ := hin
  obtain ⟨house', unit', ha'⟩ := List.exists_cons_of_ne_nil (Topics.toList_ne_nil ha.ne_empty)
  have htail := List.append_cancel_left hline
  rw [hb, ha', List.cons_append, List.cons_append, List.cons.injEq] at htail
  exact ⟨house', unit', ha', htail.1 ▸ hcode⟩

/-- A request to mochad itself is no command for a device. -/
theorem fixed_ne_line {text : String} {c : Command}
    (h : text ∈ ["st", "hello", "capabilities", "health"]) (ha : IsAddress a) :
    Protocol.encodeRfCommand a c ≠ .ok text := by
  intro hline
  obtain ⟨suffix, rfl⟩ := exists_commandLine ha hline
  have hhead : ∀ fixed ∈ ["st", "hello", "capabilities", "health"], fixed.toList.head? ≠ some 'r' := by
    decide
  exact hhead _ h (by simp)

/-- The lines of a command are about its own address. -/
theorem not_concerns_attempts {b : String} {c : Command} {ticket r : Nat} {attempts : List Nat}
    (hb : Protocol.Sendable b c) (hin : InHouses codes b) (ha : IsAddress a)
    (hout : ¬ InHouses codes a) :
    ∀ o ∈ attemptLines (commandLine b c) ticket r attempts, ¬ s.Concerns a o := by
  intro o ho
  obtain ⟨attempt, _, rfl⟩ := List.mem_map.mp ho
  rintro ⟨c', hline⟩
  rw [rstripLineEnds_commandLine hb] at hline
  exact hout (inHouses_of_line ha hline hin)

theorem plain_of_deviceSuffix {suffix : String} (hs : suffix ∈ ["state", "event", "attributes"]) :
    Topics.Plain suffix := by
  simp only [List.mem_cons, List.not_mem_nil, or_false] at hs
  rcases hs with rfl | rfl | rfl <;> exact Topics.plain_of_letters (by decide) (by decide)

/-- A topic of a device is none of the bridge itself. -/
theorem own_ne_deviceTopic {suffix suffix' base topic : String}
    (hs : suffix ∈ ["availability", "status", "response"])
    (hs' : suffix' ∈ ["state", "event", "attributes"])
    (h : Topics.bridgeTopic suffix base = .ok topic) :
    Topics.deviceTopic a suffix' base ≠ .ok topic := by
  have hplain : Topics.Plain suffix ∧ suffix ∉ ["state", "event", "attributes"] := by
    simp only [List.mem_cons, List.not_mem_nil, or_false] at hs
    rcases hs with rfl | rfl | rfl <;>
      exact ⟨Topics.plain_of_letters (by decide) (by decide), by decide⟩
  intro h'
  obtain ⟨_, hends⟩ := Topics.ends_bridgeTopic hplain.1 h
  obtain ⟨_, hends'⟩ := Topics.ends_deviceTopic (plain_of_deviceSuffix hs') h'
  rw [hends, List.cons.injEq] at hends'
  exact hplain.2 (hends'.1 ▸ hs')

/-- A topic of a device names its address. -/
theorem normalize_of_deviceTopic {b suffix suffix' base : String} {topic : String}
    (hs : suffix ∈ ["state", "event", "attributes"]) (hs' : suffix' ∈ ["state", "event", "attributes"])
    (h : Topics.deviceTopic b suffix base = .ok topic)
    (h' : Topics.deviceTopic a suffix' base = .ok topic) : normalize b = normalize a :=
  (device_of_topic (plain_of_deviceSuffix hs) (plain_of_deviceSuffix hs') h h').2

theorem not_concerns_of_filtered (hs : Sound s) (hf : s.Filtered codes) (hg : l.guard E s)
    (ha : IsAddress a) (hout : ¬ InHouses codes a) : ∀ o ∈ l.outputs s, ¬ s.Concerns a o := by
  have hnone : s.devices.get? a = none :=
    Dict.get?_eq_none.mpr fun hk => hout (hf.table a hk)
  have hknown : ∀ b, s.Known b → normalize b ≠ normalize a := by
    intro b hb he
    rw [(hs.known b hb).2, StateManager.normalize_of_isAddress ha] at he
    exact hout (he ▸ hf.known b hb)
  intro o ho hc
  cases o with
  | session => exact hc
  | publish topic payload retain =>
    obtain ⟨hne, hconfig | ⟨suffix, hsuffix, hdevice⟩⟩ := hc
    · exact hne (withheld_outputs hs hg hnone topic payload retain ho hconfig)
    · rcases publish_of_outputs ho with rfl | ⟨b, rfl⟩ | ⟨b, c, rfl, _⟩ | ⟨m, rfl, rfl, _⟩ | ⟨_, hp, _⟩
      · obtain ⟨own, hown, htopic⟩ := hg
        exact own_ne_deviceTopic hown hsuffix htopic hdevice
      · rcases hg.2 with htopic | htopic
        · exact hknown b hg.1 (normalize_of_deviceTopic (by simp) hsuffix htopic hdevice)
        · exact hknown b hg.1 (normalize_of_deviceTopic (by simp) hsuffix htopic hdevice)
      · exact hknown b hg.1 (normalize_of_deviceTopic (by simp) hsuffix hg.2 hdevice)
      · exact (isDiscovery_of_announces hg).not_device hsuffix hdevice
      · exact hne hp
  | line text stamp =>
    cases l with
    | line fixed written =>
      obtain ⟨c, hline⟩ := hc
      simp only [Label.outputs] at ho
      split at ho
      · obtain ⟨rfl, _⟩ := Output.line.inj (List.mem_singleton.mp ho)
        exact fixed_ne_line hg ha hline
      · exact absurd ho List.not_mem_nil
    | direct b c sent =>
      exact not_concerns_attempts hg.2.1 (hf.known b hg.1) ha hout _ ho hc
    | resume sent =>
      obtain ⟨_, q, rest, hq, _⟩ := hg
      obtain ⟨hknown, hsend⟩ := hs.queue q (by rw [hq]; exact List.mem_cons_self)
      simp only [Label.outputs, hq] at ho
      exact not_concerns_attempts hsend (hf.known _ hknown) ha hout _ ho hc
    | mqtt connected => cases connected <;> simp [Label.outputs] at ho
    | _ => simp [Label.outputs, messageOutput] at ho

/-! ### What labels keep -/

theorem Filters.apply (h : s.Filters codes) (hs : Sound s) (l : Label) : (l.apply s).Filters codes where
  normal := h.normal
  config := (apply_housecodes l s).trans h.config
  state := by
    rw [(apply_setup hs l).housecodes]
    exact h.state

theorem inHouses_of_addressAllowed (h : s.Filters codes) {k : String} (hk : IsAddress k)
    (ha : s.state.addressAllowed k = true) : InHouses codes k := by
  have hallows : Allows s.config k :=
    allows_of_addressAllowed hk (by rw [h.state, h.config, h.normal]) ha
  exact hallows codes (by rw [h.config, h.normal])

/-- The label looks up no address of another house that its guard does not know. -/
def Keeps (codes : List String) : Label → Prop
  | .commanded a => InHouses codes a
  | _ => True

theorem table_withDevice {b : String} (h : ∀ k ∈ s.devices.keys, InHouses codes k)
    (hb : InHouses codes (normalize b)) : ∀ k ∈ (s.withDevice b).devices.keys, InHouses codes k := by
  intro k hk
  rcases Dict.mem_keys_insert.mp hk with rfl | hk
  · exact hb
  · exact h k hk

/-- A device of the state manager may be looked up. -/
theorem inHouses_of_known (hf : s.Filtered codes) (hs : Sound s) {b : String} (hb : s.Known b) :
    InHouses codes (normalize b) := by
  rw [(hs.known b hb).2]
  exact hf.known b hb

theorem Filtered.table_apply (hf : s.Filtered codes) (hs : Sound s) (hc : s.Filters codes)
    (hg : l.guard E s) (hl : Keeps codes l) : ∀ k ∈ (l.apply s).devices.keys, InHouses codes k := by
  cases l with
  | insert b => exact table_withDevice hf.table (inHouses_of_known hf hs hg)
  | commanded b =>
    refine table_withDevice hf.table ?_
    rw [StateManager.normalize_of_isAddress hg]
    exact hl
  | direct b c sent =>
    exact table_withDevice (s := s.accept b c) hf.table (inHouses_of_known hf hs hg.1)
  | resume sent =>
    obtain ⟨_, q, rest, hq, _⟩ := hg
    obtain ⟨hknown, _⟩ := hs.queue q (by rw [hq]; exact List.mem_cons_self)
    simp only [Label.apply, Bridge.resume, hq]
    exact table_withDevice hf.table (inHouses_of_known hf hs hknown)
  | install newConfig =>
    intro k hk
    obtain ⟨d, hd⟩ := Option.ne_none_iff_exists'.mp (Dict.mem_keys.mp hk)
    have hget : (newConfig.devices.filterKeys (addressAllowedByConfig s.config)).get? k = some d := hd
    rw [Dict.get?_filterKeys] at hget
    split at hget
    · next hallowed =>
      exact (allowedByConfig_iff hc.config (newConfig.configured k d hget).normal).mp hallowed
    · cases hget
  | enqueue b c =>
    simp only [Label.apply, Bridge.enqueue]
    split
    · split <;> exact hf.table
    · exact hf.table
  | mqtt connected => cases connected <;> exact hf.table
  | _ => exact hf.table

theorem Filtered.known_apply (hf : s.Filtered codes) (hs : Sound s) (hc : s.Filters codes)
    (hg : l.guard E s) : ∀ k ∈ (l.apply s).state.devices.keys, InHouses codes k := by
  by_cases hcall : l.kind = .call
  · cases l with
    | call c =>
      intro k hk
      rcases ((StateManager.call_effect hs.keyed c).known k).mp hk with hk | hk
      · exact hf.known k hk
      · exact inHouses_of_addressAllowed hc (StateManager.callNames_isAddress hg hk)
          (StateManager.of_mem_callNames hk).2
    | _ => simp [Label.kind] at hcall
  · rw [apply_state hcall]
    exact hf.known

/-- The tables stay filtered, and so do the outputs. -/
theorem Filtered.apply (hf : s.Filtered codes) (hs : Sound s) (hc : s.Filters codes)
    (hg : l.guard E s) (hl : Keeps codes l) : (l.apply s).Filtered codes where
  known := hf.known_apply hs hc hg
  table := hf.table_apply hs hc hg hl
  outputs a ha hout o ho := by
    have hsame : (l.apply s).Concerns a o ↔ s.Concerns a o := by
      unfold Concerns
      rw [apply_discovery, apply_base]
    rw [hsame]
    rw [outputs_apply, List.mem_append] at ho
    rcases ho with ho | ho
    · exact hf.outputs a ha hout o ho
    · exact not_concerns_of_filtered hs hf hg ha hout o ho

end Labels

/-! ## Steps -/

section Steps
variable {E : Env} {codes : List String} {s : Bridge} {a : String}

theorem keeps_of_stepLabel {i : Timestamp × Input} (hlive : s.crashed = false)
    (hw : s.Within codes i) {l : Label} (hl : StepLabel s i.1 i.2 l) : Keeps codes l := by
  cases l with
  | commanded a =>
    obtain ⟨⟨a', c⟩, hcommand, rfl⟩ := Option.map_eq_some_iff.mp hl
    exact hw hlive a' c hcommand
  | _ => trivial

theorem Filters.step (hc : s.Filters codes) (hs : Sound s) (i : Timestamp × Input) :
    (Bridge.step E s i).Filters codes :=
  hs.carries (step_path (E := E) hs i) hc fun l _ _ _ hu hc => hc.apply hu l

/-- A step that brings no command for another house keeps the tables filtered. -/
theorem Filtered.step (hf : s.Filtered codes) (hs : Sound s) (hc : s.Filters codes)
    {i : Timestamp × Input} (hw : s.Within codes i) : (Bridge.step E s i).Filtered codes := by
  cases hlive : s.crashed with
  | true =>
    rw [Bridge.step, hlive]
    exact hf
  | false =>
    have hboth : (Bridge.step E s i).Filters codes ∧ (Bridge.step E s i).Filtered codes :=
      hs.carries (I := fun u => u.Filters codes ∧ u.Filtered codes) (step_path (E := E) hs i)
        ⟨hc, hf⟩ fun l u hl hg hu hboth =>
          ⟨hboth.1.apply hu l, hboth.2.apply hu hboth.1 hg (keeps_of_stepLabel hlive hw hl)⟩
    exact hboth.2

/-- A device command puts its address into the device table. -/
theorem onMessage_lists (hs : Sound s) (now : Timestamp) {topic payload : String} {c : Command}
    (hm : s.messageCommand topic payload = some (a, c)) :
    a ∈ (exec (onMessage E now topic payload) s).2.devices.keys := by
  have hsend := sendable_of_messageCommand hm
  have hlisted : a ∈ (s.withDevice a).devices.keys :=
    Dict.mem_keys_insert.mpr (.inl (StateManager.normalize_of_isAddress hsend.1).symm)
  by_cases hc : c ∈ (s.deviceAt a).supportedCommands
  · have hrest := calls_takes (E := E) now (hs.withDevice a) (c := .optimisticUpdate now a c) hsend
    have hkept : ∀ t, Path (system E) ((s.withDevice a).CallLabel (.optimisticUpdate now a c))
        (s.withDevice a) t → a ∈ t.devices.keys := by
      intro t ht
      refine ht.invariant (I := fun u => a ∈ u.devices.keys) (fun l u hl _ hu => ?_) hlisted
      refine apply_listed ?_ hu
      rintro hinstall
      rcases hl with rfl | ⟨x, _, hx⟩
      · exact Kind.noConfusion hinstall
      · have hkind := kind_of_of hx
        rw [hinstall] at hkind
        exact absurd hkind (by decide)
    rw [exec_onMessage_command hs now hm hc]
    exact hkept _ hrest
  · rw [exec_onMessage_unsupported hs now hm hc]
    exact hlisted

/-- A step breaks the filter exactly if it brings such a command. -/
theorem filtered_step_iff (hs : Sound s) (hc : s.Filters codes) (hf : s.Filtered codes)
    (i : Timestamp × Input) : (Bridge.step E s i).Filtered codes ↔ s.Within codes i := by
  refine ⟨fun hstep hlive a c hcommand => ?_, hf.step hs hc⟩
  obtain ⟨now, input⟩ := i
  obtain ⟨topic, payload, rfl, hm⟩ := message_of_inputCommand hcommand
  rw [step_callback hlive rfl] at hstep
  have hstep' : (exec (onMessage E now topic payload) s).2.Filtered codes := hstep
  exact hstep'.table a (onMessage_lists hs now hm)

end Steps

/-! ## Runs -/

section Runs
variable {E : Env} {codes : List String} {config : Config} {signature : Option (Int × Nat)}
  {monotonic : Nat} {registry : RegistryFile} {s₀ : Bridge}

theorem init_filters (hletters : HouseLetters codes) (hne : codes ≠ [])
    (hcodes : config.x10Housecodes = some codes)
    (h₀ : init E config signature monotonic registry = .ok s₀) : s₀.Filters codes := by
  have hnormal := normalizeHousecodes_letters hletters hne
  obtain ⟨_, file, rfl⟩ := init_ok h₀
  refine ⟨hnormal, hcodes, ?_⟩
  rw [StateManager.init_housecodes, hcodes]
  exact hnormal

theorem init_filtered (hcodes : config.x10Housecodes = some codes)
    (h₀ : init E config signature monotonic registry = .ok s₀) : s₀.Filtered codes := by
  obtain ⟨_, file, rfl⟩ := init_ok h₀
  have htable : ∀ k ∈ (config.devices.filterKeys (addressAllowedByConfig config)).keys,
      InHouses codes k := by
    intro k hk
    obtain ⟨d, hd⟩ := Option.ne_none_iff_exists'.mp (Dict.mem_keys.mp hk)
    rw [Dict.get?_filterKeys] at hd
    split at hd
    · next hallowed =>
      exact (allowedByConfig_iff hcodes (config.configured k d hd).normal).mp hallowed
    · cases hd
  refine ⟨fun k hk => ?_, htable, fun _ _ _ o ho => absurd ho List.not_mem_nil⟩
  obtain ⟨d, hd, _, rfl⟩ := (StateManager.init_keys _ _ _ k).mp hk
  obtain ⟨k, hget⟩ := Dict.mem_values.mp hd
  have hkey := init_sound h₀ |>.table k d hget
  rw [hkey.1, hkey.2]
  exact htable k (Dict.mem_keys.mpr (by rw [hget]; exact Option.some_ne_none d))

/-- The filter is complete at every moment of a run exactly if no step of it brings a
device command for an address of another house. -/
theorem filtered_iff (hletters : HouseLetters codes) (hne : codes ≠ [])
    (hcodes : config.x10Housecodes = some codes)
    (h₀ : init E config signature monotonic registry = .ok s₀) (inputs : List (Timestamp × Input)) :
    (∀ pre, pre <+: inputs → (Run.exec (Bridge.step E) s₀ pre).Filtered codes) ↔
      Run.Meets (Bridge.step E) (Within codes) s₀ inputs :=
  Run.meets_iff (B := fun s => Sound s ∧ s.Filters codes)
    (fun _ i h => ⟨step_sound h.1 i, h.2.step h.1 i⟩)
    (fun _ i h hf => filtered_step_iff h.1 h.2 hf i)
    ⟨init_sound h₀, init_filters hletters hne hcodes h₀⟩ (init_filtered hcodes h₀) inputs

/-- A lamp of house `A`, and a bridge that hears this house only. -/
def houseA : Config := { Config.plain "A1:Lamp" with x10Housecodes := some ["A"] }

theorem filtered_lamp : ∃ s₀, init {} houseA none 0 .absent = .ok s₀ ∧
    ∀ pre, pre <+: [(1, Input.mqttConnected), (2, .mochadConnected)] →
      (Run.exec (Bridge.step {}) s₀ pre).Filtered ["A"] := by
  have hinit : (init {} houseA none 0 .absent).map (fun _ => ()) = .ok () := by decide +kernel
  obtain ⟨s₀, h₀, _⟩ := map_ok hinit
  have hletters : HouseLetters ["A"] := fun code hcode =>
    ⟨'A', by decide, List.mem_singleton.mp hcode⟩
  refine ⟨s₀, h₀, (filtered_iff hletters (by simp) rfl h₀ _).mpr ?_⟩
  exact ⟨fun _ _ _ h => (nomatch h), fun _ _ _ h => (nomatch h), trivial⟩

/-- A command for `P1` is not carried out, and puts `P1` into the device table. -/
theorem stray_listed : ∃ s₀, init {} houseA none 0 .absent = .ok s₀ ∧
    ¬ InHouses ["A"] "P1" ∧
    "P1" ∈ (Bridge.step {} s₀ (1, .mqttMessage "x10/P1/command" "ON")).devices.keys ∧
    ¬ (Bridge.step {} s₀ (1, .mqttMessage "x10/P1/command" "ON")).Filtered ["A"] := by
  have hinit : (init {} houseA none 0 .absent).map (fun s₀ => decide
      ("P1" ∈ (Bridge.step {} s₀ (1, .mqttMessage "x10/P1/command" "ON")).devices.keys)) =
      .ok true := by
    decide +kernel
  obtain ⟨s₀, h₀, hlisted⟩ := map_ok hinit
  have hout : ¬ InHouses ["A"] "P1" := by
    rintro ⟨house, unit, hlist, hcode⟩
    obtain ⟨rfl, _⟩ := List.cons.inj (hlist.symm.trans (by decide : "P1".toList = ['P', '1']))
    exact absurd hcode (by decide)
  have hmem := of_decide_eq_true hlisted
  exact ⟨s₀, h₀, hout, hmem, fun hf => hout (hf.table _ hmem)⟩

end Runs

end Bridge

end MochadBridge
