import MochadBridge.DiscoveredFlag

/-!
# Maintenance that is off

A discovery topic is cleared by the commands behind the maintenance buttons and by
the cleanup of discovery. Every way to them asks one of two settings, which no
input changes: a reload takes neither over.

Results:
1. `step_harmless`: with both settings off, every step is a path of labels that clear
   nothing.
2. `never_clears`: so no run publishes an empty payload on a discovery topic.
-/

namespace MochadBridge

open Py Effect

namespace Bridge

variable {E : Env} {s t : Bridge} {l : Label}

/-! ## The settings -/

/-- Neither the maintenance buttons nor the cleanup of discovery are enabled. -/
structure MaintenanceOff (s : Bridge) : Prop where
  buttons : s.config.enableMaintenanceButtons = false
  cleanup : s.config.discoveryCleanup = false

/-- The label clears no topic. -/
def Label.Harmless (l : Label) : Prop := l.kind ∉ [.clear, .reset]

/-- No label changes the settings, a reload included. -/
theorem MaintenanceOff.apply (h : s.MaintenanceOff) (l : Label) : (l.apply s).MaintenanceOff := by
  cases l with
  | mqtt connected => cases connected <;> exact ⟨h.buttons, h.cleanup⟩
  | enqueue a c =>
    simp only [Label.apply, Bridge.enqueue]
    split
    · split <;> exact ⟨h.buttons, h.cleanup⟩
    · exact ⟨h.buttons, h.cleanup⟩
  | resume sent =>
    simp only [Label.apply, Bridge.resume]
    split <;> exact ⟨h.buttons, h.cleanup⟩
  | _ => exact ⟨h.buttons, h.cleanup⟩

theorem MaintenanceOff.path {K : Label → Prop} (h : s.MaintenanceOff)
    (hp : Path (system E) K s t) : t.MaintenanceOff :=
  hp.invariant (I := MaintenanceOff) (fun l _ _ _ hu => hu.apply l) h

/-! ## Labels -/

/-- A label that clears no topic publishes no empty payload on a discovery topic. -/
theorem outputs_of_harmless (hl : l.Harmless) (hg : l.guard E s) {topic : String}
    (htopic : Topics.IsDiscovery topic) (retain : Bool) :
    .publish topic (.str "") retain ∉ l.outputs s := by
  intro hm
  rcases publish_of_outputs hm with rfl | ⟨a, rfl⟩ | ⟨a, c, rfl, _⟩ | ⟨m, rfl, rfl, hp, _⟩ | ⟨hl', _⟩
  · obtain ⟨suffix, hsuffix, hown⟩ := hg
    exact htopic.not_own hsuffix hown
  · rcases hg.2 with hdevice | hdevice
    · exact htopic.not_device (by simp) hdevice
    · exact htopic.not_device (by simp) hdevice
  · exact htopic.not_device (by simp) hg.2
  · obtain ⟨fields, hfields⟩ := obj_of_announces hg
    exact Json.noConfusion (hp.symm.trans hfields)
  · rcases hl' with rfl | rfl
    · exact hl (by simp [Label.kind])
    · exact hl (by simp [Label.kind])

theorem harmless_of_kind (h : decide (l.kind ∉ [.clear, .reset]) = true) : l.Harmless := by
  rw [Label.Harmless]
  exact of_decide_eq_true h

theorem harmless_of_kinds {ks : List Kind} (hks : ks.all (· ∉ [.clear, .reset]) = true) (l : Label)
    (hl : Kinds ks l) : l.Harmless :=
  harmless_of_kind (List.all_eq_true.mp hks l.kind hl)

/-- The actions of a call clear nothing. -/
theorem harmless_of_call {c : Call} (hl : s.CallLabel c l) : l.Harmless := by
  intro hk
  rcases hl with rfl | ⟨x, _, hof⟩
  · exact absurd hk (by simp [Label.kind])
  · cases l with
    | clear | reset => exact hof
    | _ => exact absurd hk (by simp [Label.kind])

/-- Neither does an input whose own labels do not. -/
theorem harmless_of_stepLabel {now : Timestamp} {i : Input} (h : StepLabel s now i l)
    (hi : .clear ∉ s.inputKinds i ∧ .reset ∉ s.inputKinds i) : l.Harmless := by
  intro hk
  cases l with
  | clear topic =>
    rcases h with h | ⟨c, _, hl⟩
    · exact hi.1 h
    · exact harmless_of_call hl hk
  | reset topic =>
    rcases h with h | ⟨c, _, hl⟩
    · exact hi.2 h
    · exact harmless_of_call hl hk
  | _ => exact absurd hk (by simp [Label.kind])

/-! ## Steps -/

/-- The cleanup that follows a connection or a reload asks the setting. -/
theorem cleanup_harmless (hoff : s.MaintenanceOff) :
    Takes (system E) Label.Harmless (runDiscoveryCleanup E false) s := by
  refine (runDiscoveryCleanup_takes false).mono fun l hl => ?_
  rcases hl with hl | ⟨topic, _, _, henabled⟩
  · rw [Label.Harmless, hl]
    decide
  · rcases henabled with h | h
    · exact Bool.noConfusion h
    · rw [hoff.cleanup] at h
      exact Bool.noConfusion h

theorem onConnect_harmless (h : Sound s) (hoff : s.MaintenanceOff) (now : Timestamp) :
    Takes (system E) Label.Harmless (onConnect E now) s := by
  have hlink : Sound ((Label.mqtt true).apply s) := h.apply (E := E) trivial
  have hnotify := notify_takes (E := E) now hlink (c := .mqttConnected) trivial fun _ => rfl
  refine .bind (.label (.mqtt true) rfl (harmless_of_kind rfl) trivial) fun _ t ht => ?_
  cases ht
  refine .bind (hnotify.mono fun _ => harmless_of_call) fun _ u hu => ?_
  have hu' : exec (notify E now (·.call .mqttConnected)) ((Label.mqtt true).apply s) = (.ok (), u) :=
    hu
  rw [Takes, hu'] at hnotify
  have hpublish := publishBridgeDiagnosticDiscovery_does (E := E) (s := u)
  refine .bind (hpublish.mono (harmless_of_kinds rfl)) fun _ v hv => ?_
  rw [Does, Takes, hv] at hpublish
  have hoff' := ((hoff.apply (.mqtt true)).path hnotify).path hpublish
  exact .bind (cleanup_harmless hoff') fun _ _ _ => .refl

theorem announceReload_harmless (hoff : s.MaintenanceOff) :
    Takes (system E) Label.Harmless (do
      let s ← get
      if s.mqtt.connected then
        let _ ← publishCurrentDiscovery
        let _ ← runDiscoveryCleanup E false
        let s ← get
        publishStatus (.obj s.bridgeStatusPayload) true) s := by
  refine .get_bind ?_
  split
  · have hpublish := publishCurrentDiscovery_does (E := E) (s := s)
    refine .bind (hpublish.mono (harmless_of_kinds rfl)) fun _ t ht => ?_
    rw [Does, Takes, ht] at hpublish
    refine .bind (cleanup_harmless (hoff.path hpublish)) fun _ _ _ => ?_
    exact .get_bind ((publishStatus_does _ true).mono (harmless_of_kinds rfl))
  · exact .refl

/-- A reload installs a table, not the settings. -/
theorem applyRuntimeConfig_harmless (hoff : s.MaintenanceOff) (newConfig : Config) :
    Takes (system E) Label.Harmless (applyRuntimeConfig E newConfig) s := by
  have hinstall : Path (system E) Label.Harmless s (s.install newConfig) :=
    Path.single (G := system E) (l := .install newConfig) (harmless_of_kind rfl) trivial
  rw [Takes, applyRuntimeConfig, exec_bind, exec_get]
  dsimp only
  split
  · exact .refl
  · rw [exec_bind_ok _ _ _ (exec_modify _ _)]
    exact hinstall.trans (announceReload_harmless (hoff.path hinstall))

/-- With maintenance off, every step is a path of labels that clear nothing. -/
theorem step_harmless (h : Sound s) (hoff : s.MaintenanceOff) (i : Timestamp × Input) :
    Path (system E) Label.Harmless s (step E s i) := by
  obtain ⟨now, i⟩ := i
  have hother : .clear ∉ s.inputKinds i ∧ .reset ∉ s.inputKinds i →
      Path (system E) Label.Harmless s (step E s (now, i)) := fun hi =>
    (step_path h (now, i)).mono fun _ hl => harmless_of_stepLabel hl hi
  cases i with
  | mqttMessage topic payload =>
    refine hother ?_
    simp only [inputKinds, maintenanceKinds, hoff.buttons, Bool.false_eq_true, if_false]
    split <;> decide
  | mochadLine line =>
    refine hother ?_
    simp only [inputKinds]
    split <;> decide
  | mqttConnected =>
    cases hcrashed : s.crashed with
    | true =>
      rw [step, if_pos hcrashed]
      exact .refl
    | false =>
      rw [step_callback hcrashed rfl]
      exact onConnect_harmless h hoff now
  | poll monotonic signature loaded =>
    cases hi : s.inputConfig (.poll monotonic signature loaded) with
    | none =>
      refine hother ?_
      simp only [inputKinds, hi, Option.isSome_none, Bool.false_eq_true, if_false]
      decide
    | some newConfig =>
      cases hl : s.loads (now, .poll monotonic signature loaded) with
      | none =>
        have hidle : s.crashed ∨ s.stopping := by
          by_contra hrun
          rw [loads, if_neg hrun, hi] at hl
          exact absurd hl (by simp)
        rw [step_idle hidle rfl]
        exact .refl
      | some newConfig' =>
        obtain ⟨hlive, hruns⟩ : s.crashed = false ∧ s.stopping = false := by
          rw [loads] at hl
          split at hl
          · exact absurd hl (by simp)
          · next hrun => simpa using hrun
        obtain ⟨next, hstep⟩ := reload_applies (E := E) hlive hruns (i := (now, _)) hi
        have hwatch : Path (system E) Label.Harmless s
            ((Label.watch s.configFileSignature next).apply s) :=
          Path.single (G := system E) (l := .watch s.configFileSignature next)
            (harmless_of_kind rfl) trivial
        exact hwatch.trans ((applyRuntimeConfig_harmless (hoff.path hwatch) newConfig).trans
          (hstep.mono (harmless_of_kinds rfl)))
  | _ => exact hother (by simp [inputKinds])

/-! ## Runs -/

/-- What a run with maintenance off keeps. -/
structure Unswept (s : Bridge) : Prop where
  sound : Sound s
  off : s.MaintenanceOff
  kept : ∀ topic retain, Topics.IsDiscovery topic →
    .publish topic (.str "") retain ∉ s.journal.outputs

theorem Unswept.step (h : s.Unswept) (i : Timestamp × Input) : (step E s i).Unswept := by
  have hpath := step_harmless (E := E) h.sound h.off i
  refine ⟨step_sound h.sound i, h.off.path hpath, ?_⟩
  refine hpath.invariant (I := fun u => ∀ topic retain, Topics.IsDiscovery topic →
    .publish topic (.str "") retain ∉ u.journal.outputs) (fun l u hl hg hu => ?_) h.kept
  intro topic retain htopic hm
  have hm' : .publish topic (.str "") retain ∈ (l.apply u).journal.outputs := hm
  rw [outputs_apply, List.mem_append] at hm'
  rcases hm' with hm' | hm'
  · exact hu topic retain htopic hm'
  · exact outputs_of_harmless hl hg htopic retain hm'

/-- A bridge that starts with maintenance off never publishes an empty payload on a
discovery topic. -/
theorem never_clears {config : Config} {signature : Option (Int × Nat)} {monotonic : Nat}
    {registry : RegistryFile} {s₀ : Bridge} (hbuttons : config.enableMaintenanceButtons = false)
    (hcleanup : config.discoveryCleanup = false)
    (h₀ : init E config signature monotonic registry = .ok s₀)
    (hr : Run.Reaches (Bridge.step E) (fun _ _ => True) s₀ s) {topic : String}
    (htopic : Topics.IsDiscovery topic) (retain : Bool) :
    .publish topic (.str "") retain ∉ s.journal.outputs := by
  have hstart : s₀.Unswept := by
    have hsound := init_sound h₀
    obtain ⟨_, file, rfl⟩ := init_ok h₀
    exact ⟨hsound, ⟨hbuttons, hcleanup⟩, fun _ _ _ hm => absurd hm List.not_mem_nil⟩
  exact (hr.invariant hstart fun s i h _ => h.step i).kept topic retain htopic

/-- MQTT connects, and the reset of discovery is asked for. -/
def resetAsked : List (Timestamp × Input) :=
  [(1, .mqttConnected), (2, .mqttMessage "x10/bridge/command" " Reset-Discovery ")]

theorem never_clears_lamp : ∃ s₀, init {} (.plain "A1:Lamp") none 0 .absent = .ok s₀ ∧
    ∀ retain, .publish "homeassistant/switch/x10_A1/config" (.str "") retain ∉
      (Run.exec (Bridge.step {}) s₀ resetAsked).journal.outputs := by
  have hinit : (init {} (.plain "A1:Lamp") none 0 .absent).map (fun _ => ()) = .ok () := by
    decide +kernel
  obtain ⟨s₀, h₀, _⟩ := map_ok hinit
  have hmeets : Run.Meets (Bridge.step {}) (fun _ _ => True) s₀ resetAsked :=
    ⟨trivial, trivial, trivial⟩
  have htopic : Topics.IsDiscovery "homeassistant/switch/x10_A1/config" := by
    unfold Topics.IsDiscovery
    decide
  exact ⟨s₀, h₀, never_clears rfl rfl h₀ (Run.reaches_exec hmeets) htopic⟩

end Bridge

end MochadBridge
