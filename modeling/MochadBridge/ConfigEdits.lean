import MochadBridge.Reload

/-!
# Edits of the config file

The config file is written by somebody else, at any time. `main` loads it, the
constructor notes its signature, and a poll reads the signature and then loads the
file, if the signature is another one. These are separate steps, and a write may
come between any two of them.

Results:
1. `exec_checkConfigFileReload`: a poll is its two halves.
2. `World.step_consistent`: the invariant of the steps.
3. `edits_taken`: after a poll the device table is the one of the file, if no write
   came between the load in `main` and the constructor.
-/

namespace MochadBridge

open Py Effect

namespace Bridge

/-- `_check_config_file_reload` up to the load: whether there is one. -/
def startPoll (monotonic : Nat) (signature : Option (Int × Nat)) : BridgeM Bool := do
  let s ← get
  if s.config.configFile.isNone then return false
  else if monotonic < s.nextConfigReloadCheck then return false
  else
    modify fun s => { s with
      nextConfigReloadCheck := monotonic + s.config.configReloadIntervalMicros }
    return !decide (signature = s.configFileSignature)

/-- `_check_config_file_reload` from the load on. -/
def finishPoll (env : Env) (signature : Option (Int × Nat)) (loaded : Except PyError Config) :
    BridgeM Unit :=
  match loaded with
  | .error (.configError _) => return ()
  | .error e => throw e
  | .ok newConfig => do
    applyRuntimeConfig env newConfig
    modify fun s => { s with configFileSignature := signature }

/-- The poll looks at the signature of the file. -/
def Due (s : Bridge) (monotonic : Nat) : Prop :=
  s.config.configFile.isSome = true ∧ s.nextConfigReloadCheck ≤ monotonic

instance (s : Bridge) (monotonic : Nat) : Decidable (s.Due monotonic) :=
  inferInstanceAs (Decidable (_ ∧ _))

section Halves
variable {E : Env} {s t : Bridge} {monotonic : Nat} {signature : Option (Int × Nat)}
  {loaded : Except PyError Config}

theorem exec_startPoll : exec (startPoll monotonic signature) s =
    if s.Due monotonic then (.ok (!decide (signature = s.configFileSignature)),
      s.scheduled (monotonic + s.config.configReloadIntervalMicros))
    else (.ok false, s) := by
  rw [startPoll, exec_bind_ok _ _ _ (exec_get s)]
  by_cases hfile : s.config.configFile.isNone = true
  · rw [if_pos hfile, if_neg]
    · rfl
    · rintro ⟨hsome, _⟩
      rw [Option.isNone_iff_eq_none] at hfile
      rw [hfile] at hsome
      exact Bool.noConfusion hsome
  · have hsome : s.config.configFile.isSome = true := by
      simpa [Option.isSome_iff_ne_none] using hfile
    rw [if_neg hfile]
    by_cases hlt : monotonic < s.nextConfigReloadCheck
    · rw [if_pos hlt, if_neg fun hdue => absurd hdue.2 (not_le.mpr hlt)]
      rfl
    · rw [if_neg hlt, if_pos ⟨hsome, not_lt.mp hlt⟩, exec_bind_ok _ _ _ (exec_modify s _)]
      rfl

/-- The halves make up the poll; the file is loaded only if there is another half. -/
theorem exec_checkConfigFileReload :
    exec (checkConfigFileReload E monotonic signature loaded) s =
      exec (startPoll monotonic signature >>= fun reads =>
        if reads then finishPoll E signature loaded else pure ()) s := by
  rw [exec_bind, exec_startPoll]
  by_cases hdue : s.Due monotonic
  · rw [if_pos hdue]
    by_cases hsame : signature = s.configFileSignature
    · rw [decide_eq_true hsame]
      unfold checkConfigFileReload
      have hfile : ¬ s.config.configFile.isNone = true := by
        simpa [Option.isSome_iff_ne_none] using hdue.1
      have hlate : ¬ ((!false) = true ∧ monotonic < s.nextConfigReloadCheck) :=
        fun hearly => absurd hdue.2 (not_le.mpr hearly.2)
      rw [exec_bind_ok _ _ _ (exec_get s), if_neg hfile, if_neg hlate,
        exec_bind_ok _ _ _ (exec_modify s _), if_pos ⟨rfl, hsame⟩]
      rfl
    · rw [decide_eq_false hsame, exec_of_reads ⟨hdue.1, .inr ⟨hdue.2, hsame⟩⟩]
      rfl
  · rw [if_neg hdue]
    unfold checkConfigFileReload
    rw [exec_bind_ok _ _ _ (exec_get s)]
    by_cases hfile : s.config.configFile.isNone = true
    · rw [if_pos hfile]
      rfl
    · have hsome : s.config.configFile.isSome = true := by
        simpa [Option.isSome_iff_ne_none] using hfile
      rw [if_neg hfile, if_pos ⟨rfl, not_le.mp fun hle => hdue ⟨hsome, hle⟩⟩]
      rfl

/-- What a poll that ends well made of the bridge: nothing, where the file is rejected;
else the table is the one of the file, and the signature is noted. -/
theorem exec_finishPoll {r : Unit} (ht : exec (finishPoll E signature loaded) s = (.ok r, t)) :
    (t = s ∧ ∃ message, loaded = .error (.configError message)) ∨
      (t.configFileSignature = signature ∧
        t.config.x10Housecodes = s.config.x10Housecodes ∧
        ∃ newConfig, loaded = .ok newConfig ∧ ∀ k, t.devices.get? k =
          (newConfig.devices.filterKeys (addressAllowedByConfig s.config)).get? k) := by
  cases hloaded : loaded with
  | error e =>
    rw [hloaded] at ht
    cases e with
    | configError message => exact .inl ⟨(Prod.mk.inj ht).2.symm, message, rfl⟩
    | _ => cases ht
  | ok newConfig =>
    rw [hloaded, finishPoll, exec_bind] at ht
    obtain ⟨u, _, hdevices, hrest⟩ := applyRuntimeConfig_path (E := E) (s := s) newConfig
    have htakes := applyRuntimeConfig_takes (E := E) (s := s) newConfig
    rw [Takes] at htakes
    have hcodes := htakes.frame (fun u => u.config.x10Housecodes) fun l u _ _ => apply_housecodes l u
    have hkept := hrest.frame Bridge.devices fun l v hl _ => by
      cases l <;> first | rfl | simp [Kinds, Label.kind] at hl
    generalize exec (applyRuntimeConfig E newConfig) s = outcome at ht hcodes hkept
    obtain ⟨result, v⟩ := outcome
    cases result with
    | error e => cases ht
    | ok _ =>
      obtain rfl := (Prod.mk.inj ht).2
      refine .inr ⟨rfl, hcodes, newConfig, rfl, fun k => ?_⟩
      show v.devices.get? k = _
      rw [show v.devices = u.devices from hkept, hdevices k]
      rfl

theorem finishPoll_sound (h : Sound s) (signature : Option (Int × Nat))
    (loaded : Except PyError Config) : Sound (exec (finishPoll E signature loaded) s).2 := by
  unfold finishPoll
  split
  · exact h
  · exact h
  · next newConfig =>
    have htakes := applyRuntimeConfig_takes (E := E) (s := s) newConfig
    rw [Takes] at htakes
    have happlied := h.path htakes
    rw [exec_bind]
    generalize exec (applyRuntimeConfig E newConfig) s = outcome at happlied
    obtain ⟨result, v⟩ := outcome
    cases result with
    | error e => exact happlied
    | ok _ => exact happlied.of_same rfl rfl rfl rfl rfl rfl rfl

/-- Only a poll notes a signature. -/
theorem apply_signature {l : Label} (h : l.kind ≠ .watch) :
    (l.apply s).configFileSignature = s.configFileSignature := by
  cases l with
  | watch => exact absurd rfl h
  | mqtt connected => cases connected <;> rfl
  | enqueue a c =>
    simp only [Label.apply, Bridge.enqueue]
    split
    · split <;> rfl
    · rfl
  | resume sent =>
    simp only [Label.apply, Bridge.resume]
    split <;> rfl
  | _ => rfl

theorem step_signature (hs : Sound s) {i : Timestamp × Input} (hi : i.2.polls = false) :
    (step E s i).configFileSignature = s.configFileSignature := by
  refine (step_path hs i).frame Bridge.configFileSignature fun l u hl _ => apply_signature fun hk => ?_
  cases l with
  | watch signature next =>
    rcases hl with hl | ⟨call, _, hl | ⟨x, _, hl⟩⟩
    · cases hinput : i.2 with
      | poll monotonic signature loaded =>
        rw [hinput] at hi
        exact Bool.noConfusion hi
      | mqttMessage topic payload =>
        rw [hinput] at hl
        exact absurd (kind_of_message hl) (by simp [Label.kind])
      | mochadLine line =>
        rw [hinput, inputKinds] at hl
        split at hl <;> exact absurd hl (by simp [Label.kind])
      | _ =>
        rw [hinput] at hl
        exact absurd hl (by simp [inputKinds, Label.kind])
    · exact Label.noConfusion hl
    · exact hl
  | _ => exact Kind.noConfusion hk

theorem step_housecodes (hs : Sound s) (i : Timestamp × Input) :
    (step E s i).config.x10Housecodes = s.config.x10Housecodes :=
  (step_path hs i).frame (fun u => u.config.x10Housecodes) fun l u _ _ => apply_housecodes l u

end Halves

end Bridge

/-! ## The process and the file -/

/-- How far the process is: `main` has not loaded the file yet, or has; the bridge
runs, or is in the middle of a poll that found another signature; the process is over. -/
inductive Phase where
  | starting
  | configured (config : Config)
  | running (bridge : Bridge)
  | polling (bridge : Bridge) (signature : Option (Int × Nat))
  | ended

/-- The file and the process. `past` has the signatures that the file has had. `quiet`
says that no write came since the last poll began; `settled`, that a poll that was due
ended well, and no write came since it began. -/
structure World where
  file : ConfigText
  signature : Option (Int × Nat)
  past : List (Option (Int × Nat))
  phase : Phase := .starting
  quiet : Bool := false
  settled : Bool := false

/-- What happens: a write to the file, a step of the process, or another callback. -/
inductive FileEvent where
  | write (file : ConfigText) (signature : Option (Int × Nat))
  | load
  | construct (monotonic : Nat) (registry : RegistryFile)
  | startPoll (monotonic : Nat)
  | finishPoll
  | callback (i : Timestamp × Bridge.Input)

namespace World
section Definitions
variable (E : Env) (limits : Json.Limits) (environment : Environment)

/-- What the file holds is what `load_config` makes of it. -/
def loaded (w : World) : Except PyError Config := loadConfig limits environment w.file

/-- One event. A stopped bridge polls no more. -/
def step (w : World) : FileEvent → World
  | .write file signature => { w with
      file := file, signature := signature, past := signature :: w.past
      quiet := false, settled := false }
  | .load =>
    match w.phase with
    | .starting =>
      match w.loaded limits environment with
      | .ok config => { w with phase := .configured config }
      | .error _ => { w with phase := .ended }
    | _ => w
  | .construct monotonic registry =>
    match w.phase with
    | .configured config =>
      match Bridge.init E config w.signature monotonic registry with
      | .ok bridge => { w with phase := .running bridge }
      | .error _ => { w with phase := .ended }
    | _ => w
  | .startPoll monotonic =>
    match w.phase with
    | .running bridge =>
      if bridge.stopping ∨ bridge.crashed then w
      else
        match exec (Bridge.startPoll monotonic w.signature) bridge with
        | (.ok true, bridge) => { w with phase := .polling bridge w.signature, quiet := true }
        | (.ok false, bridge') => { w with
            phase := .running bridge', settled := w.settled || decide (bridge.Due monotonic) }
        | (.error _, _) => { w with phase := .ended }
    | _ => w
  | .finishPoll =>
    match w.phase with
    | .polling bridge signature =>
      match exec (Bridge.finishPoll E signature (w.loaded limits environment)) bridge with
      | (.ok (), bridge) => { w with phase := .running bridge, settled := w.quiet }
      | (.error _, _) => { w with phase := .ended }
    | _ => w
  | .callback i =>
    if i.2.polls then w
    else
      match w.phase with
      | .running bridge => { w with phase := .running (bridge.step E i) }
      | .polling bridge signature => { w with phase := .polling (bridge.step E i) signature }
      | _ => w

/-- The bridge of the process. -/
def bridge? (w : World) : Option Bridge :=
  match w.phase with
  | .running bridge | .polling bridge _ => some bridge
  | _ => none

/-- The device table is the one of the file, through the house code filter. -/
def Current (w : World) (bridge : Bridge) : Prop :=
  ∀ newConfig, w.loaded limits environment = .ok newConfig → ∀ k, bridge.devices.get? k =
    (newConfig.devices.filterKeys (Bridge.addressAllowedByConfig bridge.config)).get? k

/-- Every write changes the signature, and no device joins the table on demand. -/
def Assumed (w : World) : FileEvent → Prop
  | .write _ signature => signature ∉ w.past
  | .callback i => ∀ bridge, w.bridge? = some bridge →
      ∀ k, (bridge.step E i).devices.get? k = bridge.devices.get? k
  | _ => True

/-- No write comes between the load in `main` and the constructor. -/
def Timely (w : World) : FileEvent → Prop
  | .write .. => ∀ config, w.phase ≠ .configured config
  | _ => True

/-- The configuration in hand is the one of the file; the signature that is noted, or
in hand, is the one of the file only where the table is current, or will be. -/
structure Consistent (w : World) : Prop where
  present : w.signature ∈ w.past
  configured : ∀ config, w.phase = .configured config → w.loaded limits environment = .ok config
  sound : ∀ bridge, w.bridge? = some bridge → Bridge.Sound bridge
  noted : ∀ bridge, w.bridge? = some bridge → bridge.configFileSignature ∈ w.past
  same : ∀ bridge, w.bridge? = some bridge → bridge.configFileSignature = w.signature →
    w.Current limits environment bridge
  settled : ∀ bridge, w.bridge? = some bridge → w.settled = true →
    w.Current limits environment bridge
  polling : ∀ bridge signature, w.phase = .polling bridge signature → signature ∈ w.past

end Definitions

section Steps
variable {E : Env} {limits : Json.Limits} {environment : Environment} {w : World} {b : Bridge}

theorem Current.of_same {w' : World} {b' : Bridge} (h : w.Current limits environment b)
    (hfile : w'.file = w.file) (hdevices : ∀ k, b'.devices.get? k = b.devices.get? k)
    (hcodes : b'.config.x10Housecodes = b.config.x10Housecodes) :
    w'.Current limits environment b' := by
  intro newConfig hloaded k
  have hallowed : Bridge.addressAllowedByConfig b'.config = Bridge.addressAllowedByConfig b.config := by
    funext address
    simp only [Bridge.addressAllowedByConfig, hcodes]
  rw [loaded, hfile] at hloaded
  rw [hdevices, hallowed]
  exact h newConfig hloaded k

/-- What the invariant says of a bridge. -/
structure Fits (w : World) (limits : Json.Limits) (environment : Environment) (settled : Bool)
    (b : Bridge) : Prop where
  sound : Bridge.Sound b
  noted : b.configFileSignature ∈ w.past
  same : b.configFileSignature = w.signature → w.Current limits environment b
  settled : settled = true → w.Current limits environment b

theorem Consistent.fits (h : w.Consistent limits environment) (hb : w.bridge? = some b) :
    w.Fits limits environment w.settled b :=
  ⟨h.sound b hb, h.noted b hb, h.same b hb, h.settled b hb⟩

theorem Consistent.running (h : w.Consistent limits environment) {quiet settled : Bool}
    (hb : w.Fits limits environment settled b) :
    ({ w with phase := .running b, quiet := quiet, settled := settled } : World).Consistent limits
      environment where
  present := h.present
  configured _ hphase := Phase.noConfusion hphase
  sound _ hsome := Option.some.inj hsome ▸ hb.sound
  noted _ hsome := Option.some.inj hsome ▸ hb.noted
  same _ hsome := Option.some.inj hsome ▸ hb.same
  settled _ hsome := Option.some.inj hsome ▸ hb.settled
  polling _ _ hphase := Phase.noConfusion hphase

theorem Consistent.reading (h : w.Consistent limits environment) {quiet settled : Bool}
    {signature : Option (Int × Nat)} (hsignature : signature ∈ w.past)
    (hb : w.Fits limits environment settled b) :
    ({ w with phase := .polling b signature, quiet := quiet, settled := settled } :
      World).Consistent limits environment where
  present := h.present
  configured _ hphase := Phase.noConfusion hphase
  sound _ hsome := Option.some.inj hsome ▸ hb.sound
  noted _ hsome := Option.some.inj hsome ▸ hb.noted
  same _ hsome := Option.some.inj hsome ▸ hb.same
  settled _ hsome := Option.some.inj hsome ▸ hb.settled
  polling _ _ hphase := (Phase.polling.inj hphase).2 ▸ hsignature

/-- A state without a bridge. -/
theorem Consistent.without_bridge (hpresent : w.signature ∈ w.past) (hnone : w.bridge? = none)
    (hconfigured : ∀ config, w.phase = .configured config →
      w.loaded limits environment = .ok config) : w.Consistent limits environment := by
  have hno : ∀ {b}, w.bridge? ≠ some b := by
    intro b hb
    rw [hnone] at hb
    cases hb
  refine ⟨hpresent, hconfigured, fun _ hb => absurd hb hno, fun _ hb => absurd hb hno,
    fun _ hb => absurd hb hno, fun _ hb => absurd hb hno, fun b signature hphase => ?_⟩
  rw [bridge?, hphase] at hnone
  cases hnone

theorem Consistent.ended (h : w.Consistent limits environment) :
    ({ w with phase := .ended } : World).Consistent limits environment :=
  .without_bridge h.present rfl fun _ hphase => Phase.noConfusion hphase

theorem Consistent.write (h : w.Consistent limits environment) (file : ConfigText)
    {signature : Option (Int × Nat)} (hnew : signature ∉ w.past)
    (htimely : ∀ config, w.phase ≠ .configured config) :
    (w.step E limits environment (.write file signature)).Consistent limits environment where
  present := List.mem_cons_self
  configured config hphase := absurd hphase (htimely config)
  sound := h.sound
  noted b hb := List.mem_cons_of_mem _ (h.noted b hb)
  same b hb hsame := absurd (h.noted b hb) (hsame ▸ hnew)
  settled _ _ hsettled := Bool.noConfusion hsettled
  polling b signature hphase := List.mem_cons_of_mem _ (h.polling b signature hphase)

theorem Consistent.load (h : w.Consistent limits environment) :
    (w.step E limits environment .load).Consistent limits environment := by
  unfold step
  dsimp only
  split
  · next hphase =>
    cases hloaded : w.loaded limits environment with
    | error e => exact h.ended
    | ok config =>
      refine .without_bridge h.present rfl fun config' hconfig => ?_
      obtain rfl := Phase.configured.inj hconfig
      exact hloaded
  · exact h

theorem Consistent.construct (h : w.Consistent limits environment) (monotonic : Nat)
    (registry : RegistryFile) :
    (w.step E limits environment (.construct monotonic registry)).Consistent limits environment := by
  unfold step
  dsimp only
  split
  · next config hphase =>
    cases hinit : Bridge.init E config w.signature monotonic registry with
    | error e => exact h.ended
    | ok bridge =>
      have hcurrent : w.Current limits environment bridge := by
        intro newConfig hloaded k
        obtain rfl := Except.ok.inj ((h.configured config hphase).symm.trans hloaded)
        obtain ⟨_, file, rfl⟩ := Bridge.init_ok hinit
        rfl
      have hnoted : bridge.configFileSignature = w.signature := by
        obtain ⟨_, file, rfl⟩ := Bridge.init_ok hinit
        rfl
      exact h.running ⟨Bridge.init_sound hinit, hnoted ▸ h.present, fun _ => hcurrent,
        fun _ => hcurrent⟩
  · exact h

theorem Consistent.startPoll (h : w.Consistent limits environment) (monotonic : Nat) :
    (w.step E limits environment (.startPoll monotonic)).Consistent limits environment := by
  unfold step
  dsimp only
  split
  · next bridge hphase =>
    split
    · exact h
    · have hbridge : w.bridge? = some bridge := by rw [bridge?, hphase]
      have hscheduled : ∀ next, Bridge.Sound (bridge.scheduled next) := fun next =>
        (h.sound bridge hbridge).of_same rfl rfl rfl rfl rfl rfl rfl
      rw [Bridge.exec_startPoll]
      by_cases hdue : bridge.Due monotonic
      · rw [if_pos hdue]
        by_cases hsame : w.signature = bridge.configFileSignature
        · rw [decide_eq_true hsame]
          exact h.running ⟨hscheduled _, h.noted bridge hbridge, h.same bridge hbridge,
            fun _ => h.same bridge hbridge hsame.symm⟩
        · rw [decide_eq_false hsame]
          exact h.reading h.present ⟨hscheduled _, h.noted bridge hbridge, h.same bridge hbridge,
            h.settled bridge hbridge⟩
      · rw [if_neg hdue, decide_eq_false hdue, Bool.or_false]
        exact h.running (h.fits hbridge)
  · exact h

theorem Consistent.finishPoll (h : w.Consistent limits environment) :
    (w.step E limits environment .finishPoll).Consistent limits environment := by
  unfold step
  dsimp only
  split
  · next bridge signature hphase =>
    have hbridge : w.bridge? = some bridge := by rw [bridge?, hphase]
    have hsound := Bridge.finishPoll_sound (E := E) (h.sound bridge hbridge) signature
      (w.loaded limits environment)
    cases hexec : exec (Bridge.finishPoll E signature (w.loaded limits environment)) bridge with
    | mk result after =>
      rw [hexec] at hsound
      cases result with
      | error e => exact h.ended
      | ok _ =>
        refine h.running ?_
        rcases Bridge.exec_finishPoll hexec with ⟨rfl, message, hrejected⟩ |
          ⟨hnoted, hcodes, newConfig, hloaded, hdevices⟩
        · refine ⟨hsound, h.noted _ hbridge, h.same _ hbridge, fun _ newConfig hloaded => ?_⟩
          cases hrejected.symm.trans hloaded
        · have hcurrent : w.Current limits environment after := by
            intro newConfig' hloaded' k
            obtain rfl := Except.ok.inj (hloaded.symm.trans hloaded')
            have hallowed : Bridge.addressAllowedByConfig after.config =
                Bridge.addressAllowedByConfig bridge.config := by
              funext address
              simp only [Bridge.addressAllowedByConfig, hcodes]
            rw [hallowed]
            exact hdevices k
          refine ⟨hsound, ?_, fun _ => hcurrent, fun _ => hcurrent⟩
          rw [hnoted]
          exact h.polling bridge signature hphase
  · exact h

theorem Consistent.callback (h : w.Consistent limits environment) (i : Timestamp × Bridge.Input)
    (hkept : ∀ bridge, w.bridge? = some bridge →
      ∀ k, (bridge.step E i).devices.get? k = bridge.devices.get? k) :
    (w.step E limits environment (.callback i)).Consistent limits environment := by
  have hafter : i.2.polls = false → ∀ bridge, w.bridge? = some bridge →
      w.Fits limits environment w.settled (bridge.step E i) := by
    intro hi bridge hbridge
    have hsound := h.sound bridge hbridge
    have hcurrent : w.Current limits environment bridge →
        w.Current limits environment (bridge.step E i) := fun hc =>
      hc.of_same rfl (hkept bridge hbridge) (Bridge.step_housecodes hsound i)
    refine ⟨Bridge.step_sound hsound i, ?_, ?_, fun hs => hcurrent (h.settled bridge hbridge hs)⟩
    · rw [Bridge.step_signature hsound hi]
      exact h.noted bridge hbridge
    · rw [Bridge.step_signature hsound hi]
      exact fun hsame => hcurrent (h.same bridge hbridge hsame)
  unfold step
  dsimp only
  split
  · exact h
  · next hi =>
    have hi' : i.2.polls = false := Bool.eq_false_iff.mpr hi
    split
    · next bridge hphase =>
      exact h.running (hafter hi' bridge (by rw [bridge?, hphase]))
    · next bridge signature hphase =>
      exact h.reading (h.polling bridge signature hphase)
        (hafter hi' bridge (by rw [bridge?, hphase]))
    · exact h

/-- Every event keeps the invariant, but for a write between load and constructor. -/
theorem step_consistent (h : w.Consistent limits environment) (e : FileEvent)
    (hassumed : w.Assumed E e) (htimely : w.Timely e) :
    (w.step E limits environment e).Consistent limits environment := by
  cases e with
  | write file signature => exact h.write file hassumed htimely
  | load => exact h.load
  | construct monotonic registry => exact h.construct monotonic registry
  | startPoll monotonic => exact h.startPoll monotonic
  | finishPoll => exact h.finishPoll
  | callback i => exact h.callback i hassumed

end Steps

/-! ## Runs -/

/-- The process has not begun. -/
def start (file : ConfigText) (signature : Option (Int × Nat)) : World where
  file := file
  signature := signature
  past := [signature]

section Runs
variable {E : Env} {limits : Json.Limits} {environment : Environment}

theorem start_consistent (file : ConfigText) (signature : Option (Int × Nat)) :
    (start file signature).Consistent limits environment :=
  .without_bridge (List.mem_singleton_self _) rfl fun _ hphase => Phase.noConfusion hphase

/-- After a poll that was due and ended well, and while no write comes, the device table
is the one of the file, in every run with no write between the load in `main` and the
constructor. -/
theorem edits_taken (file : ConfigText) (signature : Option (Int × Nat)) {w : World}
    (hr : Run.Reaches (step E limits environment) (fun w e => w.Assumed E e ∧ w.Timely e)
      (start file signature) w) (hsettled : w.settled = true) (bridge : Bridge)
    (hbridge : w.bridge? = some bridge) : w.Current limits environment bridge := by
  have hconsistent : w.Consistent limits environment :=
    hr.invariant (start_consistent file signature) fun w e h hok => step_consistent h e hok.1 hok.2
  exact hconsistent.settled bridge hbridge hsettled

/-- Only the config file says which devices there are. -/
def watching : Environment := ⟨.watched "", none⟩

/-- A file with one lamp, and what it holds after an edit. -/
def oneLamp : ConfigText := Bridge.written "\x7b\"devices\": \"A1:Lamp\"\x7d"
def lampAndFan : ConfigText := Bridge.written "\x7b\"devices\": \"A1:Lamp,B2:Fan\"\x7d"

/-- The edit comes after the constructor. -/
def lateEdit : List FileEvent :=
  [.load, .construct 0 .absent, .write lampAndFan (some (2, 32)), .startPoll 5000000, .finishPoll]

/-- The edit comes before the constructor. -/
def earlyEdit : List FileEvent :=
  [.load, .write lampAndFan (some (2, 32)), .construct 0 .absent, .startPoll 5000000]

theorem not_configured {w : World} (h : w.bridge?.isSome = true) (config : Config) :
    w.phase ≠ .configured config := by
  intro hphase
  rw [bridge?, hphase] at h
  exact Bool.noConfusion h

/-- Only a write adds a signature. -/
theorem past_step {w : World} {e : FileEvent} (h : ∀ file signature, e ≠ .write file signature) :
    (w.step E limits environment e).past = w.past := by
  cases e with
  | write file signature => exact absurd rfl (h file signature)
  | load =>
    simp only [step]
    split
    · split <;> rfl
    · rfl
  | construct monotonic registry =>
    simp only [step]
    split
    · split <;> rfl
    · rfl
  | startPoll monotonic =>
    simp only [step]
    split
    · split
      · rfl
      · split <;> rfl
    · rfl
  | finishPoll =>
    simp only [step]
    split
    · split <;> rfl
    · rfl
  | callback i =>
    simp only [step]
    split
    · rfl
    · split <;> rfl

theorem lateEdit_taken : ∃ bridge,
    (Run.exec (step {} {} watching) (start oneLamp (some (1, 25))) lateEdit).bridge? = some bridge ∧
    (Run.exec (step {} {} watching) (start oneLamp (some (1, 25))) lateEdit).Current {} watching
      bridge := by
  have hconstructed : (((start oneLamp (some (1, 25))).step {} {} watching .load).step {} {} watching
      (.construct 0 .absent)).bridge?.isSome = true := by
    decide +kernel
  have hpast : (((start oneLamp (some (1, 25))).step {} {} watching .load).step {} {} watching
      (.construct 0 .absent)).past = [some (1, 25)] := by
    rw [past_step (e := .construct 0 .absent) nofun, past_step (e := .load) nofun]
    rfl
  have hend : (Run.exec (step {} {} watching) (start oneLamp (some (1, 25))) lateEdit).settled =
        true ∧
      (Run.exec (step {} {} watching) (start oneLamp (some (1, 25))) lateEdit).bridge?.isSome =
        true := by
    decide +kernel
  obtain ⟨bridge, hbridge⟩ := Option.isSome_iff_exists.mp hend.2
  refine ⟨bridge, hbridge, edits_taken (E := {}) _ _ (Run.reaches_exec ?_) hend.1 bridge hbridge⟩
  refine ⟨⟨trivial, trivial⟩, ⟨trivial, trivial⟩, ⟨?_, not_configured hconstructed⟩,
    ⟨trivial, trivial⟩, ⟨trivial, trivial⟩, trivial⟩
  unfold Assumed
  rw [hpast]
  decide

/-- The poll finds the signature that the constructor noted, and leaves the table as
`main` loaded it. -/
theorem earlyEdit_lost :
    Run.Meets (step {} {} watching) (Assumed {}) (start oneLamp (some (1, 25))) earlyEdit ∧
    (Run.exec (step {} {} watching) (start oneLamp (some (1, 25))) earlyEdit).settled = true ∧
    ∃ bridge,
      (Run.exec (step {} {} watching) (start oneLamp (some (1, 25))) earlyEdit).bridge? =
        some bridge ∧
      ¬ (Run.exec (step {} {} watching) (start oneLamp (some (1, 25))) earlyEdit).Current {}
        watching bridge := by
  have hpast : ((start oneLamp (some (1, 25))).step {} {} watching .load).past = [some (1, 25)] := by
    rw [past_step (e := .load) nofun]
    rfl
  have hfan : (loadConfig {} watching lampAndFan).map (fun config =>
      (config.devices.get? "B2").isSome) = .ok true := by
    decide +kernel
  have hend : ((Run.exec (step {} {} watching) (start oneLamp (some (1, 25))) earlyEdit).settled,
      (Run.exec (step {} {} watching) (start oneLamp (some (1, 25))) earlyEdit).file,
      (Run.exec (step {} {} watching) (start oneLamp (some (1, 25))) earlyEdit).bridge?.map
        fun bridge => ((bridge.devices.get? "B2").isNone,
          Bridge.addressAllowedByConfig bridge.config "B2")) =
      (true, lampAndFan, some (true, true)) := by
    decide +kernel
  have hmeets : Run.Meets (step {} {} watching) (Assumed {}) (start oneLamp (some (1, 25)))
      earlyEdit := by
    refine ⟨trivial, ?_, trivial, trivial, trivial⟩
    unfold Assumed
    rw [hpast]
    decide
  refine ⟨hmeets, ?_⟩
  generalize Run.exec (step {} {} watching) (start oneLamp (some (1, 25))) earlyEdit = w at hend
  obtain ⟨hsettled, hrest⟩ := Prod.mk.inj hend
  obtain ⟨hfile, hbridge⟩ := Prod.mk.inj hrest
  obtain ⟨bridge, hsome, hfields⟩ := Option.map_eq_some_iff.mp hbridge
  obtain ⟨hnone, hallowed⟩ := Prod.mk.inj hfields
  obtain ⟨config, hloaded, hlisted⟩ := map_ok hfan
  refine ⟨hsettled, bridge, hsome, fun hcurrent => ?_⟩
  have hsame := hcurrent config (by rw [loaded, hfile, hloaded]) "B2"
  rw [Dict.get?_filterKeys, if_pos hallowed, Option.isNone_iff_eq_none.mp hnone] at hsame
  rw [← hsame] at hlisted
  exact Bool.noConfusion hlisted

end Runs
end World

end MochadBridge
