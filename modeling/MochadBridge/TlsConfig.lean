import MochadBridge.Lib.TextFile
import MochadBridge.Models

/-!
# The TLS settings

`_load_mqtt_tls_config` on the variables of the environment and the files they
name. It is meant to fail where a TLS setting is given and TLS is off; what it
looks at is the text that the secret file is left with.

Results:
1. `getSecret_cases`: a secret that is given comes out, unless its file loses it.
2. `loadMqttTlsConfig_off`: with TLS off, what decides is whether a setting came out.
3. `neverDowngrades_iff`: so the loader holds what it is meant to, unless a password
   file is overlooked.
-/

namespace MochadBridge

open Py

/-! ## Variables -/

/-- `_get_env`. -/
def getEnv (environ : String → Option String) (name : String) (default : Option String) :
    Option String :=
  match environ name with
  | none => default
  | some value => if strip value = "" then default else some (strip value)

/-- The variable has a value that is not blank. -/
def IsSet (environ : String → Option String) (name : String) : Prop :=
  ∃ value, environ name = some value ∧ strip value ≠ ""

/-- `_get_bool`. -/
def getBool (environ : String → Option String) (name : String) (default : Bool) :
    Except PyError Bool :=
  match getEnv environ name none with
  | none => .ok default
  | some value =>
    if lower (strip value) ∈ ["1", "true", "yes", "on"] then .ok true
    else if lower (strip value) ∈ ["0", "false", "no", "off"] then .ok false
    else .error (.configError (name ++ " must be a boolean. Got '" ++ value ++ "'."))

/-- The variable has one of the words for true. -/
def IsTrue (environ : String → Option String) (name : String) : Prop :=
  ∃ value, environ name = some value ∧ lower (strip value) ∈ ["1", "true", "yes", "on"]

/-- What the path of a secret leads to: something that cannot be read, with the text
of the `OSError`, or bytes. -/
inductive SecretFile where
  | unreadable (message : String)
  | holds (content : List UInt8)

/-- `secret.rstrip("\r\n")`. -/
def rstripLineEnds (secret : String) : String :=
  String.ofList (secret.toList.rdropWhile fun c => c = '\r' ∨ c = '\n')

/-- `_get_secret`. -/
def getSecret (environ : String → Option String) (files : String → SecretFile)
    (name fileName : String) : Except PyError (Option String) :=
  match getEnv environ name none, getEnv environ fileName none with
  | some _, some _ =>
    .error (.configError ("Set only one of " ++ name ++ " or " ++ fileName ++ "."))
  | value, none => .ok value
  | none, some path =>
    match files path with
    | .unreadable message => .error (.configError
      (fileName ++ " points to an unreadable file '" ++ path ++ "': " ++ message))
    | .holds content =>
      match TextFile.readText content with
      | none => .error .unicodeDecodeError
      | some secret =>
        if rstripLineEnds secret = "" then .ok none else .ok (some (rstripLineEnds secret))

/-! ## TLS -/

/-- The MQTT TLS settings. -/
structure MqttTlsConfig where
  enabled : Bool := false
  caFile : Option String := none
  certFile : Option String := none
  keyFile : Option String := none
  keyPassword : Option String := none
  deriving DecidableEq

/-- `bool(value)` of a text or `None`. -/
def truthy (value : Option String) : Bool := value.any (· ≠ "")

/-- `_load_mqtt_tls_config`. -/
def loadMqttTlsConfig (environ : String → Option String) (files : String → SecretFile) :
    Except PyError MqttTlsConfig := do
  let enabled ← getBool environ "MQTT_TLS_ENABLED" false
  let caFile := getEnv environ "MQTT_TLS_CA_FILE" none
  let certFile := getEnv environ "MQTT_TLS_CERT_FILE" none
  let keyFile := getEnv environ "MQTT_TLS_KEY_FILE" none
  let keyPassword ←
    getSecret environ files "MQTT_TLS_KEY_PASSWORD" "MQTT_TLS_KEY_PASSWORD_FILE"
  let tlsSettingsConfigured := [caFile, certFile, keyFile, keyPassword].any truthy
  if tlsSettingsConfigured && !enabled then
    throw (.configError "MQTT_TLS_ENABLED must be true when MQTT TLS settings are configured.")
  if !enabled then return {}
  if truthy certFile != truthy keyFile then
    throw (.configError "MQTT_TLS_CERT_FILE and MQTT_TLS_KEY_FILE must be set together.")
  if keyPassword.isSome && keyFile.isNone then
    throw (.configError "MQTT_TLS_KEY_PASSWORD requires MQTT_TLS_KEY_FILE.")
  return { enabled := true, caFile, certFile, keyFile, keyPassword }

/-- The settings that must not be given without TLS. -/
def tlsSettings : List String :=
  ["MQTT_TLS_CA_FILE", "MQTT_TLS_CERT_FILE", "MQTT_TLS_KEY_FILE", "MQTT_TLS_KEY_PASSWORD",
    "MQTT_TLS_KEY_PASSWORD_FILE"]

section Tls
variable {environ : String → Option String} {files : String → SecretFile} {name : String}

/-! ## What the helpers return -/

theorem getEnv_none_iff : getEnv environ name none = none ↔ ¬ IsSet environ name := by
  unfold getEnv IsSet
  cases environ name with
  | none => simp
  | some value =>
    by_cases h : strip value = ""
    · simp [h]
    · simp [h]

/-- What it returns is not blank. -/
theorem getEnv_some {value : String} (h : getEnv environ name none = some value) :
    value ≠ "" ∧ strip value = value := by
  unfold getEnv at h
  split at h
  · cases h
  · split at h
    · cases h
    · next hne =>
      obtain rfl := Option.some.inj h
      exact ⟨hne, strip_strip _⟩

theorem truthy_getEnv : truthy (getEnv environ name none) = (getEnv environ name none).isSome := by
  cases h : getEnv environ name none with
  | none => rfl
  | some value => simp [truthy, (getEnv_some h).1]

theorem getBool_true_iff : getBool environ name false = .ok true ↔ IsTrue environ name := by
  unfold getBool getEnv IsTrue
  cases environ name with
  | none => simp
  | some value =>
    by_cases hblank : strip value = ""
    · simp only [hblank, if_true, Option.some.injEq, exists_eq_left']
      decide
    · simp only [hblank, if_false, strip_strip, Option.some.injEq, exists_eq_left']
      split
      · next h => simp [h]
      · next h =>
        split <;> simp [h]

/-- A flag that is not a Boolean fails with a `ConfigError`. -/
theorem getBool_error {e : PyError} (h : getBool environ name false = .error e) :
    ∃ message, e = .configError message := by
  unfold getBool at h
  split at h
  · cases h
  · split at h
    · cases h
    · split at h
      · cases h
      · exact ⟨_, (Except.error.inj h).symm⟩

/-- What the password file is left with is lost: it cannot be decoded, or nothing but
line ends is in it. -/
inductive Lost (content : List UInt8) : Prop where
  | undecodable (h : TextFile.readText content = none)
  | empty (secret : String) (h : TextFile.readText content = some secret)
      (hempty : rstripLineEnds secret = "")

/-- The secret is read from a file with this content. -/
def ReadsFrom (environ : String → Option String) (files : String → SecretFile)
    (name fileName : String) (content : List UInt8) : Prop :=
  ¬ IsSet environ name ∧
    ∃ path, getEnv environ fileName none = some path ∧ files path = .holds content

theorem getSecret_reads {fileName : String} {content : List UInt8}
    (h : ReadsFrom environ files name fileName content) :
    getSecret environ files name fileName =
      match TextFile.readText content with
      | none => .error .unicodeDecodeError
      | some secret =>
        if rstripLineEnds secret = "" then .ok none else .ok (some (rstripLineEnds secret)) := by
  obtain ⟨hname, path, hpath, hfile⟩ := h
  simp only [getSecret, getEnv_none_iff.mpr hname, hpath, hfile]

/-- A variable of the secret that is set makes a secret come out, or a `ConfigError`,
unless the content of its file is lost. -/
theorem getSecret_cases {fileName : String}
    (hset : IsSet environ name ∨ IsSet environ fileName)
    (hkept : ∀ content, ReadsFrom environ files name fileName content → ¬ Lost content) :
    (∃ secret, getSecret environ files name fileName = .ok (some secret) ∧ secret ≠ "") ∨
      ∃ message, getSecret environ files name fileName = .error (.configError message) := by
  cases hname : getEnv environ name none with
  | some value =>
    cases hfile : getEnv environ fileName none with
    | some path => exact .inr ⟨_, by simp only [getSecret, hname, hfile]; rfl⟩
    | none => exact .inl ⟨value, by simp only [getSecret, hname, hfile], (getEnv_some hname).1⟩
  | none =>
    have hunset := getEnv_none_iff.mp hname
    cases hfile : getEnv environ fileName none with
    | none => exact absurd hset (not_or.mpr ⟨hunset, getEnv_none_iff.mp hfile⟩)
    | some path =>
      cases hcontent : files path with
      | unreadable message => exact .inr ⟨_, by simp only [getSecret, hname, hfile, hcontent]; rfl⟩
      | holds content =>
        have hreads : ReadsFrom environ files name fileName content :=
          ⟨hunset, path, hfile, hcontent⟩
        rw [getSecret_reads hreads]
        cases htext : TextFile.readText content with
        | none => exact absurd (.undecodable htext) (hkept content hreads)
        | some secret =>
          have hne : rstripLineEnds secret ≠ "" := fun hempty =>
            hkept content hreads (.empty secret htext hempty)
          exact .inl ⟨_, if_neg hne, hne⟩

/-! ## What the loader does -/

/-- A setting came out of the environment. -/
def tlsSettingsConfigured (environ : String → Option String) (keyPassword : Option String) : Bool :=
  [getEnv environ "MQTT_TLS_CA_FILE" none, getEnv environ "MQTT_TLS_CERT_FILE" none,
    getEnv environ "MQTT_TLS_KEY_FILE" none, keyPassword].any truthy

/-- With TLS off it fails if a setting came out. -/
theorem loadMqttTlsConfig_off (h : getBool environ "MQTT_TLS_ENABLED" false = .ok false) :
    loadMqttTlsConfig environ files =
      match getSecret environ files "MQTT_TLS_KEY_PASSWORD" "MQTT_TLS_KEY_PASSWORD_FILE" with
      | .error e => .error e
      | .ok keyPassword =>
        if tlsSettingsConfigured environ keyPassword then .error (.configError
          "MQTT_TLS_ENABLED must be true when MQTT TLS settings are configured.")
        else .ok {} := by
  rw [loadMqttTlsConfig, h]
  cases getSecret environ files "MQTT_TLS_KEY_PASSWORD" "MQTT_TLS_KEY_PASSWORD_FILE" with
  | error e => rfl
  | ok keyPassword =>
    show (if (_ && !false) = true then _ else _) = _
    rw [Bool.not_false, Bool.and_true]
    rfl

/-- The files of the settings. -/
def tlsFiles : List String := ["MQTT_TLS_CA_FILE", "MQTT_TLS_CERT_FILE", "MQTT_TLS_KEY_FILE"]

/-- A file that is named comes out, and so does a password. -/
theorem tlsSettingsConfigured_iff {keyPassword : Option String} :
    tlsSettingsConfigured environ keyPassword = true ↔
      (∃ name ∈ tlsFiles, IsSet environ name) ∨ truthy keyPassword = true := by
  have hset : ∀ name, truthy (getEnv environ name none) = true ↔ IsSet environ name := by
    intro name
    rw [truthy_getEnv, Option.isSome_iff_ne_none, Ne, getEnv_none_iff, not_not]
  simp only [tlsSettingsConfigured, tlsFiles, List.any_cons, List.any_nil, Bool.or_false,
    Bool.or_eq_true, hset, List.exists_mem_cons_iff, List.not_mem_nil, false_and, exists_false,
    or_false, or_assoc]

/-- With TLS on, a certificate comes with its key, and a password with a key. -/
theorem loadMqttTlsConfig_enabled {config : MqttTlsConfig}
    (h : loadMqttTlsConfig environ files = .ok config) (henabled : config.enabled = true) :
    config.certFile.isSome = config.keyFile.isSome ∧
      (config.keyPassword.isSome = true → config.keyFile.isSome = true) := by
  obtain ⟨enabled, _, h⟩ := bind_ok h
  obtain ⟨keyPassword, _, h⟩ := bind_ok h
  simp only at h
  split at h
  · cases h
  · split at h
    · obtain rfl := Except.ok.inj h
      cases henabled
    · split at h
      · cases h
      · next hpair =>
        split at h
        · cases h
        · next hpassword =>
          obtain rfl := Except.ok.inj h
          rw [truthy_getEnv, truthy_getEnv, Bool.not_eq_true, bne_eq_false_iff_eq] at hpair
          refine ⟨hpair, fun hsome => ?_⟩
          simpa [hsome, Option.isNone_iff_eq_none, Option.isSome_iff_ne_none] using hpassword

/-! ## No silent downgrade -/

/-- Where a setting is given and TLS is not on, the loader raises `ConfigError`; an
enabled configuration has the certificate and the key together, and a password only
with a key. -/
def NeverDowngrades (environ : String → Option String) (files : String → SecretFile) : Prop :=
  ((∃ name ∈ tlsSettings, IsSet environ name) → ¬ IsTrue environ "MQTT_TLS_ENABLED" →
    ∃ message, loadMqttTlsConfig environ files = .error (.configError message)) ∧
  ∀ config, loadMqttTlsConfig environ files = .ok config → config.enabled = true →
    config.certFile.isSome = config.keyFile.isSome ∧
      (config.keyPassword.isSome = true → config.keyFile.isSome = true)

/-- With TLS off, the password is to be read from a file that cannot be decoded; or
nothing but line ends is in the file, and no other file is named. -/
def Overlooked (environ : String → Option String) (files : String → SecretFile) : Prop :=
  getBool environ "MQTT_TLS_ENABLED" false = .ok false ∧
    ∃ content, ReadsFrom environ files "MQTT_TLS_KEY_PASSWORD" "MQTT_TLS_KEY_PASSWORD_FILE" content ∧
      (TextFile.readText content = none ∨
        (∃ secret, TextFile.readText content = some secret ∧ rstripLineEnds secret = "") ∧
          ∀ name ∈ tlsFiles, ¬ IsSet environ name)

/-- An overlooked password file is not answered with a `ConfigError`. -/
theorem overlooked_outcome (h : Overlooked environ files) :
    loadMqttTlsConfig environ files = .error .unicodeDecodeError ∨
      loadMqttTlsConfig environ files = .ok {} := by
  obtain ⟨hoff, content, hreads, hlost⟩ := h
  rw [loadMqttTlsConfig_off hoff, getSecret_reads hreads]
  rcases hlost with hnone | ⟨⟨secret, hsecret, hempty⟩, hunnamed⟩
  · rw [hnone]
    exact .inl rfl
  · have hconfigured : ¬ tlsSettingsConfigured environ none = true := by
      rw [tlsSettingsConfigured_iff]
      rintro (⟨name, hname, hset⟩ | hpassword)
      · exact hunnamed name hname hset
      · cases hpassword
    simp only [hsecret, hempty, if_true, if_neg hconfigured]
    exact .inr trivial

/-- A setting that is given with TLS off is noticed, if it is not overlooked. -/
theorem loadMqttTlsConfig_refuses (hset : ∃ name ∈ tlsSettings, IsSet environ name)
    (hoff : getBool environ "MQTT_TLS_ENABLED" false = .ok false)
    (hseen : ¬ Overlooked environ files) :
    ∃ message, loadMqttTlsConfig environ files = .error (.configError message) := by
  -- A secret that came out decides, and without one a file that is named.
  have hfails : ∀ keyPassword,
      getSecret environ files "MQTT_TLS_KEY_PASSWORD" "MQTT_TLS_KEY_PASSWORD_FILE" =
        .ok keyPassword →
      (∃ name ∈ tlsFiles, IsSet environ name) ∨ truthy keyPassword = true →
      ∃ message, loadMqttTlsConfig environ files = .error (.configError message) := by
    intro keyPassword hsecret hgiven
    rw [loadMqttTlsConfig_off hoff, hsecret]
    exact ⟨_, if_pos (tlsSettingsConfigured_iff.mpr hgiven)⟩
  by_cases hkept : ∀ content, ReadsFrom environ files "MQTT_TLS_KEY_PASSWORD"
      "MQTT_TLS_KEY_PASSWORD_FILE" content → ¬ Lost content
  · by_cases hpassword : IsSet environ "MQTT_TLS_KEY_PASSWORD" ∨
        IsSet environ "MQTT_TLS_KEY_PASSWORD_FILE"
    · rcases getSecret_cases hpassword hkept with ⟨secret, hsecret, hne⟩ | ⟨message, herror⟩
      · exact hfails _ hsecret (.inr (by simp [truthy, hne]))
      · exact ⟨message, by rw [loadMqttTlsConfig_off hoff, herror]⟩
    · obtain ⟨hname, hfile⟩ := not_or.mp hpassword
      have hsecret : getSecret environ files "MQTT_TLS_KEY_PASSWORD"
          "MQTT_TLS_KEY_PASSWORD_FILE" = .ok none := by
        simp only [getSecret, getEnv_none_iff.mpr hname, getEnv_none_iff.mpr hfile]
      refine hfails none hsecret (.inl ?_)
      obtain ⟨name, hmem, hset⟩ := hset
      have hsplit : name ∈ tlsFiles ++ ["MQTT_TLS_KEY_PASSWORD", "MQTT_TLS_KEY_PASSWORD_FILE"] :=
        hmem
      rcases List.mem_append.mp hsplit with hmem | hmem
      · exact ⟨name, hmem, hset⟩
      · simp only [List.mem_cons, List.not_mem_nil, or_false] at hmem
        rcases hmem with rfl | rfl
        · exact absurd hset hname
        · exact absurd hset hfile
  · push Not at hkept
    obtain ⟨content, hreads, hlost⟩ := hkept
    cases hlost with
    | undecodable hnone => exact absurd ⟨hoff, content, hreads, .inl hnone⟩ hseen
    | empty secret hsecret hempty =>
      have hnamed : ∃ name ∈ tlsFiles, IsSet environ name := by
        by_contra hunnamed
        push Not at hunnamed
        exact hseen ⟨hoff, content, hreads, .inr ⟨⟨secret, hsecret, hempty⟩, hunnamed⟩⟩
      refine hfails none ?_ (.inl hnamed)
      rw [getSecret_reads hreads]
      simp only [hsecret, hempty, if_true]

/-- The loader holds what it is meant to, unless a password file is overlooked. -/
theorem neverDowngrades_iff (environ : String → Option String) (files : String → SecretFile) :
    NeverDowngrades environ files ↔ ¬ Overlooked environ files := by
  constructor
  · intro h hoverlooked
    have hset : IsSet environ "MQTT_TLS_KEY_PASSWORD_FILE" := by
      obtain ⟨_, _, ⟨_, path, hpath, _⟩, _⟩ := hoverlooked
      by_contra hunset
      cases hpath.symm.trans (getEnv_none_iff.mpr hunset)
    have hnot : ¬ IsTrue environ "MQTT_TLS_ENABLED" := by
      intro htrue
      cases hoverlooked.1.symm.trans (getBool_true_iff.mpr htrue)
    obtain ⟨message, herror⟩ := h.1 ⟨_, by decide, hset⟩ hnot
    rcases overlooked_outcome hoverlooked with hraised | hdisabled
    · cases hraised.symm.trans herror
    · cases hdisabled.symm.trans herror
  · intro hseen
    refine ⟨fun hset hnot => ?_, fun config => loadMqttTlsConfig_enabled⟩
    cases hflag : getBool environ "MQTT_TLS_ENABLED" false with
    | error e =>
      obtain ⟨message, rfl⟩ := getBool_error hflag
      exact ⟨message, by rw [loadMqttTlsConfig, hflag]; rfl⟩
    | ok flag =>
      cases flag with
      | true => exact absurd (getBool_true_iff.mp hflag) hnot
      | false => exact loadMqttTlsConfig_refuses hset hflag hseen

/-- An empty password file goes unnoticed: TLS is off without an error. -/
theorem emptyPasswordFile_downgrades :
    loadMqttTlsConfig
        (fun name => if name = "MQTT_TLS_KEY_PASSWORD_FILE" then some "/run/secrets/key" else none)
        (fun _ => .holds [0x0A]) = .ok {} ∧
      ¬ NeverDowngrades
        (fun name => if name = "MQTT_TLS_KEY_PASSWORD_FILE" then some "/run/secrets/key" else none)
        (fun _ => .holds [0x0A]) := by
  have hdisabled : loadMqttTlsConfig
      (fun name => if name = "MQTT_TLS_KEY_PASSWORD_FILE" then some "/run/secrets/key" else none)
      (fun _ => .holds [0x0A]) = .ok {} := by
    decide +kernel
  refine ⟨hdisabled, fun h => ?_⟩
  have hset : IsSet
      (fun name => if name = "MQTT_TLS_KEY_PASSWORD_FILE" then some "/run/secrets/key" else none)
      "MQTT_TLS_KEY_PASSWORD_FILE" := ⟨"/run/secrets/key", rfl, by decide +kernel⟩
  obtain ⟨message, herror⟩ := h.1 ⟨_, by decide, hset⟩ (by rintro ⟨value, hvalue, _⟩; exact nomatch hvalue)
  cases hdisabled.symm.trans herror

end Tls

end MochadBridge
