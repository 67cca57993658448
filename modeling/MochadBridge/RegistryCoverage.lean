import MochadBridge.DiscoveredFlag
import MochadBridge.StatePayloads

/-!
# The registry covers what the broker keeps

Discovery messages are published in five places and recorded in four. `Covered` says that
every discovery topic that shows a config is listed in the registry file; `Traced`
allows, between a publish and the next save, for topics that the bridge wants too.

Results:
1. `Traced.path`: what is published is wanted.
2. `runDiscoveryCleanup_covers`: a cleanup records all of it, or clears it.
3. `registry_covers`: in every run over several starts that share the registry file, in
   which no step publishes a topic without recording it or forgets one, whatever the
   broker keeps can be loaded from the file.
-/

namespace MochadBridge

open Py Effect Register

namespace Bridge

/-- The discovery topic is one that the bridge announces. -/
def Wanted (s : Bridge) (topic : String) : Prop := ∃ m, s.Announces m ∧ m.topic = topic

/-- The discovery topic was last published with a config. -/
def Live (s : Bridge) (topic : String) : Prop :=
  Topics.IsDiscovery topic ∧ Shows s.journal.outputs topic

/-- The registry lists every live topic. -/
def Covered (s : Bridge) : Prop := ∀ topic, s.Live topic → topic ∈ s.registered

/-- Every live topic is among the listed ones, or wanted. -/
def Traced (listed : List String) (s : Bridge) : Prop :=
  ∀ topic, s.Live topic → topic ∈ listed ∨ s.Wanted topic

/-- White space at the ends of the discovery prefix was stripped. -/
def PrefixStripped (s : Bridge) : Prop :=
  ∀ p, Topics.cleanSegment s.discovery.discoveryPrefix = .ok p → strip p = p

/-! ## Live topics -/

section Labels
variable {E : Env} {s t : Bridge} {l : Label} {topic : String} {listed : List String}

/-- A topic that shows a config after more outputs did before, or one of them is a config. -/
theorem shows_append {os os' : List Output} (h : Shows (os ++ os') topic) :
    Shows os topic ∨ ∃ fields retain, .publish topic (.obj fields) retain ∈ os' := by
  obtain ⟨payload, hretained, fields, rfl⟩ := h
  rw [retained_append, writes_apply] at hretained
  cases hlast : (valuesTo topic (publishes os')).getLast? with
  | none =>
    rw [hlast] at hretained
    exact .inl ⟨_, hretained, fields, rfl⟩
  | some payload =>
    rw [hlast] at hretained
    obtain rfl : payload = .obj fields := Option.some.inj hretained
    obtain ⟨⟨topic', payload'⟩, hw, hpayload⟩ :=
      List.mem_filterMap.mp (List.mem_of_getLast? hlast)
    split at hpayload
    · next htopic =>
      subst htopic
      obtain rfl := Option.some.inj hpayload
      obtain ⟨retain, hmem⟩ := mem_publishes.mp hw
      exact .inr ⟨fields, retain, hmem⟩
    · cases hpayload

/-- Only a discovery message makes a topic live. -/
theorem live_of_apply (hg : l.guard E s) (h : (l.apply s).Live topic) :
    s.Live topic ∨ ∃ m, l = .config m ∧ m.topic = topic := by
  obtain ⟨hdiscovery, hshows⟩ := h
  rw [outputs_apply] at hshows
  rcases shows_append hshows with hshows | ⟨fields, retain, hmem⟩
  · exact .inl ⟨hdiscovery, hshows⟩
  · rcases publish_of_outputs hmem with rfl | ⟨b, rfl⟩ | ⟨b, c, rfl, hp⟩ | ⟨m, rfl, hm, _⟩ |
      ⟨_, hp, _⟩
    · obtain ⟨suffix, hsuffix, htopic⟩ := hg
      exact absurd htopic (hdiscovery.not_own hsuffix)
    · rcases hg.2 with htopic | htopic <;> exact absurd htopic (hdiscovery.not_device (by simp))
    · cases hp
    · exact .inr ⟨m, rfl, hm⟩
    · cases hp

/-- What is announced stays announced, unless the table or the diagnostics change. -/
theorem Announces.apply {m : DiscoveryMessage} (h : s.Announces m) (hs : Sound s)
    (hl : l.kind ∉ [.install, .diagnostics]) : (l.apply s).Announces m := by
  have hinstall : l.kind ≠ .install := fun hk => hl (by simp [hk])
  have hdiag := apply_diagnostics (s := s) (l := l) fun hk => hl (by simp [hk])
  rcases h with ⟨k, d, ms, hget, hms, hm⟩ | ⟨ms, hms, hm⟩
  · have hk : k ∈ s.devices.keys := Dict.mem_keys.mpr (by rw [hget]; exact Option.some_ne_none d)
    obtain ⟨d', hget'⟩ := Option.ne_none_iff_exists'.mp
      (Dict.mem_keys.mp (apply_listed hinstall hk))
    have hat := apply_deviceAt (s := s) hinstall k
    rw [deviceAt, deviceAt, (hs.table k d hget).2, hget, hget'] at hat
    obtain rfl : d' = d := hat
    exact .inl ⟨k, d', ms, hget', by rw [apply_discovery, hdiag]; exact hms, hm⟩
  · exact .inr ⟨ms, by rw [apply_discovery, hdiag]; exact hms, hm⟩

theorem Traced.apply (h : s.Traced listed) (hs : Sound s) (hg : l.guard E s)
    (hl : l.kind ∉ [.install, .diagnostics]) : (l.apply s).Traced listed := by
  intro topic hlive
  rcases live_of_apply hg hlive with hlive | ⟨m, rfl, rfl⟩
  · rcases h topic hlive with hmem | ⟨m, hm, htopic⟩
    · exact .inl hmem
    · exact .inr ⟨m, hm.apply hs hl, htopic⟩
  · exact .inr ⟨m, Announces.apply (l := .config m) hg hs hl, rfl⟩

/-- What is published on the way is wanted. -/
theorem Traced.path {K : Label → Prop} (h : s.Traced listed) (hs : Sound s)
    (hK : ∀ l, K l → l.kind ∉ [.install, .diagnostics]) (hp : Path (system E) K s t) :
    t.Traced listed :=
  hs.carries (I := fun u => u.Traced listed) hp h fun l _ hl hg hu h => h.apply hu hg (hK l hl)

theorem Covered.traced (h : s.Covered) : s.Traced s.registered :=
  fun topic hlive => .inl (h topic hlive)

/-- Labels that publish no discovery keep the registry covering. -/
theorem Covered.path {K : Label → Prop} (h : s.Covered)
    (hK : ∀ l, K l → l.kind ∉ [.registry, .config]) (hp : Path (system E) K s t) : t.Covered := by
  refine hp.invariant (I := Covered) (fun l u hl hg hu topic hlive => ?_) h
  change topic ∈ (l.apply u).registered
  rw [apply_registered fun hk => hK l hl (by simp [hk])]
  rcases live_of_apply hg hlive with hlive | ⟨m, rfl, _⟩
  · exact hu topic hlive
  · exact absurd (by simp [Label.kind]) (hK _ hl)

theorem wanted_iff_mem {desired : List String} (h : s.Desires desired) :
    s.Wanted topic ↔ topic ∈ desired := by
  obtain ⟨ms, hms, rfl⟩ := h
  constructor
  · rintro ⟨m, hm, rfl⟩
    refine List.mem_map_of_mem ?_
    obtain ⟨lists, hlists, hms⟩ := bind_ok hms
    obtain ⟨own, hown, hms⟩ := bind_ok hms
    cases hms
    rcases hm with ⟨k, d, ms', hget, hms', hm⟩ | ⟨ms', hms', hm⟩
    · obtain ⟨ms'', hmem, hd⟩ := mem_of_mapM_ok hlists (Dict.mem_values.mpr ⟨k, hget⟩)
      cases hms'.symm.trans hd
      exact List.mem_append_left _ (List.mem_flatten.mpr ⟨_, hmem, hm⟩)
    · cases hms'.symm.trans hown
      exact List.mem_append_right _ hm
  · intro hmem
    obtain ⟨m, hm, htopic⟩ := List.mem_map.mp hmem
    exact ⟨m, mem_discoveryMessages hms hm, htopic⟩

/-- A wanted topic comes back from the registry as it is. -/
theorem strip_of_wanted (hstrips : s.PrefixStripped) (h : s.Wanted topic) : strip topic = topic := by
  have hjoin : ∀ {p component objectId : String},
      Topics.cleanSegment s.discovery.discoveryPrefix = .ok p →
        strip ("/".intercalate [p, component, objectId, "config"]) =
          "/".intercalate [p, component, objectId, "config"] := by
    intro p component objectId hp
    have hp' := hstrips p hp
    have hne := (Topics.cleanSegment_ok hp).2.1
    have htext : ("/".intercalate [p, component, objectId, "config"]).toList =
        p.toList ++ '/' :: (component.toList ++ '/' :: (objectId.toList ++ "/config".toList)) := by
      simp
    rw [← String.toList_inj, toList_strip, htext]
    refine trim_eq_self (fun c hc => ?_) fun c hc => ?_
    · obtain ⟨d, l, hd⟩ := List.exists_cons_of_ne_nil (fun hnil => hne (String.toList_inj.mp hnil))
      have hhead := head_trim (p := isSpace) p.toList
      rw [← toList_strip, hp', hd] at hhead
      rw [hd, List.cons_append, List.head?_cons] at hc
      exact hhead c hc
    · obtain ⟨l, hl⟩ := Topics.isDiscovery_join p component objectId
      rw [← htext, ← hl, List.getLast?_append_of_ne_nil _ (by decide)] at hc
      obtain rfl : c = 'g' := (Option.some.inj hc).symm
      decide
  obtain ⟨m, ⟨k, d, ms, _, hms, hm⟩ | ⟨ms, hms, hm⟩, rfl⟩ := h
  · obtain ⟨topic, fields, htopic, _, rfl⟩ := DiscoveryManager.discoveryMessages_one hms
    rw [List.mem_singleton.mp hm]
    obtain ⟨p, hp, htopic⟩ := bind_ok htopic
    obtain ⟨uid, _, htopic⟩ := bind_ok htopic
    cases htopic
    exact hjoin hp
  · obtain ⟨component, objectId, _, _, htopic⟩ := (DiscoveryManager.bridgeEntity_of_mem hms hm).1
    obtain ⟨p, hp, htopic⟩ := bind_ok htopic
    obtain ⟨c, _, htopic⟩ := bind_ok htopic
    obtain ⟨o, _, htopic⟩ := bind_ok htopic
    rw [← Except.ok.inj htopic]
    exact hjoin hp

theorem apply_registry (h : l.kind ≠ .registry) : (l.apply s).registry = s.registry := by
  cases l with
  | visit => exact absurd rfl h
  | mqtt connected => cases connected <;> rfl
  | enqueue a c =>
    simp only [Label.apply, Bridge.enqueue]
    split
    · split <;> rfl
    · rfl
  | resume sent =>
    simp only [Label.apply, Bridge.resume]
    split <;> rfl
  | _ => rfl

theorem registry_of_path {K : Label → Prop} (hK : ∀ l, K l → l.kind ≠ .registry)
    (hp : Path (system E) K s t) : t.registry = s.registry :=
  hp.frame Bridge.registry fun l _ hl _ => apply_registry (hK l hl)

end Labels

/-! ## Visits to the registry -/

/-- The registry covers, and it can be read. -/
structure Covers (s : Bridge) : Prop where
  readable : s.registry.Readable
  covered : s.Covered

section Visits
variable {E : Env} {s t : Bridge}

theorem Covers.path {K : Label → Prop} (h : s.Covers) (hK : ∀ l, K l → l.kind ∉ [.registry, .config])
    (hp : Path (system E) K s t) : t.Covers :=
  ⟨by rw [registry_of_path (fun l hl hk => hK l hl (by simp [hk])) hp]; exact h.readable,
    h.covered.path hK hp⟩

/-- A load that does not fail. -/
theorem exec_load_ok (hio : ∀ n, E.ioFaults n = {}) (hread : s.registry.Readable) :
    ∃ file : RegistryFile, exec (loadRegistry E) s = (.ok s.registered, s.visited file) ∧
      file.topics s.config.discoveryRegistryPath = s.registered ∧ file.Readable := by
  obtain ⟨hlisted, htopics, hreadable⟩ := @RegistryFile.load_ok
    s.config.discoveryRegistryPath _ hread
  refine ⟨_, ?_, htopics, hreadable⟩
  rw [exec_loadRegistry, hio, hlisted]
  rfl

/-- A save that does not fail. -/
theorem exec_save_ok (hio : ∀ n, E.ioFaults n = {}) (topics : List String) :
    exec (saveDiscoveryRegistry E topics) s =
      (.ok true, s.visited (.holds (RegistryFile.registryPayload topics))) := by
  simp only [saveDiscoveryRegistry, exec_bind, exec_get, exec_modify, hio, RegistryFile.save]
  rfl

/-- After a save the registry lists a topic without white space that was saved. -/
theorem mem_registered_save {topics : List String} {topic : String} (hstrip : strip topic = topic)
    (hdiscovery : Topics.IsDiscovery topic) (h : topic ∈ topics) :
    topic ∈ (s.visited (.holds (RegistryFile.registryPayload topics))).registered := by
  refine RegistryFile.mem_topics_save.mpr ⟨topic, h, ?_, hstrip⟩
  rw [hstrip]
  rintro rfl
  obtain ⟨l, hl⟩ := hdiscovery
  exact absurd (congrArg List.length hl) (by simp)

theorem strip_of_registered {topic : String} (h : topic ∈ s.registered) : strip topic = topic :=
  RegistryFile.strip_of_mem_topics h

/-- A topic that was cleared is not live. -/
theorem live_clearings {topics : List String} {topic : String}
    (h : (s.emitAll (clearings topics)).Live topic) : s.Live topic ∧ topic ∉ topics := by
  obtain ⟨hdiscovery, hshows⟩ := h
  have hcleared : ∀ payload retain, .publish topic payload retain ∈ clearings topics →
      payload = .str "" := by
    intro payload retain hm
    obtain ⟨_, _, ho⟩ := List.mem_map.mp hm
    exact (Output.publish.inj ho).2.1.symm
  refine ⟨⟨hdiscovery, ?_⟩, fun hmem => ?_⟩
  · rcases shows_append hshows with hshows | ⟨fields, retain, hm⟩
    · exact hshows
    · exact absurd (hcleared _ _ hm) Json.noConfusion
  · have hpublish : .publish topic (.str "") true ∈ clearings topics :=
      List.mem_map.mpr ⟨topic, mem_sortedSet.mpr hmem, rfl⟩
    obtain ⟨payload, hretained, fields, rfl⟩ := hshows
    obtain ⟨payload', hretained', rfl⟩ : ∃ payload',
        retained (s.journal.outputs ++ clearings topics) topic = some payload' ∧
          payload' = .str "" :=
      retained_of_mem hcleared hpublish
    cases hretained.symm.trans hretained'

/-- A cleanup records what is traced, or clears it. -/
theorem runDiscoveryCleanup_covers (hio : ∀ n, E.ioFaults n = {}) (hread : s.registry.Readable)
    (hstrips : s.PrefixStripped) (h : s.Traced s.registered) {desired : List String}
    (hdesired : s.Desires desired) (force : Bool) :
    (exec (runDiscoveryCleanup E force) s).2.Covers := by
  have hstrip : ∀ topic, s.Live topic → strip topic = topic := fun topic hlive =>
    (h topic hlive).elim strip_of_registered (strip_of_wanted hstrips)
  obtain ⟨ms, hms, rfl⟩ := id hdesired
  have hexec : exec desiredDiscoveryTopics s = (.ok (ms.map DiscoveryMessage.topic), s) := by
    rw [exec_desiredDiscoveryTopics, hms]
    rfl
  obtain ⟨file, hload, htopics, hreadable⟩ := exec_load_ok hio hread
  rw [runDiscoveryCleanup, exec_bind_ok _ _ _ hexec, exec_bind, exec_get]
  dsimp only
  split
  · have hprevious : exec (tryCatch (loadRegistry E) fun e =>
        if isRegistryError e then pure [] else throw e) s = (.ok s.registered, s.visited file) := by
      rw [exec_tryCatch, hload]
    rw [exec_bind_ok _ _ _ hprevious, exec_bind_ok _ _ _ (exec_save_ok hio _)]
    refine ⟨RegistryFile.noConfusion, fun topic hlive => ?_⟩
    have hlive : s.Live topic := hlive
    refine mem_registered_save (s := s.visited file) (hstrip topic hlive) hlive.1 ?_
    exact List.mem_append.mpr ((h topic hlive).imp id (wanted_iff_mem hdesired).mp)
  · have hloaded : exec (tryCatch (do let topics ← loadRegistry E; return Except.ok topics) fun e =>
        if isRegistryError e then pure (Except.error e) else throw e) s =
          (.ok (.ok s.registered), s.visited file) := by
      rw [exec_tryCatch, exec_bind_ok _ _ _ hload]
      rfl
    rw [exec_bind_ok _ _ _ hloaded]
    dsimp only
    rw [exec_bind_ok _ _ _ (exec_clearTopics _), exec_bind_ok _ _ _ (exec_save_ok hio _)]
    refine ⟨RegistryFile.noConfusion, fun topic hlive => ?_⟩
    obtain ⟨hlive, hnot⟩ := live_clearings (s := s.visited file) hlive
    have hlive : s.Live topic := hlive
    rw [mem_setDiff, not_and, not_not] at hnot
    refine mem_registered_save (s := (s.visited file).emitAll _) (hstrip topic hlive) hlive.1 ?_
    exact (h topic hlive).elim hnot (wanted_iff_mem hdesired).mp

/-- A cleanup whose topics cannot be computed does nothing. -/
theorem runDiscoveryCleanup_keeps (hio : ∀ n, E.ioFaults n = {}) (hstrips : s.PrefixStripped)
    (h : s.Covers) (force : Bool) : (exec (runDiscoveryCleanup E force) s).2.Covers := by
  cases hms : s.discoveryMessages with
  | ok ms =>
    exact runDiscoveryCleanup_covers hio h.readable hstrips h.covered.traced ⟨ms, hms, rfl⟩ force
  | error e =>
    rw [runDiscoveryCleanup, exec_bind, exec_desiredDiscoveryTopics, hms]
    exact h

/-- A reset clears what is live. -/
theorem resetDiscovery_keeps (hio : ∀ n, E.ioFaults n = {}) (h : s.Covers) :
    (exec (resetDiscovery E) s).2.Covers := by
  cases hms : s.discoveryMessages with
  | error e =>
    rw [resetDiscovery, exec_bind, exec_desiredDiscoveryTopics, hms]
    exact h
  | ok ms =>
    have hexec : exec desiredDiscoveryTopics s = (.ok (ms.map DiscoveryMessage.topic), s) := by
      rw [exec_desiredDiscoveryTopics, hms]
      rfl
    obtain ⟨file, hload, htopics, hreadable⟩ := exec_load_ok hio h.readable
    have hprevious : exec (tryCatch (loadRegistry E) fun e =>
        if isRegistryError e then pure [] else throw e) s = (.ok s.registered, s.visited file) := by
      rw [exec_tryCatch, hload]
    rw [resetDiscovery, exec_bind_ok _ _ _ hexec, exec_bind_ok _ _ _ hprevious,
      exec_bind_ok _ _ _ (exec_clearTopics _), exec_bind_ok _ _ _ (exec_save_ok hio _)]
    refine ⟨RegistryFile.noConfusion, fun topic hlive => ?_⟩
    obtain ⟨hlive, hnot⟩ := live_clearings (s := s.visited file) hlive
    exact absurd (List.mem_append_right _ (h.covered topic hlive)) hnot

/-- A live topic that is not wanted is forgotten when only wanted topics are recorded. -/
def Forgets (s : Bridge) : Prop := ∃ topic, s.Live topic ∧ ¬ s.Wanted topic

/-- Publishing the current discovery and recording it. -/
theorem republish_keeps {α : Type} (hio : ∀ n, E.ioFaults n = {}) (hs : Sound s)
    (hstrips : s.PrefixStripped) (h : s.Covers) (hforgets : ¬ s.Forgets) {f : Nat → BridgeM α}
    (hf : ∀ n t, t.Covers → (exec (f n) t).2.Covers) :
    (exec (publishCurrentDiscovery >>= fun published => desiredDiscoveryTopics >>= fun desired =>
      saveDiscoveryRegistry E desired >>= fun _ => f published) s).2.Covers := by
  have hpath := publishCurrentDiscovery_does (E := E) (s := s)
  rw [Does, Takes] at hpath
  cases hms : s.discoveryMessages with
  | error e =>
    rw [exec_bind, exec_publishCurrentDiscovery, hms]
    exact h
  | ok ms =>
    have hpublish : exec publishCurrentDiscovery s =
        (.ok ms.length, s.emitAll (ms.map messageOutput)) := by
      rw [exec_publishCurrentDiscovery, hms]
    rw [hpublish] at hpath
    set u := s.emitAll (ms.map messageOutput) with hu
    have hms' : u.discoveryMessages = .ok ms := hms
    have hexec : exec desiredDiscoveryTopics u = (.ok (ms.map DiscoveryMessage.topic), u) := by
      rw [exec_desiredDiscoveryTopics, hms']
      rfl
    have htraced : u.Traced [] := by
      refine Traced.path (fun topic hlive => .inr ?_) hs (fun l hl => ?_) hpath
      · by_contra hnot
        exact hforgets ⟨topic, hlive, hnot⟩
      · rw [List.mem_singleton.mp hl]
        decide
    rw [exec_bind_ok _ _ _ hpublish, exec_bind_ok _ _ _ hexec, exec_bind_ok _ _ _ (exec_save_ok hio _)]
    refine hf _ _ ⟨RegistryFile.noConfusion, fun topic hlive => ?_⟩
    have hwanted : u.Wanted topic := (htraced topic hlive).resolve_left List.not_mem_nil
    exact mem_registered_save (s := u) (strip_of_wanted hstrips hwanted) hlive.1
      ((wanted_iff_mem ⟨ms, hms', rfl⟩).mp hwanted)

/-- The rule for a sequence of two programs. -/
theorem keeps_bind {α β : Type} {p : BridgeM α} {f : α → BridgeM β} (hp : (exec p s).2.Covers)
    (hf : ∀ a t, exec p s = (.ok a, t) → t.Covers → (exec (f a) t).2.Covers) :
    (exec (p >>= f) s).2.Covers := by
  cases h : exec p s with
  | mk r t =>
    rw [h] at hp
    cases r with
    | error e =>
      rw [exec_bind_error _ _ _ h]
      exact hp
    | ok a =>
      rw [exec_bind_ok _ _ _ h]
      exact hf a t h hp

theorem keeps_of_does {α : Type} {K : List Kind} {p : BridgeM α}
    (hK : K.all (· ∉ [.registry, .config]) = true) (hp : Does E K p s) (h : s.Covers) :
    (exec p s).2.Covers :=
  h.path (fun l hl => of_decide_eq_true (List.all_eq_true.mp hK l.kind hl)) hp

/-- A bridge command that forgets nothing. -/
theorem handleBridgeCommand_keeps (hio : ∀ n, E.ioFaults n = {}) (hs : Sound s)
    (hstrips : s.PrefixStripped) (h : s.Covers) (now : Timestamp) (command : BridgeCommand)
    (hforgets : command = .rediscover → ¬ s.Forgets) :
    (exec (handleBridgeCommand E now command) s).2.Covers := by
  have hrespond : ∀ (t : Bridge) command success message payload, t.Covers →
      (exec (respond E now command success message payload) t).2.Covers :=
    fun t command success message payload ht => keeps_of_does rfl (respond_does ..) ht
  rw [handleBridgeCommand, exec_bind, exec_get]
  dsimp only
  split
  · exact hrespond _ _ _ _ _ h
  · cases command with
    | ping | status => exact hrespond _ _ _ _ _ h
    | sync =>
      dsimp only
      split
      · exact hrespond _ _ _ _ _ h
      · refine keeps_bind (keeps_of_does (E := E) (K := [.line]) rfl (.tryCatch (.bind ?_
          fun _ _ _ => .refl) fun e _ _ => ?_) h) fun failure t _ ht => ?_
        · exact sendLine_takes List.mem_cons_self fun _ => of_kind rfl
        · split <;> exact .refl
        · split <;> exact hrespond _ _ _ _ _ ht
    | rediscover =>
      exact republish_keeps hio hs hstrips h (hforgets rfl) fun _ t ht => hrespond _ _ _ _ _ ht
    | pruneDiscovery =>
      exact keeps_bind (runDiscoveryCleanup_keeps hio hstrips h true) fun _ t _ ht =>
        hrespond _ _ _ _ _ ht
    | resetDiscovery =>
      exact keeps_bind (resetDiscovery_keeps hio h) fun _ t _ ht => hrespond _ _ _ _ _ ht

end Visits

/-! ## Actions -/

/-- The registry lists what an announcement of the device publishes. -/
def Lists (s : Bridge) (a : String) : Prop :=
  s.mqtt.connected = true → ∀ ms,
    s.discovery.discoveryMessages (s.deviceAt a) s.mochadDiagnostics = .ok ms →
      ∀ m ∈ ms, m.topic ∈ s.registered

section Actions
variable {E : Env} {s t : Bridge} {a : String}

theorem Lists.path {K : Label → Prop} (h : s.Lists a)
    (hK : ∀ l, K l → l.kind ∉ [.install, .diagnostics, .mqtt, .registry])
    (hp : Path (system E) K s t) : t.Lists a := by
  have hat : t.deviceAt a = s.deviceAt a := hp.frame (fun u => u.deviceAt a) fun l _ hl _ =>
    apply_deviceAt (fun hk => hK l hl (by simp [hk])) a
  have hdiag : t.mochadDiagnostics = s.mochadDiagnostics :=
    hp.frame Bridge.mochadDiagnostics fun l _ hl _ =>
      apply_diagnostics fun hk => hK l hl (by simp [hk])
  have hlink : t.mqtt.connected = s.mqtt.connected :=
    hp.frame (fun u => u.mqtt.connected) fun l _ hl _ =>
      apply_connected fun hk => hK l hl (by simp [hk])
  have hregistered : t.registered = s.registered :=
    hp.frame Bridge.registered fun l _ hl _ => apply_registered fun hk => hK l hl (by simp [hk])
  rw [Lists, hat, hdiag, hlink, hregistered, discovery_of_path hp]
  exact h

/-- Publishing configs on listed topics. -/
theorem Covers.emitAll {ms : List DiscoveryMessage} (h : s.Covers)
    (hms : ∀ m ∈ ms, m.topic ∈ s.registered) : (s.emitAll (ms.map messageOutput)).Covers := by
  refine ⟨h.readable, fun topic hlive => ?_⟩
  obtain ⟨hdiscovery, hshows⟩ := hlive
  rcases shows_append hshows with hshows | ⟨fields, retain, hmem⟩
  · exact h.covered topic ⟨hdiscovery, hshows⟩
  · obtain ⟨m, hm, ho⟩ := List.mem_map.mp hmem
    rw [← (Output.publish.inj ho).1]
    exact hms m hm

/-- The labels of an action other than an announcement publish no config. -/
theorem quiet_of_of {l : Label} {x : BridgeAction} (h : l.Of x)
    (hx : ∀ a, x ≠ .publishDiscovery a) : l.kind ∉ [.registry, .config] := by
  cases l with
  | config m =>
    obtain ⟨a, rfl⟩ := h
    exact absurd rfl (hx a)
  | visit file => exact absurd h id
  | _ => simp [Label.kind]

/-- An announcement that does not go through publishes nothing. -/
theorem exec_announce_error (now : Timestamp) (hconn : s.mqtt.connected = true) {e : PyError}
    (hms : s.discovery.discoveryMessages (s.deviceAt a) s.mochadDiagnostics = .error e) :
    exec (executeAction E now (.publishDiscovery a)) s = (.error e, s.withDevice a) := by
  have hms' : (s.withDevice a).discovery.discoveryMessages (s.deviceAt a)
      (s.withDevice a).mochadDiagnostics = .error e := hms
  rw [executeAction, exec_bind, exec_get]
  dsimp only
  rw [if_neg (by simp [hconn])]
  rw [exec_bind_ok _ _ _ (exec_deviceConfig a), exec_bind, exec_get]
  dsimp only
  rw [hms', exec_bind, exec_ofExcept]

theorem attempt_keeps (now : Timestamp) (h : s.Covers) {x : BridgeAction}
    (hx : s.state.Concerns x) (hlists : ∀ a, x = .publishDiscovery a → s.Lists a) :
    (exec (attempt E now x) s).2.Covers := by
  by_cases hdiscovery : ∃ a, x = .publishDiscovery a
  · obtain ⟨a, rfl⟩ := hdiscovery
    have hinsert : (s.withDevice a).Covers := ⟨h.readable, h.covered⟩
    rw [exec_attempt_state]
    cases hconn : s.mqtt.connected with
    | false =>
      rw [executeAction, exec_bind, exec_get]
      dsimp only
      rw [if_pos (by simp [hconn, isMqttPublish])]
      exact ⟨h.readable, h.covered⟩
    | true =>
      cases hms : s.discovery.discoveryMessages (s.deviceAt a) s.mochadDiagnostics with
      | error e =>
        rw [exec_announce_error now hconn hms]
        exact hinsert
      | ok ms =>
        rw [exec_announce now hconn hms]
        exact hinsert.emitAll (hlists a rfl hconn ms hms)
  · exact h.path (fun l hl => quiet_of_of hl fun a ha => hdiscovery ⟨a, ha⟩) (attempt_takes now hx)

/-- Actions that announce listed devices only. -/
theorem executeActions_keeps (now : Timestamp) {actions : List BridgeAction} (h : s.Covers)
    (hconcern : ∀ x ∈ actions, s.state.Concerns x)
    (hlists : ∀ a, .publishDiscovery a ∈ actions → s.Lists a) :
    (exec (executeActions E now actions) s).2.Covers := by
  induction actions generalizing s with
  | nil => exact h
  | cons x rest ih =>
    have hx := hconcern x List.mem_cons_self
    have hpath := attempt_takes (E := E) now hx
    have hkeeps := attempt_keeps (E := E) now h hx fun a ha =>
      hlists a (ha ▸ List.mem_cons_self)
    rw [executeActions_cons]
    refine keeps_bind hkeeps fun goOn t ht hkeeps => ?_
    rw [Takes, ht] at hpath
    split
    · refine ih hkeeps (fun y hy => ?_) fun a ha => ?_
      · rw [state_of_path (fun _ => call_not_of) hpath]
        exact hconcern y (List.mem_cons_of_mem _ hy)
      · refine (hlists a (List.mem_cons_of_mem _ ha)).path (fun l hl hk => ?_) hpath
        have hkind := kind_of_of hl
        revert hkind hk
        cases l.kind <;> decide
    · exact hkeeps

/-- A call whose announcements are listed. -/
theorem call_keeps (now : Timestamp) (hs : Sound s) (h : s.Covers) {c : Call} (hc : c.FromBridge)
    (hlists : ∀ a, .publishDiscovery a ∈ (s.state.call c).2 → s.Lists a) :
    (exec (executeActions E now (s.state.call c).2)
      { s with state := (s.state.call c).1 }).2.Covers :=
  executeActions_keeps (s := { s with state := (s.state.call c).1 }) now ⟨h.readable, h.covered⟩
    (StateManager.call_concerns hs.keyed hc) hlists

end Actions

/-! ## A new connection -/

/-- The messages of the bridge, and of every device that is listed or known, can be generated. -/
structure Generable (s : Bridge) : Prop where
  device : ∀ a, a ∈ s.devices.keys ∨ s.Known a → s.Announceable a
  own : ∃ ms, s.discovery.bridgeDiagnosticMessages s.mochadDiagnostics = .ok ms

section Connection
variable {E : Env} {s t : Bridge} {a : String}

theorem Generable.desires (h : s.Generable) (hs : Sound s) : ∃ desired, s.Desires desired := by
  obtain ⟨own, hown⟩ := h.own
  have hlists : ∃ lists, s.devices.values.mapM (fun device =>
      s.discovery.discoveryMessages device s.mochadDiagnostics) = .ok lists := by
    refine mapM_ok_iff.mpr fun d hd => ?_
    obtain ⟨k, hget⟩ := Dict.mem_values.mp hd
    have hk : k ∈ s.devices.keys := Dict.mem_keys.mpr (by rw [hget]; exact Option.some_ne_none d)
    obtain ⟨ms, hms⟩ := h.device k (.inl hk)
    rw [deviceAt, (hs.table k d hget).2, hget] at hms
    exact ⟨ms, hms⟩
  obtain ⟨lists, hlists⟩ := hlists
  exact ⟨_, lists.flatten ++ own, by rw [discoveryMessages, hlists]; simp only [hown]; rfl, rfl⟩

/-- Actions bring known devices into the table only. -/
theorem listed_of_apply {l : Label} {x : BridgeAction} (hs : Sound s) (hx : l.Of x)
    (hg : l.guard E s) (ha : a ∈ (l.apply s).devices.keys) : a ∈ s.devices.keys ∨ s.Known a := by
  have hinsert : ∀ b, s.Known b → a ∈ (s.withDevice b).devices.keys →
      a ∈ s.devices.keys ∨ s.Known a := by
    intro b hb hmem
    rcases Dict.mem_keys_insert.mp hmem with rfl | hmem
    · rw [(hs.known b hb).2]
      exact .inr hb
    · exact .inl hmem
  cases l with
  | insert b => exact hinsert b hg ha
  | direct b => exact hinsert b hg.1 ha
  | enqueue b c =>
    refine .inl ?_
    revert ha
    simp only [Label.apply, Bridge.enqueue]
    split
    · split <;> exact id
    · exact id
  | own | dropped | report | state | config | line => exact .inl ha
  | _ => exact absurd hx id

theorem Generable.path {actions : List BridgeAction} (h : s.Generable) (hs : Sound s)
    (hp : Path (system E) (fun l => ∃ x ∈ actions, l.Of x) s t) : t.Generable := by
  refine hs.carries (I := Generable) hp h ?_
  rintro l u ⟨x, _, hx⟩ hg hu h
  have hkinds : l.kind ∉ [.install, .diagnostics, .call] := by
    intro hk
    have hkind := kind_of_of hx
    revert hkind hk
    cases l.kind <;> decide
  have hdiag := apply_diagnostics (s := u) (l := l) fun hk => hkinds (by simp [hk])
  constructor
  · intro a ha
    rw [Known, apply_state fun hk => hkinds (by simp [hk])] at ha
    obtain ⟨ms, hms⟩ := h.device a (ha.elim (listed_of_apply hu hx hg) .inr)
    refine ⟨ms, ?_⟩
    rw [apply_deviceAt fun hk => hkinds (by simp [hk]), apply_discovery, hdiag]
    exact hms
  · rw [apply_discovery, hdiag]
    exact h.own

/-- The actions of a new connection all go through. -/
theorem executeActions_performs (now : Timestamp) {actions : List BridgeAction} (hs : Sound s)
    (hconn : s.mqtt.connected = true) (hperform : ∀ x ∈ actions, s.Performable x)
    (hconcern : ∀ x ∈ actions, s.state.Concerns x) :
    ∃ t, exec (executeActions E now actions) s = (.ok (), t) := by
  induction actions generalizing s with
  | nil => exact ⟨s, rfl⟩
  | cons x rest ih =>
    obtain ⟨t, ht⟩ := exec_performable (E := E) now hs hconn (hperform x List.mem_cons_self)
    have hpath := attempt_takes (E := E) now (hconcern x List.mem_cons_self)
    rw [Takes, exec_attempt now ht] at hpath
    have hkinds : ∀ l, Label.Of l x → l.kind ∉ [.install, .diagnostics, .mqtt] := by
      intro l hl hk
      have hkind := kind_of_of hl
      revert hkind hk
      cases l.kind <;> decide
    have hlink := hpath.frame (fun u => u.mqtt.connected) fun l u hl _ =>
      apply_connected fun hk => hkinds l hl (by simp [hk])
    rw [executeActions_cons, exec_bind_ok _ _ _ (exec_attempt now ht), if_pos rfl]
    refine ih (hs.path hpath) (hlink.trans hconn) (fun y hy => ?_) fun y hy => ?_
    · refine (hperform y (List.mem_cons_of_mem _ hy)).path (fun l hl hk => hkinds l hl ?_) hpath
      rcases List.mem_pair.mp hk with hk | hk <;> simp [hk]
    · rw [state_of_path (fun _ => call_not_of) hpath]
      exact hconcern y (List.mem_cons_of_mem _ hy)

/-- The notification of a new connection goes through, and publishes what is wanted. -/
theorem notify_traced (now : Timestamp) (hs : Sound s) (hconn : s.mqtt.connected = true)
    (h : s.Covered) (hgen : s.Generable) :
    ∃ t, exec (notify E now StateManager.onMqttConnected) s = (.ok (), t) ∧ Sound t ∧
      t.Generable ∧ t.Traced s.registered ∧ t.registered = s.registered ∧
        t.registry = s.registry ∧ t.discovery = s.discovery := by
  set w : Bridge := { s with state := (s.state.call .mqttConnected).1 } with hw
  have hrun : exec (notify E now StateManager.onMqttConnected) s =
      exec (executeActions E now (s.state.call .mqttConnected).2) w := by
    simp only [notify, exec_bind, exec_get, exec_set]
    rfl
  have hfrom : Call.FromBridge .mqttConnected := trivial
  have hsound : Sound w := hs.call hfrom
  have hkeys : w.state.devices.keys = s.state.devices.keys :=
    (StateManager.onMqttConnected_notified s.state).keys
  have hgenerable : w.Generable := by
    refine ⟨fun a ha => hgen.device a (ha.imp id fun hk => ?_), hgen.own⟩
    rwa [Known, hkeys] at hk
  have hconcern := StateManager.call_concerns hs.keyed hfrom
  obtain ⟨t, ht⟩ := executeActions_performs (E := E) (s := w) now hsound hconn
    (fun x hx => performable_of_connect hs (fun k hk => hgen.device k (.inr hk)) hx) hconcern
  have hpath := executeActions_takes (E := E) (s := w) now hconcern
  rw [Takes, ht] at hpath
  have hkinds : ∀ l : Label, (∃ x ∈ (s.state.call .mqttConnected).2, l.Of x) →
      l.kind ∉ [.install, .diagnostics, .registry] := by
    rintro l ⟨x, _, hl⟩ hk
    have hkind := kind_of_of hl
    revert hkind hk
    cases l.kind <;> decide
  have htraced : w.Traced s.registered := fun topic hlive => .inl (h topic hlive)
  have hregistered : t.registered = w.registered :=
    hpath.frame Bridge.registered fun l _ hl _ => apply_registered fun hk =>
      hkinds l hl (by simp [hk])
  have hregistry : t.registry = w.registry :=
    registry_of_path (fun l hl hk => hkinds l hl (by simp [hk])) hpath
  have hdiscovery : t.discovery = w.discovery := discovery_of_path hpath
  refine ⟨t, hrun.trans ht, hsound.path hpath, hgenerable.path hsound hpath, ?_, hregistered,
    hregistry, hdiscovery⟩
  refine htraced.path hsound (fun l hl hk => hkinds l hl ?_) hpath
  rcases List.mem_pair.mp hk with hk | hk <;> simp [hk]

/-- A new connection records what it announces. -/
theorem onConnect_keeps (hio : ∀ n, E.ioFaults n = {}) (hs : Sound s) (hstrips : s.PrefixStripped)
    (h : s.Covers) (hgen : s.Generable) (now : Timestamp) :
    (exec (onConnect E now) s).2.Covers := by
  set v := (Label.mqtt true).apply s with hv
  have hexec : exec (onConnect E now) s = exec (onMqttConnected E now) v :=
    exec_bind_ok _ _ _ (exec_modify _ _)
  have hlink : v.Covers := h.path (K := (· = .mqtt true)) (by rintro l rfl; decide)
    (Path.single (G := system E) (l := .mqtt true) rfl trivial)
  obtain ⟨t, ht, hsound, hgenerable, htraced, hregistered, hregistry, hdiscovery⟩ :=
    notify_traced (E := E) (s := v) now (hs.apply (E := E) (l := .mqtt true) trivial) rfl
      hlink.covered ⟨hgen.device, hgen.own⟩
  obtain ⟨ms, hms⟩ := hgenerable.own
  have hpublish : exec publishBridgeDiagnosticDiscovery t =
      (.ok (), t.emitAll (ms.map messageOutput)) := by
    rw [publishBridgeDiagnosticDiscovery, exec_bind, exec_get]
    dsimp only
    rw [hms, exec_bind, exec_ofExcept]
    exact exec_publishAll ms
  have hown := publishBridgeDiagnosticDiscovery_does (E := E) (s := t)
  rw [Does, Takes, hpublish] at hown
  have htraced' := htraced.path hsound
    (fun l hl => by rw [List.mem_singleton.mp hl]; decide) hown
  obtain ⟨desired, hdesired⟩ := hgenerable.desires hsound
  rw [hexec, onMqttConnected, exec_bind_ok _ _ _ ht, exec_bind_ok _ _ _ hpublish]
  refine keeps_bind (runDiscoveryCleanup_covers (s := t.emitAll _) hio ?_ ?_ ?_ hdesired false)
    fun _ _ _ hkeeps => hkeeps
  · show t.registry.Readable
    rw [hregistry]
    exact hlink.readable
  · show t.PrefixStripped
    rw [PrefixStripped, hdiscovery]
    exact hstrips
  · rw [← hregistered] at htraced'
    exact htraced'

end Connection

/-! ## Steps -/

/-- The step announces a device whose topic is not listed. -/
def Overlooks (s : Bridge) (i : Timestamp × Input) : Prop :=
  i.2 ≠ .mqttConnected ∧ ∃ c, s.stepCall i.1 i.2 = some c ∧
    ∃ a, .publishDiscovery a ∈ (s.state.call c).2 ∧ ¬ s.Lists a

/-- The step records the wanted topics only, and others are live. -/
def Overwrites (s : Bridge) (i : Timestamp × Input) : Prop :=
  (s.inputBridgeCommand i.2 = some .rediscover ∧ s.Forgets) ∨
    ∃ line payload kind, i.2 = .mochadLine line ∧ lineDiagnostic line = some (payload, kind) ∧
      kind ≠ .capabilities ∧ s.mqtt.connected = true ∧ (s.merged payload i.1).Forgets

/-- The step may leave a live topic out of the registry. -/
def Orphans (s : Bridge) (i : Timestamp × Input) : Prop :=
  (i.2 = .mqttConnected ∧ ¬ s.Generable) ∨ s.Overlooks i ∨ s.Overwrites i

section Steps
variable {E : Env} {s t : Bridge} {i : Timestamp × Input}

/-- Nothing is forgotten where nothing becomes live and nothing stops being wanted. -/
theorem not_forgets_path {K : Label → Prop} (hs : Sound s) (h : ¬ s.Forgets)
    (hK : ∀ l, K l → l.kind ∉ [.config, .install, .diagnostics]) (hp : Path (system E) K s t) :
    ¬ t.Forgets := by
  refine hs.carries (I := fun u => ¬ u.Forgets) hp h ?_
  rintro l u hl hg hu h ⟨topic, hlive, hnot⟩
  rcases live_of_apply hg hlive with hlive | ⟨m, rfl, _⟩
  · refine h ⟨topic, hlive, fun ⟨m, hm, htopic⟩ => hnot ⟨m, hm.apply hu fun hk => ?_, htopic⟩⟩
    exact hK l hl (List.mem_cons_of_mem _ hk)
  · exact hK _ hl List.mem_cons_self

theorem publishDiagnostics_keeps (hio : ∀ n, E.ioFaults n = {}) (hs : Sound s)
    (hstrips : s.PrefixStripped) (h : s.Covers) {kind : DiagnosticKind}
    (hforgets : kind ≠ .capabilities → s.mqtt.connected = true → ¬ s.Forgets) :
    (exec (publishDiagnostics E kind) s).2.Covers := by
  rw [publishDiagnostics, exec_bind, exec_get]
  dsimp only
  split
  · next hconn =>
    have hstatus := publishStatus_does (E := E) (s := s) (.obj s.bridgeStatusPayload) true
    refine keeps_bind (keeps_of_does rfl hstatus h) fun _ t ht hkeeps => ?_
    rw [Does, Takes, ht] at hstatus
    split
    · next hkind =>
      refine republish_keeps hio (hs.path hstatus) ?_ hkeeps ?_ fun _ _ hkeeps => hkeeps
      · rw [PrefixStripped, discovery_of_path hstatus]
        exact hstrips
      · refine not_forgets_path hs (hforgets ?_ hconn) (fun l hl => ?_) hstatus
        · rintro rfl
          simp at hkind
        · rw [List.mem_singleton.mp hl]
          decide
    · exact hkeeps
  · exact h

/-- A diagnostic line that overwrites nothing. -/
theorem handleDiagnostics_keeps (hio : ∀ n, E.ioFaults n = {}) (hs : Sound s)
    (hstrips : s.PrefixStripped) (h : s.Covers) (now : Timestamp) {payload : List (String × Json)}
    {kind : DiagnosticKind} (hforgets : kind ≠ .capabilities → s.mqtt.connected = true →
      ¬ (s.merged payload now).Forgets) :
    (exec (handleDiagnostics E now payload kind) s).2.Covers := by
  have hmerged : Sound (s.merged payload now) :=
    hs.apply (E := E) (l := .diagnostics (mergeMochadDiagnostics s.mochadDiagnostics payload now))
      trivial
  have hkeeps : (s.merged payload now).Covers := ⟨h.readable, h.covered⟩
  have hpublish := publishDiagnostics_keeps (E := E) hio hmerged hstrips hkeeps hforgets
  have hpath := publishDiagnostics_does (E := E) (s := s.merged payload now) kind
  rw [exec_handleDiagnostics]
  split
  · next e t ht =>
    rw [ht] at hpublish
    exact hpublish
  · next t ht =>
    rw [ht] at hpublish
    rw [Does, Takes, ht] at hpath
    split
    · exact keeps_of_does rfl (flushQueuedDeviceCommands_does (hmerged.path hpath)) hpublish
    · exact hpublish

/-- Announcing a new table. -/
theorem announceReload_keeps (hio : ∀ n, E.ioFaults n = {}) (hs : Sound s)
    (hstrips : s.PrefixStripped) (h : s.Covers) :
    (exec (do
      let s ← get
      if s.mqtt.connected then
        let _ ← publishCurrentDiscovery
        let _ ← runDiscoveryCleanup E false
        let s ← get
        publishStatus (.obj s.bridgeStatusPayload) true) s).2.Covers := by
  rw [exec_bind, exec_get]
  dsimp only
  split
  · have hpath := publishCurrentDiscovery_does (E := E) (s := s)
    rw [Does, Takes, exec_publishCurrentDiscovery] at hpath
    rw [exec_bind, exec_publishCurrentDiscovery]
    cases hms : s.discoveryMessages with
    | error e => exact h
    | ok ms =>
      rw [hms] at hpath
      dsimp only at hpath ⊢
      have htraced := h.covered.traced.path hs
        (fun l hl => by rw [List.mem_singleton.mp hl]; decide) hpath
      refine keeps_bind (runDiscoveryCleanup_covers (s := s.emitAll _) hio h.readable hstrips
        htraced ⟨ms, hms, rfl⟩ false) fun _ t _ hkeeps => ?_
      rw [exec_bind, exec_get]
      exact keeps_of_does rfl (publishStatus_does (E := E) _ true) hkeeps
  · exact h

/-- A reload. -/
theorem reload_keeps (hio : ∀ n, E.ioFaults n = {}) (hs : Sound s) (hlive : s.crashed = false)
    (hruns : s.stopping = false) (hstrips : s.PrefixStripped) (h : s.Covers) {newConfig : Config}
    (hi : s.inputConfig i.2 = some newConfig) : (step E s i).Covers := by
  obtain ⟨next, hstep⟩ := reload_applies (E := E) hlive hruns hi
  set w := (Label.watch s.configFileSignature next).apply s
  have hsound : Sound w := hs.apply (E := E) (l := .watch s.configFileSignature next) trivial
  have hw : w.Covers := ⟨h.readable, h.covered⟩
  have happlied : (exec (applyRuntimeConfig E newConfig) w).2.Covers := by
    rw [applyRuntimeConfig, exec_bind, exec_get]
    dsimp only
    split
    · exact hw
    · rw [exec_bind_ok _ _ _ (exec_modify _ _)]
      exact announceReload_keeps (s := w.install newConfig) hio (hsound.install newConfig) hstrips
        ⟨h.readable, h.covered⟩
  refine happlied.path (fun l hl => ?_) hstep
  rcases List.mem_pair.mp hl with hk | hk <;> rw [hk] <;> decide

/-- A step that neither publishes discovery nor visits the registry. -/
theorem quiet_keeps (hs : Sound s) (h : s.Covers) (hkinds : ∀ k ∈ s.inputKinds i.2,
    k ∉ [.registry, .config]) (hcall : ∀ c, s.stepCall i.1 i.2 = some c →
      ∀ a, .publishDiscovery a ∉ (s.state.call c).2) : (step E s i).Covers := by
  refine h.path (fun l hl => ?_) (step_path hs i)
  have hlabel : l.kind ∈ s.inputKinds i.2 ∨ (∃ c, s.stepCall i.1 i.2 = some c ∧ s.CallLabel c l) →
      l.kind ∉ [.registry, .config] := by
    rintro (hk | ⟨c, hc, rfl | ⟨x, hx, hof⟩⟩)
    · exact hkinds _ hk
    · simp [Label.kind]
    · refine quiet_of_of hof ?_
      rintro a rfl
      exact hcall c hc a hx
  cases l with
  | commanded | install | mqtt | mochad => simp [Label.kind]
  | _ => exact hlabel hl

/-- What tells of a connection announces no device. -/
theorem not_announced_of_link {sm : StateManager} {c : Call}
    (hc : c = .mqttDisconnected ∨ c = .mochadConnected ∨ c = .mochadDisconnected) :
    ∀ a, .publishDiscovery a ∉ (sm.call c).2 := by
  intro a
  rcases hc with rfl | rfl | rfl
  · simp [StateManager.call, StateManager.onMqttDisconnected, StateManager.bridgeStatusActions]
  · simp [StateManager.call, StateManager.onMochadConnected, StateManager.bridgeStatusActions]
  · simp [StateManager.call, StateManager.onMochadDisconnected, StateManager.bridgeStatusActions]

/-- A message without a device command. -/
theorem onMessage_keeps (hio : ∀ n, E.ioFaults n = {}) (hs : Sound s) (hstrips : s.PrefixStripped)
    (h : s.Covers) (now : Timestamp) {topic payload : String}
    (hm : s.messageCommand topic payload = none)
    (hforgets : s.messageBridgeCommand topic payload = some .rediscover → ¬ s.Forgets) :
    (exec (onMessage E now topic payload) s).2.Covers := by
  cases hcommand : s.messageBridgeCommand topic payload with
  | some command =>
    rw [(exec_onMessage_bridge now hcommand).2]
    refine handleBridgeCommand_keeps hio hs hstrips h now command ?_
    rintro rfl
    exact hforgets hcommand
  | none =>
    have hdoes := onMessage_other_does (E := E) hs now hm
    rw [onMessage, exec_bind, exec_get]
    dsimp only
    rw [messageBridgeCommand] at hcommand
    rw [messageCommand] at hm
    cases hb : Topics.parseBridgeCommandTopic topic s.mqtt.baseTopic with
    | ok u =>
      rw [hb] at hcommand
      dsimp only at hcommand ⊢
      rw [onMqttBridgeCommand, hcommand]
      exact keeps_of_does rfl (respond_does (E := E) _ _ _ _ _) h
    | error e =>
      rw [hb] at hm
      dsimp only at hm ⊢
      cases hd : Topics.parseCommandTopic topic s.mqtt.baseTopic with
      | error e => exact h
      | ok device =>
        have hp : parseCommandPayload (strip payload) = none := by
          simpa only [hd, Option.map_eq_none_iff] using hm
        simp only [onMqttCommand, exec_bind, exec_get, hs.configBase, hd, ne_eq, not_true_eq_false,
          if_false, hp]
        exact h

/-- Every step that orphans no topic keeps the registry covering. -/
theorem step_keeps (hio : ∀ n, E.ioFaults n = {}) (hs : Sound s) (hstrips : s.PrefixStripped)
    (h : s.Covers) (hi : ¬ s.Orphans i) : (step E s i).Covers := by
  cases hlive : s.crashed with
  | true =>
    rw [step, if_pos hlive]
    exact h
  | false =>
    obtain ⟨now, input⟩ := i
    have hlists : input ≠ .mqttConnected → ∀ c, s.stepCall now input = some c →
        ∀ a, .publishDiscovery a ∈ (s.state.call c).2 → s.Lists a := fun hne c hc a ha =>
      by_contra fun hnot => hi (.inr (.inl ⟨hne, c, hc, a, ha, hnot⟩))
    cases input with
    | mqttConnected =>
      rw [step_callback hlive rfl]
      exact onConnect_keeps hio hs hstrips h (by_contra fun hnot => hi (.inl ⟨rfl, hnot⟩)) now
    | mqttMessage topic payload =>
      rw [step_callback hlive rfl, callback]
      cases hm : s.messageCommand topic payload with
      | none =>
        exact onMessage_keeps hio hs hstrips h now hm fun hcommand hforgets =>
          hi (.inr (.inr (.inl ⟨hcommand, hforgets⟩)))
      | some ac =>
        obtain ⟨a, c⟩ := ac
        have hinsert : (s.withDevice a).Covers := ⟨h.readable, h.covered⟩
        by_cases hc : c ∈ (s.deviceAt a).supportedCommands
        · have hcall : s.stepCall now (.mqttMessage topic payload) =
              some (.optimisticUpdate now a c) := by
            simp only [stepCall, hm, Option.bind_some, if_pos hc]
          rw [exec_onMessage_command hs now hm hc]
          refine call_keeps (s := s.withDevice a) now (hs.withDevice a) hinsert
            (c := .optimisticUpdate now a c) (sendable_of_messageCommand hm) fun b hb => ?_
          have hlist := hlists Input.noConfusion _ hcall b hb
          rw [Lists, deviceAt_withDevice]
          exact hlist
        · rw [exec_onMessage_unsupported hs now hm hc]
          exact hinsert
    | mochadLine line =>
      rw [step_callback hlive rfl, callback]
      cases hd : lineDiagnostic line with
      | some diagnostic =>
        obtain ⟨payload, kind⟩ := diagnostic
        rw [exec_onMochadLine_diagnostic now hd]
        exact handleDiagnostics_keeps hio hs hstrips h now fun hkind hconn hforgets =>
          hi (.inr (.inr (.inr ⟨line, payload, kind, rfl, hd, hkind, hconn, hforgets⟩)))
      | none =>
        rw [exec_onMochadLine now hd]
        cases hp : s.parser.parseLine now (stripChars ['\r', '\n'] line) with
        | error e => exact h
        | ok r =>
          obtain ⟨event, parser⟩ := r
          have hcall : s.stepCall now (.mochadLine line) = some (.apply now event) := by
            simp only [stepCall, hd, hp, Option.isSome_none, Bool.false_eq_true, if_false,
              Except.toOption, Option.map_some]
          have hsound : Sound { s with parser := parser } := hs.apply (E := E)
            (l := .parser parser) (ProtocolParser.parseLine_event hs.parser hp).1
          exact call_keeps (s := { s with parser := parser }) now hsound ⟨h.readable, h.covered⟩
            (fromBridge_of_stepCall hs hcall) (hlists Input.noConfusion _ hcall)
    | poll monotonic signature loaded =>
      cases hconfig : s.inputConfig (.poll monotonic signature loaded) with
      | none =>
        refine quiet_keeps hs h (fun k hk => ?_) fun c hc => by cases hc
        simp only [inputKinds, hconfig] at hk
        revert hk
        cases k <;> decide
      | some newConfig =>
        cases hruns : s.stopping with
        | true =>
          have hsame : step E s (now, .poll monotonic signature loaded) = s := by
            rw [step, hlive, hruns]
            rfl
          rw [hsame]
          exact h
        | false => exact reload_keeps hio hs hlive hruns hstrips h hconfig
    | mqttDisconnected =>
      refine quiet_keeps hs h (fun k hk => absurd hk List.not_mem_nil) fun c hc => ?_
      simp only [stepCall] at hc
      split at hc
      · cases hc
      · obtain rfl := Option.some.inj hc
        exact not_announced_of_link (.inl rfl)
    | mochadConnected =>
      refine quiet_keeps hs h (fun k hk => by rw [List.mem_singleton.mp hk]; decide) fun c hc => ?_
      simp only [stepCall] at hc
      split at hc
      · cases hc
      · obtain rfl := Option.some.inj hc
        exact not_announced_of_link (.inr (.inl rfl))
    | mochadDisconnected =>
      refine quiet_keeps hs h (fun k hk => by rw [List.mem_singleton.mp hk]; decide) fun c hc => ?_
      obtain rfl := Option.some.inj hc
      exact not_announced_of_link (.inr (.inr rfl))
    | stop =>
      refine quiet_keeps hs h (fun k hk => ?_) fun c hc => by cases hc
      rcases List.mem_pair.mp hk with rfl | rfl <;> decide

end Steps

/-! ## Runs over several starts -/

/-- What happens to the bridge, a new start included. -/
inductive Event where
  | input (i : Timestamp × Input)
  | restart (config : Config) (signature : Option (Int × Nat)) (monotonic : Nat)

/-- A new start finds the registry file and the broker as they were left. -/
def live (E : Env) (s : Bridge) : Event → Bridge
  | .input i => step E s i
  | .restart config signature monotonic =>
    match init E config signature monotonic s.registry s.journal with
    | .ok t => t
    | .error _ => s

/-- The settings write the discovery prefix without white space at its ends. -/
def StripsPrefix (config : Config) : Prop :=
  ∀ p, Topics.cleanSegment config.mqttDiscoveryPrefix = .ok p → strip p = p

/-- The event may leave a live topic out of the registry. -/
def Loses (s : Bridge) : Event → Prop
  | .input i => s.Orphans i
  | .restart config _ _ =>
    config.discoveryRegistryPath ≠ s.config.discoveryRegistryPath ∨ ¬ StripsPrefix config

section Runs
variable {E : Env} {config : Config} {signature : Option (Int × Nat)} {monotonic : Nat}
  {registry : RegistryFile} {journal : Journal} {s₀ s : Bridge}

/-- A start keeps what the registry lists. -/
theorem init_keeps (hio : ∀ n, E.ioFaults n = {})
    (h : init E config signature monotonic registry journal = .ok s) (hread : registry.Readable)
    (hcovered : ∀ topic, Topics.IsDiscovery topic → Shows journal.outputs topic →
      topic ∈ registry.topics config.discoveryRegistryPath) : s.Covers := by
  obtain ⟨_, _, h⟩ := bind_ok h
  split at h
  next created file heq =>
    have hfile : file.Readable ∧ ∀ t ∈ registry.topics config.discoveryRegistryPath,
        t ∈ file.topics config.discoveryRegistryPath := by
      split at heq
      · rw [hio, Prod.mk.injEq] at heq
        rw [← heq.2]
        cases registry with
        | absent => exact ⟨RegistryFile.noConfusion, fun t ht => absurd ht List.not_mem_nil⟩
        | undecodable => exact absurd rfl hread
        | _ => exact ⟨RegistryFile.noConfusion, fun _ ht => ht⟩
      · rw [Prod.mk.injEq] at heq
        rw [← heq.2]
        exact ⟨hread, fun _ ht => ht⟩
    rw [← Except.ok.inj h]
    exact ⟨hfile.1, fun topic hlive => hfile.2 _ (hcovered topic hlive.1 hlive.2)⟩

/-- Every event that loses no topic keeps the registry covering. -/
theorem live_keeps (hio : ∀ n, E.ioFaults n = {})
    (h : Sound s ∧ s.PrefixStripped ∧ s.Covers) {e : Event} (he : ¬ s.Loses e) :
    Sound (live E s e) ∧ (live E s e).PrefixStripped ∧ (live E s e).Covers := by
  obtain ⟨hs, hstrips, hkeeps⟩ := h
  cases e with
  | input i =>
    refine ⟨step_sound hs i, ?_, step_keeps hio hs hstrips hkeeps he⟩
    rw [live, PrefixStripped, discovery_of_path (step_path (E := E) hs i)]
    exact hstrips
  | restart config signature monotonic =>
    rw [Loses, not_or, not_not, not_not] at he
    rw [live]
    cases hinit : init E config signature monotonic s.registry s.journal with
    | error e => exact ⟨hs, hstrips, hkeeps⟩
    | ok t =>
      refine ⟨init_sound hinit, ?_, init_keeps hio hinit hkeeps.readable fun topic hd hshows => ?_⟩
      · obtain ⟨_, _, rfl⟩ := init_ok hinit
        exact he.2
      · rw [he.1]
        exact hkeeps.covered topic ⟨hd, hshows⟩

/-- In every run over several starts in which no event loses a topic, the registry can be
loaded, and it lists every topic that the broker keeps a config of. -/
theorem registry_covers (hio : ∀ n, E.ioFaults n = {})
    (h₀ : init E config signature monotonic registry = .ok s₀) (hread : registry.Readable)
    (hstrips : StripsPrefix config)
    (hr : Run.Reaches (live E) (fun s e => ¬ s.Loses e) s₀ s) :
    ∃ listed, (s.registry.load s.config.discoveryRegistryPath {}).1 = .ok listed ∧
      ∀ topic, s.Live topic → topic ∈ listed := by
  have hstart : Sound s₀ ∧ s₀.PrefixStripped ∧ s₀.Covers := by
    refine ⟨init_sound h₀, ?_, init_keeps hio h₀ hread fun topic _ hshows => ?_⟩
    · obtain ⟨_, _, rfl⟩ := init_ok h₀
      exact hstrips
    · obtain ⟨payload, hretained, _⟩ := hshows
      cases hretained
  have hend := hr.invariant (I := fun u => Sound u ∧ u.PrefixStripped ∧ u.Covers) hstart
    fun u e hu he => live_keeps hio hu he
  exact ⟨_, (RegistryFile.load_ok hend.2.2.readable).1, hend.2.2.covered⟩

end Runs

/-! ## A lamp over two starts -/

/-- All messages of the bridge can be generated. -/
def generates (s : Bridge) : Bool :=
  ((s.devices.keys ++ s.state.devices.keys).all fun k =>
    (s.discovery.discoveryMessages (s.deviceAt k) s.mochadDiagnostics).toOption.isSome) &&
  (s.discovery.bridgeDiagnosticMessages s.mochadDiagnostics).toOption.isSome

theorem generable_of_generates {s : Bridge} (h : s.generates = true) : s.Generable := by
  have hsome : ∀ {r : Except PyError (List DiscoveryMessage)}, r.toOption.isSome = true →
      ∃ ms, r = .ok ms := by
    intro r hr
    cases r with
    | ok ms => exact ⟨ms, rfl⟩
    | error e => exact Bool.noConfusion hr
  rw [generates, Bool.and_eq_true] at h
  exact ⟨fun a ha => hsome (List.all_eq_true.mp h.1 a (List.mem_append.mpr ha)), hsome h.2⟩

theorem stripsPrefix_watched (raw : String) : StripsPrefix (.watched raw) := by
  intro p hp
  have hclean : Topics.cleanSegment "homeassistant" = .ok "homeassistant" :=
    Topics.cleanSegment_fixed _ (by simp)
  obtain rfl := Except.ok.inj (hclean.symm.trans hp)
  decide

/-- A topic of the lamp that shows a config. -/
theorem live_of_lampShown {s : Bridge} (h : lampShown s.journal.outputs = true) :
    ∃ topic ∈ lampTopics, s.Live topic := by
  obtain ⟨topic, hmem, hshown⟩ := List.any_eq_true.mp h
  refine ⟨topic, hmem, ?_, ?_⟩
  · simp only [lampTopics, List.mem_cons, List.not_mem_nil, or_false] at hmem
    unfold Topics.IsDiscovery
    rcases hmem with rfl | rfl | rfl <;> decide
  · cases hretained : retained s.journal.outputs topic with
    | none =>
      rw [hretained] at hshown
      exact absurd hshown Bool.noConfusion
    | some payload =>
      rw [hretained] at hshown
      cases payload with
      | obj fields => exact ⟨_, hretained, fields, rfl⟩
      | _ => exact absurd hshown Bool.noConfusion

/-- A connection, and a second start. -/
def lampStarts : List Event :=
  [.input (1, .mqttConnected), .restart (.watched "A1:Lamp") none 0]

theorem registry_covers_lamp : ∃ s₀, lampBridge = .ok s₀ ∧ ∃ listed,
    ((Run.exec (live {}) s₀ lampStarts).registry.load
      (Run.exec (live {}) s₀ lampStarts).config.discoveryRegistryPath {}).1 = .ok listed ∧
    ∃ topic ∈ lampTopics, topic ∈ listed := by
  have hrun : lampBridge.map (fun s₀ => (s₀.generates,
      decide ((step {} s₀ (1, .mqttConnected)).config.discoveryRegistryPath =
        (Config.watched "A1:Lamp").discoveryRegistryPath),
      lampShown (Run.exec (live {}) s₀ lampStarts).journal.outputs)) = .ok (true, true, true) := by
    decide +kernel
  obtain ⟨s₀, h₀, hrun⟩ := map_ok hrun
  simp only [Prod.mk.injEq, decide_eq_true_eq] at hrun
  obtain ⟨hgenerates, hpath, hshown⟩ := hrun
  have hconnect : ¬ s₀.Loses (.input (1, .mqttConnected)) := by
    rintro (⟨_, hnot⟩ | ⟨hne, _⟩ | ⟨hcommand, _⟩ | ⟨_, _, _, hline, _⟩)
    · exact hnot (generable_of_generates hgenerates)
    · exact hne rfl
    · cases hcommand
    · cases hline
  have hrestart : ¬ (step {} s₀ (1, .mqttConnected)).Loses
      (.restart (.watched "A1:Lamp") none 0) := by
    rintro (hne | hnot)
    · exact hne hpath.symm
    · exact hnot (stripsPrefix_watched _)
  have hmeets : Run.Meets (live {}) (fun s e => ¬ s.Loses e) s₀ lampStarts :=
    ⟨hconnect, hrestart, trivial⟩
  obtain ⟨listed, hload, hlisted⟩ := registry_covers (fun _ => rfl) h₀ RegistryFile.noConfusion
    (stripsPrefix_watched _) (Run.reaches_exec hmeets)
  obtain ⟨topic, hmem, hlive⟩ := live_of_lampShown hshown
  exact ⟨s₀, h₀, listed, hload, topic, hmem, hlisted topic hlive⟩

end Bridge

end MochadBridge
