import MochadBridge.CleanupTool
import MochadBridge.MqttPayloads

/-!
# The cleanup tool after a run of the bridge

What the bridge announced stays at the broker when the bridge is gone, and so do configs of
devices that its configuration and its registry have lost. The tool is to find them with
nothing but the messages that the broker hands over.

Results:
1. `published_exec`: what a run publishes on discovery topics.
2. `target_of_publishes`: the tool looks for every config of the bridge.
3. `discovery_cleared`: after the tool, the broker keeps none of what a run announced.
-/

namespace MochadBridge

open Py

/-! ## Messages -/

/-- The message that a broker gets. -/
def Output.sent : Output → Option (Broker.Message String UInt8)
  | .publish topic payload retain => some ⟨topic, wire payload, retain⟩
  | _ => none

/-- The messages that a broker gets, in their order. -/
def sentMessages (outputs : List Output) : List (Broker.Message String UInt8) :=
  outputs.filterMap Output.sent

/-- What a broker keeps after the run that led to the state. -/
def keptAfter (before : Broker.Store String UInt8) (s : Bridge) : Broker.Store String UInt8 :=
  Broker.publishAll before (sentMessages s.journal.outputs)

theorem mem_sentMessages {outputs : List Output} {m : Broker.Message String UInt8} :
    m ∈ sentMessages outputs ↔ ∃ topic payload retain,
      .publish topic payload retain ∈ outputs ∧ m = ⟨topic, wire payload, retain⟩ := by
  rw [sentMessages, List.mem_filterMap]
  constructor
  · rintro ⟨o, ho, hm⟩
    cases o with
    | publish topic payload retain =>
      exact ⟨topic, payload, retain, ho, (Option.some.inj hm).symm⟩
    | session | line => cases hm
  · rintro ⟨topic, payload, retain, ho, rfl⟩
    exact ⟨_, ho, rfl⟩

/-- An empty broker keeps nothing on the other topics. -/
theorem keptAfter_of_not_mem {s : Bridge} {topic : String}
    (h : topic ∉ (sentMessages s.journal.outputs).map Broker.Message.topic) :
    keptAfter (fun _ => none) s topic = none :=
  Broker.publishAll_of_forall (P := (· = none)) rfl fun _ hm _ hon =>
    absurd (List.mem_map.mpr ⟨_, hm, hon⟩) h

theorem wire_empty : wire (.str "") = [] := by
  simp [wire, serializePayload, TextFile.writeText]

namespace Cleanup

/-- An object of the bridge is an object to the tool. -/
theorem parse_wire {fields : List (String × Json)} (h : Json.WellFormed (.obj fields)) :
    ∃ sorted, parseDiscoveryPayload (wire (.obj fields)) = some sorted := by
  obtain ⟨sorted, hloads, _⟩ := loads_received h
  -- the text is in braces, so there is nothing to strip
  have hstrip : strip (received (.obj fields)) = received (.obj fields) := by
    rw [received_object h, Json.strip_dumpsSorted]
  have hne : received (.obj fields) ≠ "" := by
    have hempty : Json.loads "" = none := by decide +kernel
    intro h
    rw [h, hempty] at hloads
    cases hloads
  refine ⟨sorted, ?_⟩
  have htext : String.ofList (Utf8.decode (wire (.obj fields))) = received (.obj fields) := rfl
  simp only [parseDiscoveryPayload, htext, hstrip, if_neg hne, hloads]

/-! ## Recognition -/

section Recognition
variable {m : DiscoveryManager} {message : DiscoveryMessage} {p : String}

theorem retain_of_publishes (h : Publishes m message) : message.retain = true := by
  obtain ⟨diag, messages, hmem, ⟨device, hmessages⟩ | hmessages⟩ := h
  · obtain ⟨topic, fields, _, _, rfl⟩ := DiscoveryManager.discoveryMessages_one hmessages
    rw [List.mem_singleton.mp hmem]
  · obtain ⟨all, hall, hmessages⟩ := bind_ok hmessages
    obtain ⟨_, _, hmessages⟩ := bind_ok hmessages
    obtain rfl := Except.ok.inj hmessages
    obtain ⟨x, hx, hxm⟩ := exists_of_mapM_ok hall hmem
    obtain ⟨component, objectId, name, own, hentity, _⟩ := DiscoveryManager.mem_bridgeMessages hx
    rw [id, hentity, DiscoveryManager.bridgeMessage] at hxm
    obtain ⟨_, _, hxm⟩ := bind_ok hxm
    obtain ⟨_, _, hxm⟩ := bind_ok hxm
    obtain ⟨_, _, hxm⟩ := bind_ok hxm
    rw [← Except.ok.inj hxm]

theorem readable_of_publishes (h : Publishes m message) : Readable message.payload := by
  obtain ⟨diag, messages, hmem, ⟨device, hmessages⟩ | hmessages⟩ := h
  · exact DiscoveryManager.readable_device hmessages hmem
  · exact DiscoveryManager.readable_bridge hmessages hmem

/-- The tool looks for what the bridge publishes, with a pattern or without. -/
theorem target_of_publishes (hp : Topics.cleanSegment m.discoveryPrefix = .ok p)
    (hfits : FitsTool m.discoveryPrefix p) (h : Publishes m message) (matchTopic : Option String) :
    Target m.discoveryPrefix matchTopic message.topic (wire message.payload) := by
  obtain ⟨component, objectId, fields, htopic, hc, ho, howned, hfields⟩ := topic_of_publishes hp h
  have hwell : Json.WellFormed (.obj fields) := by
    have hreadable := readable_of_publishes h
    rw [hfields] at hreadable
    cases hreadable with
    | object hwell => exact hwell
  have hconfig := (isDiscoveryConfigTopic_iff hp hc ho).mpr hfits
  obtain ⟨sorted, hparse⟩ := parse_wire hwell
  rw [htopic, hfields]
  refine ⟨sorted, hparse, ?_⟩
  unfold isCleanupTarget
  split
  · exact hconfig
  · exact owned_of_objectId (hasOwnedObjectId hp hc ho howned hfits) sorted

/-- The tool subscribes to it. -/
theorem subscribed_of_publishes (hp : Topics.cleanSegment m.discoveryPrefix = .ok p)
    (hfits : FitsTool m.discoveryPrefix p) (h : Publishes m message) :
    TopicFilter.isMatch (subscription m.discoveryPrefix) message.topic = true := by
  obtain ⟨component, objectId, fields, htopic, hc, ho, _⟩ := topic_of_publishes hp h
  obtain ⟨_, _, hrest, hone⟩ := Topics.cleanSegment_ok hp
  have hfilter : split (subscription m.discoveryPrefix) '/' = [p, "#"] := by
    have hjoin : p ++ "/#" = "/".intercalate [p, "#"] := by
      rw [← String.toList_inj]
      simp
    have hsplit : split ("/".intercalate [p, "#"]) '/' = split p '/' ++ ["#"] := by
      refine split_intercalate p fun t ht => ?_
      rw [List.mem_singleton.mp ht]
      decide
    rw [subscription, hfits.2, hjoin, hsplit, split_eq_singleton hfits.1]
    rfl
  have htopics : split message.topic '/' = p :: [component, objectId, "config"] := by
    rw [htopic, split_configTopic p hc ho, split_eq_singleton hfits.1]
    rfl
  have hlevels : [p, "#"].map TopicFilter.level = [p].map TopicFilter.Level.text ++ [.rest] := by
    rw [List.map_cons, TopicFilter.level_of_plain ⟨hone, hrest⟩]
    rfl
  rw [TopicFilter.isMatch, hfilter, htopics, hlevels, TopicFilter.accepts_below]
  exact ⟨_, rfl⟩

end Recognition

end Cleanup

namespace Bridge

open Cleanup

/-! ## Runs -/

/-- A config of the discovery manager, or the empty text that takes one away. -/
def Announcement (m : DiscoveryManager) (topic : String) (payload : Json) : Prop :=
  payload = .str "" ∨ Publishes m { topic, payload }

/-- What the bridge has published on discovery topics is to be kept, and is of its own
discovery manager. -/
structure Published (m : DiscoveryManager) (s : Bridge) : Prop where
  sound : Sound s
  manager : s.discovery = m
  announced : ∀ topic payload retain, Topics.IsDiscovery topic →
    .publish topic payload retain ∈ s.journal.outputs → retain = true ∧ Announcement m topic payload

section Runs
variable {E : Env} {s : Bridge} {l : Label} {m : DiscoveryManager} {topic : String}
  {payload : Json} {retain : Bool}

theorem publishes_of_announces {message : DiscoveryMessage} (h : s.Announces message) :
    Publishes s.discovery message := by
  rcases h with ⟨_, d, ms, _, hms, hm⟩ | ⟨ms, hms, hm⟩
  · exact ⟨_, ms, hm, .inl ⟨d, hms⟩⟩
  · exact ⟨_, ms, hm, .inr hms⟩

theorem announcement_of_outputs (hg : l.guard E s) (htopic : Topics.IsDiscovery topic)
    (h : .publish topic payload retain ∈ l.outputs s) :
    retain = true ∧ Announcement s.discovery topic payload := by
  rcases publish_of_outputs h with rfl | ⟨a, rfl⟩ | ⟨a, c, rfl, _⟩ | ⟨message, rfl, rfl, rfl, rfl⟩ |
    ⟨_, rfl, rfl⟩
  -- what is published about the bridge and about devices has other topics
  · obtain ⟨suffix, hsuffix, hown⟩ := hg
    exact absurd hown (htopic.not_own hsuffix)
  · rcases hg.2 with hdevice | hdevice
    · exact absurd hdevice (htopic.not_device (by simp))
    · exact absurd hdevice (htopic.not_device (by simp))
  · exact absurd hg.2 (htopic.not_device (by simp))
  · have hpublishes := publishes_of_announces hg
    obtain ⟨topic, payload, retain⟩ := message
    obtain rfl : retain = true := retain_of_publishes hpublishes
    exact ⟨rfl, .inr hpublishes⟩
  · exact ⟨rfl, .inl rfl⟩

theorem Published.step (h : Published m s) (i : Timestamp × Input) : Published m (step E s i) := by
  have hboth := (step_path (E := E) h.sound i).invariant (I := fun u => u.discovery = m ∧
    ∀ topic payload retain, Topics.IsDiscovery topic →
      .publish topic payload retain ∈ u.journal.outputs →
        retain = true ∧ Announcement m topic payload)
    (fun l u _ hg hu => ⟨(apply_discovery l u).trans hu.1, fun topic payload retain htopic hm => ?_⟩)
    ⟨h.manager, h.announced⟩
  · exact ⟨step_sound h.sound i, hboth.1, hboth.2⟩
  · have hm' : .publish topic payload retain ∈ (l.apply u).journal.outputs := hm
    rw [outputs_apply, List.mem_append] at hm'
    rcases hm' with hm' | hm'
    · exact hu.2 topic payload retain htopic hm'
    · exact hu.1 ▸ announcement_of_outputs hg htopic hm'

section Start
variable {config : Config} {signature : Option (Int × Nat)} {monotonic : Nat}
  {registry : RegistryFile} {s₀ : Bridge}

theorem published_exec (h₀ : init E config signature monotonic registry = .ok s₀)
    (inputs : List (Timestamp × Input)) :
    Published s₀.discovery (Run.exec (Bridge.step E) s₀ inputs) := by
  have hstart : Published s₀.discovery s₀ := by
    refine ⟨init_sound h₀, rfl, fun topic payload retain _ hm => ?_⟩
    obtain ⟨_, file, rfl⟩ := init_ok h₀
    exact absurd hm List.not_mem_nil
  exact (Run.reaches_exec (Run.meets_true inputs)).invariant hstart fun _ i h _ => h.step i

/-- Every message on a discovery topic is to be kept, and what is kept of it is a target. -/
theorem Published.target (h : Published m s) {p : String}
    (hp : Topics.cleanSegment m.discoveryPrefix = .ok p) (hfits : FitsTool m.discoveryPrefix p)
    (matchTopic : Option String) {message : Broker.Message String UInt8}
    (hmem : message ∈ sentMessages s.journal.outputs) (htopic : Topics.IsDiscovery message.topic) :
    message.retain = true ∧ ∀ bytes, Broker.kept message.payload = some bytes →
      TopicFilter.isMatch (subscription m.discoveryPrefix) message.topic = true ∧
        Target m.discoveryPrefix matchTopic message.topic bytes := by
  obtain ⟨topic, payload, retain, hpublished, rfl⟩ := mem_sentMessages.mp hmem
  obtain ⟨hretain, rfl | hpublishes⟩ := h.announced topic payload retain htopic hpublished
  · refine ⟨hretain, fun bytes hkept => ?_⟩
    -- the broker keeps nothing of an empty message
    rw [wire_empty] at hkept
    cases hkept
  · have hmatch := subscribed_of_publishes hp hfits hpublishes
    have htarget := target_of_publishes hp hfits hpublishes matchTopic
    dsimp only at hmatch htarget
    refine ⟨hretain, fun bytes hkept => ⟨hmatch, ?_⟩⟩
    rw [← Broker.eq_of_kept hkept]
    exact htarget

end Start

end Runs

end Bridge

end MochadBridge
