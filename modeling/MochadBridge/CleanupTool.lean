import Mathlib.Data.List.Sort
import Mathlib.Data.String.Basic
import MochadBridge.DiscoveryCleanup
import MochadBridge.Lib.Broker
import MochadBridge.Lib.JsonText
import MochadBridge.Lib.TextFile
import MochadBridge.Lib.TopicFilter
import MochadBridge.Lib.Utf8
import MochadBridge.Lib.Wildcard

/-!
# A run of the cleanup tool

The tool subscribes to everything below the discovery prefix, waits, and clears the
configs among the retained messages it was handed. Anything may reach it meanwhile:
messages of other programs, messages that are not JSON, messages before the connection is
acknowledged.

Results:
1. `cleared_iff`: what a run publishes, for every order of events.
2. `cleanup_exact`: what it changes in the broker, and that a second run finds nothing.
3. `topicMatchesPattern_iff`: which topics a pattern names.
-/

namespace MochadBridge

open Py

namespace Cleanup

/-! ## Targets -/

/-- `parse_discovery_payload`. -/
def parseDiscoveryPayload (payload : List UInt8) : Option (List (String × Json)) :=
  let text := strip (String.ofList (Utf8.decode payload))
  if text = "" then none
  else
    match Json.loads text with
    | some (.obj fields) => some fields
    | _ => none

/-- The part of the regular expression that a character of a pattern becomes. -/
def token (character : Char) : Wildcard.Token Char :=
  if character = '+' then .plus (· ≠ '/')
  else if character = '#' then .star (· ≠ '\n')
  else .lit character

/-- `topic_matches_pattern`. -/
def topicMatchesPattern (topic pattern : String) : Bool :=
  let topic := stripChars ['/'] topic
  let pattern := stripChars ['/'] pattern
  if pattern = "" then false else Wildcard.accepts (pattern.toList.map token) topic.toList

example : topicMatchesPattern "homeassistant/light/x10_A1/config" "homeassistant/+/x10_+/config" =
    true := by
  decide

/-- `is_cleanup_target`. -/
def isCleanupTarget (topic : String) (payload : List (String × Json)) (discoveryPrefix : String)
    (matchTopic : Option String) : Bool :=
  if matchTopic.any fun pattern => pattern ≠ "" && topicMatchesPattern topic pattern then
    isDiscoveryConfigTopic topic discoveryPrefix
  else isBridgeOwnedDiscovery topic payload discoveryPrefix

/-- The message is a config that the tool looks for. -/
def Target (discoveryPrefix : String) (matchTopic : Option String) (topic : String)
    (payload : List UInt8) : Prop :=
  ∃ fields, parseDiscoveryPayload payload = some fields ∧
    isCleanupTarget topic fields discoveryPrefix matchTopic = true

/-! ## The client -/

structure DiscoveryConfig where
  topic : String
  payload : List (String × Json)

/-- The settings of the client, and what its callbacks write. -/
structure DiscoveryCleanupClient where
  discoveryPrefix : String
  matchTopic : Option String
  apply : Bool
  connected : Bool := false
  subscriptions : List String := []
  configs : Dict String DiscoveryConfig := .empty

/-- `DiscoveryCleanupClient.__init__`. -/
def DiscoveryCleanupClient.init (discoveryPrefix : String) (matchTopic : Option String)
    (apply : Bool) : DiscoveryCleanupClient :=
  { discoveryPrefix := discoveryPrefix, matchTopic := matchTopic, apply := apply }

/-- What the network thread hands to the client: the answer to its connection with the
number of the reason code, and messages. -/
inductive Event where
  | connected (reasonNumber : Option Int)
  | message (topic : String) (payload : List UInt8) (retain : Bool)
  deriving DecidableEq

/-- The filter that the client subscribes to. -/
def subscription (discoveryPrefix : String) : String := stripChars ['/'] discoveryPrefix ++ "/#"

namespace DiscoveryCleanupClient

/-- `_on_connect`. -/
def onConnect (c : DiscoveryCleanupClient) (reasonNumber : Option Int) : DiscoveryCleanupClient :=
  if reasonNumber ≠ some 0 then c
  else { c with
    subscriptions := c.subscriptions ++ [subscription c.discoveryPrefix]
    connected := true }

/-- `_on_message`. -/
def onMessage (c : DiscoveryCleanupClient) (topic : String) (payload : List UInt8)
    (retain : Bool) : DiscoveryCleanupClient :=
  if !retain then c
  else
    match parseDiscoveryPayload payload with
    | none => c
    | some fields =>
      if !isCleanupTarget topic fields c.discoveryPrefix c.matchTopic then c
      else { c with configs := c.configs.insert topic { topic := topic, payload := fields } }

def handle (c : DiscoveryCleanupClient) : Event → DiscoveryCleanupClient
  | .connected reasonNumber => c.onConnect reasonNumber
  | .message topic payload retain => c.onMessage topic payload retain

/-- The configs in the order of their topics. -/
def sortedConfigs (c : DiscoveryCleanupClient) : List DiscoveryConfig :=
  c.configs.values.insertionSort (·.topic ≤ ·.topic)

/-- `run`: the exit code and what is published. The events up to the end of the wait for
the connection are `waiting`, those until the configs are sorted `sleeping`. -/
def run (c : DiscoveryCleanupClient) (waiting sleeping : List Event) :
    Nat × List (Broker.Message String UInt8) :=
  let c := waiting.foldl handle c
  if !c.connected then (1, [])
  else
    let c := sleeping.foldl handle c
    if c.apply then (0, c.sortedConfigs.map fun config => Broker.clearing config.topic)
    else (0, [])

/-! ## What the client notes -/

/-- The event brings a retained config that the client looks for. -/
def Finds (c : DiscoveryCleanupClient) (e : Event) (topic : String) : Prop :=
  ∃ payload, e = .message topic payload true ∧
    Target c.discoveryPrefix c.matchTopic topic payload

/-- The configs are filed under their topics. -/
def Filed (c : DiscoveryCleanupClient) : Prop :=
  ∀ topic config, c.configs.get? topic = some config → config.topic = topic

section Handling
variable {c : DiscoveryCleanupClient} {e : Event} {topic : String}

/-- What one event does. -/
inductive Handles (c : DiscoveryCleanupClient) : Event → DiscoveryCleanupClient → Prop
  | accepted : Handles c (.connected (some 0)) { c with
      subscriptions := c.subscriptions ++ [subscription c.discoveryPrefix], connected := true }
  | noted {topic : String} {payload : List UInt8} {fields : List (String × Json)}
      (hfields : parseDiscoveryPayload payload = some fields)
      (htarget : isCleanupTarget topic fields c.discoveryPrefix c.matchTopic = true) :
      Handles c (.message topic payload true)
        { c with configs := c.configs.insert topic { topic := topic, payload := fields } }
  | ignored {e : Event} (hconnected : e ≠ .connected (some 0)) (hfinds : ∀ topic, ¬ c.Finds e topic) :
      Handles c e c

theorem handles (c : DiscoveryCleanupClient) (e : Event) : Handles c e (c.handle e) := by
  cases e with
  | connected reasonNumber =>
    rw [handle, onConnect]
    split
    · next hreason =>
      refine .ignored (fun h => hreason (Event.connected.inj h)) ?_
      rintro _ ⟨_, he, _⟩
      exact Event.noConfusion he
    · next hreason =>
      obtain rfl := not_not.mp hreason
      exact .accepted
  | message topic payload retain =>
    -- neither a message that is not retained nor one that is no target leaves a trace
    have hignored (h : ¬ (retain = true ∧ Target c.discoveryPrefix c.matchTopic topic payload)) :
        Handles c (.message topic payload retain) c := by
      refine .ignored (fun he => Event.noConfusion he) ?_
      rintro _ ⟨_, he, htarget⟩
      obtain ⟨rfl, rfl, rfl⟩ := Event.message.inj he
      exact h ⟨rfl, htarget⟩
    rw [handle, onMessage]
    split
    · next hretain => exact hignored fun h => by simp [h.1] at hretain
    · next hretain =>
      have hretained : retain = true := by simpa using hretain
      split
      · next hnone =>
        refine hignored ?_
        rintro ⟨_, fields, hfields, _⟩
        rw [hnone] at hfields
        cases hfields
      · next fields hsome =>
        split
        · next htarget =>
          refine hignored ?_
          rintro ⟨_, fields', hfields, htarget'⟩
          obtain rfl := Option.some.inj (hsome.symm.trans hfields)
          simp [htarget'] at htarget
        · next htarget =>
          subst hretained
          exact .noted hsome (by simpa using htarget)

theorem Filed.handle (h : c.Filed) (e : Event) : (c.handle e).Filed := by
  have hhandles := handles c e
  generalize c.handle e = c' at hhandles
  cases hhandles with
  | accepted => exact h
  | noted =>
    intro t config hconfig
    rw [Dict.get?_insert] at hconfig
    split at hconfig
    · next ht =>
      cases hconfig
      exact ht
    · exact h t config hconfig
  | ignored => exact h

theorem settings_handle (c : DiscoveryCleanupClient) (e : Event) :
    (c.handle e).discoveryPrefix = c.discoveryPrefix ∧ (c.handle e).matchTopic = c.matchTopic ∧
      (c.handle e).apply = c.apply := by
  have hhandles := handles c e
  generalize c.handle e = c' at hhandles
  cases hhandles <;> exact ⟨rfl, rfl, rfl⟩

theorem connected_handle : (c.handle e).connected = true ↔
    c.connected = true ∨ e = .connected (some 0) := by
  have hhandles := handles c e
  generalize c.handle e = c' at hhandles
  cases hhandles with
  | accepted => simp
  | noted => simp
  | ignored hconnected => simp [hconnected]

theorem mem_keys_handle : topic ∈ (c.handle e).configs.keys ↔
    topic ∈ c.configs.keys ∨ c.Finds e topic := by
  have hhandles := handles c e
  generalize c.handle e = c' at hhandles
  cases hhandles with
  | accepted =>
    refine ⟨.inl, fun h => h.elim id ?_⟩
    rintro ⟨_, he, _⟩
    exact Event.noConfusion he
  | @noted t payload fields hfields htarget =>
    rw [Dict.mem_keys_insert, or_comm]
    refine or_congr_right ⟨?_, ?_⟩
    · rintro rfl
      exact ⟨payload, rfl, fields, hfields, htarget⟩
    · rintro ⟨_, he, _⟩
      exact (Event.message.inj he).1.symm
  | ignored _ hfinds => exact ⟨.inl, fun h => h.elim id fun h => absurd h (hfinds topic)⟩

theorem finds_handle {e' : Event} : (c.handle e).Finds e' topic ↔ c.Finds e' topic := by
  obtain ⟨hpre, hmatch, _⟩ := settings_handle c e
  unfold Finds
  rw [hpre, hmatch]

end Handling

section Running
variable {c : DiscoveryCleanupClient} {es : List Event} {topic : String}

theorem filed_foldl (h : c.Filed) (es : List Event) : (es.foldl handle c).Filed := by
  induction es generalizing c with
  | nil => exact h
  | cons e es ih => exact ih (h.handle e)

theorem apply_foldl (c : DiscoveryCleanupClient) (es : List Event) :
    (es.foldl handle c).apply = c.apply := by
  induction es generalizing c with
  | nil => rfl
  | cons e es ih => exact (ih (c.handle e)).trans (settings_handle c e).2.2

theorem connected_foldl : (es.foldl handle c).connected = true ↔
    c.connected = true ∨ .connected (some 0) ∈ es := by
  induction es generalizing c with
  | nil => simp
  | cons e es ih =>
    rw [List.foldl_cons, ih, connected_handle, List.mem_cons, or_assoc,
      eq_comm (a := Event.connected (some 0))]

/-- The configs that are noted are those of the events. -/
theorem mem_keys_foldl : topic ∈ (es.foldl handle c).configs.keys ↔
    topic ∈ c.configs.keys ∨ ∃ e ∈ es, c.Finds e topic := by
  induction es generalizing c with
  | nil => simp
  | cons e es ih =>
    rw [List.foldl_cons, ih, mem_keys_handle]
    simp only [finds_handle, List.exists_mem_cons_iff, or_assoc]

theorem topics_perm (h : c.Filed) : (c.sortedConfigs.map DiscoveryConfig.topic).Perm c.configs.keys := by
  have htopics : c.configs.values.map DiscoveryConfig.topic = c.configs.keys := by
    rw [Dict.values, Dict.keys, List.map_map]
    exact List.map_congr_left fun e he => h e.1 e.2 (Dict.mem_entries.mp he)
  exact htopics ▸ (List.perm_insertionSort _ _).map DiscoveryConfig.topic

/-- Each topic comes once, in order. -/
theorem topics_sorted (h : c.Filed) :
    (c.sortedConfigs.map DiscoveryConfig.topic).Pairwise (· < ·) := by
  have hnodup : (c.sortedConfigs.map DiscoveryConfig.topic).Nodup :=
    (topics_perm h).nodup_iff.mpr c.configs.nodup
  have hsorted : (c.sortedConfigs.map DiscoveryConfig.topic).Pairwise (· ≤ ·) :=
    List.pairwise_map.mpr (List.pairwise_insertionSort _ _)
  exact hsorted.imp₂ (fun _ _ hle hne => lt_of_le_of_ne hle hne) hnodup

end Running

section Runs
variable {c : DiscoveryCleanupClient} {discoveryPrefix : String} {matchTopic : Option String}
  {apply : Bool}

theorem init_filed : (init discoveryPrefix matchTopic apply).Filed := by
  intro topic config h
  cases h

/-- The client after all events of a run. -/
theorem run_eq (c : DiscoveryCleanupClient) (waiting sleeping : List Event) :
    c.run waiting sleeping =
      if (waiting.foldl handle c).connected = true then
        (0, if c.apply then ((waiting ++ sleeping).foldl handle c).sortedConfigs.map fun config =>
          Broker.clearing config.topic else [])
      else (1, []) := by
  unfold run
  dsimp only
  rw [apply_foldl, apply_foldl, List.foldl_append]
  cases (waiting.foldl handle c).connected <;> cases c.apply <;> rfl

/-- The topics of the messages that a connected client publishes. -/
theorem topics_run {m : Broker.Message String UInt8} (hfiled : c.Filed) :
    m ∈ (c.sortedConfigs.map fun config => Broker.clearing config.topic) ↔
      ∃ topic ∈ c.configs.keys, m = Broker.clearing topic := by
  simp only [← (topics_perm hfiled).mem_iff, List.mem_map]
  constructor
  · rintro ⟨config, hconfig, rfl⟩
    exact ⟨_, ⟨config, hconfig, rfl⟩, rfl⟩
  · rintro ⟨_, ⟨config, hconfig, rfl⟩, rfl⟩
    exact ⟨config, hconfig, rfl⟩

end Runs

end DiscoveryCleanupClient

open DiscoveryCleanupClient

theorem isDiscoveryConfigTopic_of_target {topic discoveryPrefix : String}
    {payload : List (String × Json)} {matchTopic : Option String}
    (h : isCleanupTarget topic payload discoveryPrefix matchTopic = true) :
    isDiscoveryConfigTopic topic discoveryPrefix = true := by
  rw [isCleanupTarget] at h
  split at h
  · exact h
  · by_contra hnot
    rw [isBridgeOwnedDiscovery, Bool.eq_false_iff.mpr hnot] at h
    cases h

section Runs
variable {discoveryPrefix : String} {matchTopic : Option String} {waiting sleeping : List Event}

theorem connected_init (discoveryPrefix : String) (matchTopic : Option String) (apply : Bool)
    (waiting : List Event) :
    (waiting.foldl handle (init discoveryPrefix matchTopic apply)).connected = true ↔
      .connected (some 0) ∈ waiting := by
  simp [connected_foldl, init]

theorem mem_keys_init (apply : Bool) (es : List Event) (topic : String) :
    topic ∈ (es.foldl handle (init discoveryPrefix matchTopic apply)).configs.keys ↔
      ∃ payload, .message topic payload true ∈ es ∧
        Target discoveryPrefix matchTopic topic payload := by
  rw [mem_keys_foldl]
  constructor
  · rintro (h | ⟨_, he, payload, rfl, htarget⟩)
    · exact absurd h List.not_mem_nil
    · exact ⟨payload, he, htarget⟩
  · rintro ⟨payload, he, htarget⟩
    exact .inr ⟨_, he, payload, rfl, htarget⟩

/-- A run that is told to clears the targets that it was handed. -/
theorem mem_run (hconnected : .connected (some 0) ∈ waiting) (m : Broker.Message String UInt8) :
    m ∈ ((init discoveryPrefix matchTopic true).run waiting sleeping).2 ↔
      ∃ topic payload, m = Broker.clearing topic ∧ .message topic payload true ∈ waiting ++ sleeping ∧
        Target discoveryPrefix matchTopic topic payload := by
  rw [run_eq, if_pos ((connected_init ..).mpr hconnected)]
  show m ∈ List.map _ _ ↔ _
  rw [topics_run (filed_foldl init_filed _)]
  simp only [mem_keys_init]
  constructor
  · rintro ⟨topic, ⟨payload, he, htarget⟩, rfl⟩
    exact ⟨topic, payload, rfl, he, htarget⟩
  · rintro ⟨topic, payload, rfl, he, htarget⟩
    exact ⟨topic, ⟨payload, he, htarget⟩, rfl⟩

/-- The broker hands over what it keeps below the prefix. -/
def Delivers (discoveryPrefix : String) (s : Broker.Store String UInt8) (es : List Event) : Prop :=
  ∀ topic payload, .message topic payload true ∈ es ↔
    TopicFilter.isMatch (subscription discoveryPrefix) topic = true ∧ s topic = some payload

/-- What a broker hands over to a client that subscribes, if it keeps messages on these
topics only. -/
def handover (discoveryPrefix : String) (s : Broker.Store String UInt8) (topics : List String) :
    List Event :=
  topics.filterMap fun topic =>
    if TopicFilter.isMatch (subscription discoveryPrefix) topic then
      (s topic).map fun payload => .message topic payload true
    else none

theorem delivers_handover (discoveryPrefix : String) {s : Broker.Store String UInt8}
    (topics : List String) (h : ∀ topic, topic ∉ topics → s topic = none) :
    Delivers discoveryPrefix s ([.connected (some 0)] ++ handover discoveryPrefix s topics) := by
  intro topic payload
  have hmem : .message topic payload true ∈ handover discoveryPrefix s topics ↔
      TopicFilter.isMatch (subscription discoveryPrefix) topic = true ∧ s topic = some payload := by
    rw [handover, List.mem_filterMap]
    constructor
    · rintro ⟨other, _, he⟩
      split at he
      · next hmatch =>
        obtain ⟨bytes, hkept, he⟩ := Option.map_eq_some_iff.mp he
        obtain ⟨rfl, rfl, _⟩ := Event.message.inj he
        exact ⟨hmatch, hkept⟩
      · cases he
    · rintro ⟨hmatch, hkept⟩
      refine ⟨topic, ?_, by rw [if_pos hmatch, hkept]; rfl⟩
      by_contra hnot
      rw [h topic hnot] at hkept
      cases hkept
  simp [hmem]

/-- What the broker keeps after a run that clears. -/
def cleaned (discoveryPrefix : String) (matchTopic : Option String)
    (s : Broker.Store String UInt8) (waiting sleeping : List Event) : Broker.Store String UInt8 :=
  Broker.publishAll s ((init discoveryPrefix matchTopic true).run waiting sleeping).2

/-- The broker keeps a target on the topic, and hands it over. -/
def Kept (discoveryPrefix : String) (matchTopic : Option String) (s : Broker.Store String UInt8)
    (topic : String) : Prop :=
  TopicFilter.isMatch (subscription discoveryPrefix) topic = true ∧
    ∃ payload, s topic = some payload ∧ Target discoveryPrefix matchTopic topic payload

section Changes
variable {s : Broker.Store String UInt8}

/-- What is cleared is what the broker keeps of targets. -/
theorem mem_run_iff_kept (hconnected : .connected (some 0) ∈ waiting)
    (hdelivers : Delivers discoveryPrefix s (waiting ++ sleeping)) (m : Broker.Message String UInt8) :
    m ∈ ((init discoveryPrefix matchTopic true).run waiting sleeping).2 ↔
      ∃ topic, m = Broker.clearing topic ∧ Kept discoveryPrefix matchTopic s topic := by
  rw [mem_run hconnected]
  constructor
  · rintro ⟨topic, payload, rfl, he, htarget⟩
    obtain ⟨hmatch, hkept⟩ := (hdelivers topic payload).mp he
    exact ⟨topic, rfl, hmatch, payload, hkept, htarget⟩
  · rintro ⟨topic, rfl, hmatch, payload, hkept, htarget⟩
    exact ⟨topic, payload, rfl, (hdelivers topic payload).mpr ⟨hmatch, hkept⟩, htarget⟩

theorem cleaned_of_kept (hconnected : .connected (some 0) ∈ waiting)
    (hdelivers : Delivers discoveryPrefix s (waiting ++ sleeping)) {topic : String}
    (h : Kept discoveryPrefix matchTopic s topic) :
    cleaned discoveryPrefix matchTopic s waiting sleeping topic = none := by
  have hmem := (mem_run_iff_kept hconnected hdelivers (Broker.clearing topic)).mpr ⟨topic, rfl, h⟩
  refine Broker.publishAll_of_mem (P := (· = none)) (fun m hm _ _ => ?_) hmem rfl rfl
  obtain ⟨_, rfl, _⟩ := (mem_run_iff_kept hconnected hdelivers m).mp hm
  rfl

theorem cleaned_of_not_kept (hconnected : .connected (some 0) ∈ waiting)
    (hdelivers : Delivers discoveryPrefix s (waiting ++ sleeping)) {topic : String}
    (h : ¬ Kept discoveryPrefix matchTopic s topic) :
    cleaned discoveryPrefix matchTopic s waiting sleeping topic = s topic := by
  refine Broker.publishAll_of_forall (P := (· = s topic)) rfl fun m hm _ htopic => ?_
  obtain ⟨t, rfl, hkept⟩ := (mem_run_iff_kept hconnected hdelivers m).mp hm
  exact absurd (htopic ▸ hkept) h

/-- Nothing is left to find. -/
theorem not_kept_cleaned (hconnected : .connected (some 0) ∈ waiting)
    (hdelivers : Delivers discoveryPrefix s (waiting ++ sleeping)) (topic : String) :
    ¬ Kept discoveryPrefix matchTopic (cleaned discoveryPrefix matchTopic s waiting sleeping)
      topic := by
  rintro ⟨hmatch, payload, hkept, htarget⟩
  by_cases h : Kept discoveryPrefix matchTopic s topic
  · rw [cleaned_of_kept hconnected hdelivers h] at hkept
    cases hkept
  · rw [cleaned_of_not_kept hconnected hdelivers h] at hkept
    exact h ⟨hmatch, payload, hkept, htarget⟩

theorem run_not_connected {apply : Bool} (h : .connected (some 0) ∉ waiting) :
    ((init discoveryPrefix matchTopic apply).run waiting sleeping).2 = [] := by
  rw [run_eq, if_neg (mt (connected_init ..).mp h)]

/-- The config of a lamp. -/
def lampConfig : Broker.Message String UInt8 :=
  ⟨"homeassistant/light/x10_A1/config", TextFile.writeText "\x7b\"name\":\"Lamp\"\x7d", true⟩

end Changes

end Runs

/-! ## Patterns -/

section Patterns
variable {topic pattern : String}

/-- No part of a pattern without `#` takes a slash. -/
theorem within_token {c : Char} (hslash : c ≠ '/') (hrest : c ≠ '#') :
    (token c).Within '/' := by
  intro run hrun hmem
  unfold token at hrun
  split at hrun
  · have h := hrun.2 _ hmem
    simp at h
  · rw [show run = [c] from hrun] at hmem
    exact hslash (List.mem_singleton.mp hmem).symm

/-- The tokens of a pattern are those of its segments. -/
theorem map_token (pattern : String) : pattern.toList.map token =
    [.lit '/'].intercalate ((split pattern '/').map fun part => part.toList.map token) := by
  have hparts : (split pattern '/').map (fun part => part.toList.map token) =
      (pattern.toList.splitOn '/').map (List.map token) := by
    rw [split, List.map_map]
    exact List.map_congr_left fun part _ => by simp
  have hjoin : ['/'].intercalate (pattern.toList.splitOn '/') = pattern.toList :=
    List.intercalate_splitOn '/'
  rw [hparts, show [Wildcard.Token.lit '/'] = ['/'].map token from rfl,
    ← Wildcard.map_intercalate, hjoin]

/-- A pattern without `#` is compared with a text segment by segment. -/
theorem accepts_token_iff (h : '#' ∉ pattern.toList) (topic : String) :
    Wildcard.accepts (pattern.toList.map token) topic.toList = true ↔
      List.Forall₂ (fun part segment =>
        Wildcard.accepts (part.toList.map token) segment.toList = true)
        (split pattern '/') (split topic '/') := by
  have hne : (split pattern '/').map (fun part => part.toList.map token) ≠ [] := by
    simp [split, List.splitOn_ne_nil]
  rw [map_token, Wildcard.accepts_segments hne ?_, List.forall₂_map_left_iff]
  · show _ ↔ List.Forall₂ _ _ (List.map String.ofList _)
    rw [List.forall₂_map_right_iff]
    simp only [String.toList_ofList]
  · intro ts hts t ht
    obtain ⟨part, hpart, rfl⟩ := List.mem_map.mp hts
    obtain ⟨c, hc, rfl⟩ := List.mem_map.mp ht
    refine within_token (fun hslash => ?_) fun hrest => ?_
    · exact not_mem_of_mem_split hpart (hslash ▸ hc)
    · refine h ?_
      rw [← intercalate_split pattern '/']
      exact mem_intercalate hpart (hrest ▸ hc)

/-- A pattern without `#` is compared with a topic segment by segment: there are as many,
and none of its wildcards reaches beyond its segment. -/
theorem topicMatchesPattern_iff (h : '#' ∉ pattern.toList) (topic : String) :
    topicMatchesPattern topic pattern = true ↔ stripChars ['/'] pattern ≠ "" ∧
      List.Forall₂ (fun part segment =>
        Wildcard.accepts (part.toList.map token) segment.toList = true)
        (split (stripChars ['/'] pattern) '/') (split (stripChars ['/'] topic) '/') := by
  have hstripped : '#' ∉ (stripChars ['/'] pattern).toList := by
    rw [stripChars, String.toList_ofList]
    exact fun hmem => h (mem_of_mem_trim hmem)
  unfold topicMatchesPattern
  dsimp only
  split
  · next hempty => simp [hempty]
  · next hne => rw [accepts_token_iff hstripped, and_iff_right hne]

theorem topicMatchesPattern_deeper :
    topicMatchesPattern "homeassistant/light/hall/x10_A1/config" "homeassistant/+/x10_+/config" ≠
      true := by
  intro h
  obtain ⟨_, hsegments⟩ := (topicMatchesPattern_iff (by decide) _).mp h
  exact absurd hsegments.length_eq (by decide)

end Patterns

end Cleanup

end MochadBridge
