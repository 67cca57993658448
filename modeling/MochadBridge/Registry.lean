import Mathlib.Data.List.Dedup
import Mathlib.Data.List.Sort
import Mathlib.Data.String.Basic
import MochadBridge.Models

/-!
# The discovery registry

The registry file lists the discovery topics that the bridge published and has
to clear one day. A set of topics is a list of which only membership and, for
`len`, the distinct elements count; `sorted` fixes an order before topics are
written or cleared.

Results:
1. `load_ok`: a load that does not fail returns the topics of the file, and
   leaves a file with the same topics.
2. `mem_topics_save`: a saved set comes back, each topic stripped and the blank
   ones dropped; a settled topic comes back as it is (`mem_topics_save_settled`).
-/

namespace MochadBridge

open Py

/-! ## Sets of topics -/

/-- `sorted(topics)` of a set. -/
def sortedSet (topics : List String) : List String := topics.dedup.insertionSort (· ≤ ·)

@[simp] theorem mem_sortedSet {topics : List String} {t : String} :
    t ∈ sortedSet topics ↔ t ∈ topics := by
  rw [sortedSet, List.mem_insertionSort, List.mem_dedup]

/-- `len(topics)` of a set. -/
def setLength (topics : List String) : Nat := topics.dedup.length

/-- `topics - other`. -/
def setDiff (topics other : List String) : List String := topics.filter (· ∉ other)

@[simp] theorem mem_setDiff {topics other : List String} {t : String} :
    t ∈ setDiff topics other ↔ t ∈ topics ∧ t ∉ other := by
  rw [setDiff, List.mem_filter, decide_eq_true_eq]

/-! ## The file -/

/-- What the registry path holds: nothing, bytes that are not UTF-8, a text that
is not JSON, or a JSON value. -/
inductive RegistryFile where
  | absent
  | undecodable
  | corrupt
  | holds (data : Json)
  deriving DecidableEq

/-- The failures of one visit to the file, with the text of the `OSError`. -/
structure IoFaults where
  read : Option String := none
  quarantine : Option String := none
  write : Option String := none
  deriving DecidableEq

namespace RegistryFile

def registryVersion : Int := 1

/-- `value == 1`: `True` and `1.0` compare equal to the version, too. -/
def isVersion : Json → Bool
  | .int n => n == registryVersion
  | .bool b => b
  | .float text => text == "1.0"
  | _ => false

/-- One entry of the topics list. -/
def parseTopic (path : String) (entry : Json) : Except PyError String :=
  match entry with
  | .obj fields =>
    match Json.field? fields "topic" with
    | some (.str topic) =>
      if strip topic = "" then
        .error (.registryError ("Discovery registry " ++ path ++ " topic values must be strings."))
      else .ok (strip topic)
    | _ => .error (.registryError ("Discovery registry " ++ path ++ " topic values must be strings."))
  | _ => .error (.registryError ("Discovery registry " ++ path ++ " topic entries must be objects."))

/-- `_parse_registry_data`. -/
def parseRegistryData (path : String) (data : Json) : Except PyError (List String) :=
  match data with
  | .obj fields =>
    if !((Json.field? fields "version").map isVersion).getD false then
      .error (.registryError ("Discovery registry " ++ path ++ " has unsupported version."))
    else
      match Json.field? fields "topics" with
      | some (.arr topics) => topics.mapM (parseTopic path)
      | _ => .error (.registryError
        ("Discovery registry " ++ path ++ " must contain a topics list."))
  | _ => .error (.registryError ("Discovery registry " ++ path ++ " must contain a JSON object."))

/-- `_quarantine_invalid_file` and the empty set `load` returns after it. -/
def quarantine (path : String) (faults : IoFaults) (file : RegistryFile) :
    Except PyError (List String) × RegistryFile :=
  match faults.quarantine with
  | some e => (.error (.registryError
      ("Could not quarantine invalid discovery registry " ++ path ++ ": " ++ e)), file)
  | none => (.ok [], .absent)

/-- `load`. -/
def load (path : String) (faults : IoFaults) (file : RegistryFile) :
    Except PyError (List String) × RegistryFile :=
  match file with
  | .absent => (.ok [], .absent)
  | _ =>
    match faults.read with
    | some e =>
      (.error (.registryError ("Could not load discovery registry " ++ path ++ ": " ++ e)), file)
    | none =>
      match file with
      | .undecodable => (.error .unicodeDecodeError, file)
      | .holds data =>
        match parseRegistryData path data with
        | .ok topics => (.ok topics, file)
        | .error _ => quarantine path faults file
      | _ => quarantine path faults file

/-- What `save` writes. -/
def registryPayload (topics : List String) : Json :=
  let kept := (topics.dedup.filter fun topic => strip topic ≠ "").map strip
  .obj [("topics", .arr ((kept.insertionSort (· ≤ ·)).map fun topic => .obj [("topic", .str topic)])),
    ("version", .int registryVersion)]

/-- `save`. -/
def save (path : String) (faults : IoFaults) (file : RegistryFile) (topics : List String) :
    Except PyError Unit × RegistryFile :=
  match faults.write with
  | some e =>
    (.error (.registryError ("Could not save discovery registry " ++ path ++ ": " ++ e)), file)
  | none => (.ok (), .holds (registryPayload topics))

/-- A save fails with an error of the registry only. -/
theorem save_outcome (path : String) (faults : IoFaults) (file : RegistryFile)
    (topics : List String) : (save path faults file topics).1 = .ok () ∨
      ∃ message, (save path faults file topics).1 = .error (.registryError message) := by
  unfold save
  split
  · exact .inr ⟨_, rfl⟩
  · exact .inl rfl

/-- `create_if_missing`. -/
def createIfMissing (path : String) (faults : IoFaults) (file : RegistryFile) :
    Except PyError Bool × RegistryFile :=
  match file with
  | .absent =>
    match save path faults file [] with
    | (.ok (), file) => (.ok true, file)
    | (.error e, file) => (.error e, file)
  | _ => (.ok false, file)

/-- A load fails with an error of the registry only, if the file can be decoded or
its reading fails before. -/
def Loads (faults : IoFaults) (file : RegistryFile) : Prop :=
  file = .undecodable → faults.read.isSome = true

theorem load_outcome (path : String) {faults : IoFaults} {file : RegistryFile}
    (h : file.Loads faults) : (∃ topics, (load path faults file).1 = .ok topics) ∨
      ∃ message, (load path faults file).1 = .error (.registryError message) := by
  have hquarantine : (∃ topics, (quarantine path faults file).1 = .ok topics) ∨
      ∃ message, (quarantine path faults file).1 = .error (.registryError message) := by
    unfold quarantine
    split
    · exact .inr ⟨_, rfl⟩
    · exact .inl ⟨_, rfl⟩
  unfold load
  split
  · exact .inl ⟨_, rfl⟩
  · split
    · exact .inr ⟨_, rfl⟩
    · next hread =>
      split
      · exact absurd (h rfl) (by simp [hread])
      · split
        · exact .inl ⟨_, rfl⟩
        · exact hquarantine
      · exact hquarantine

theorem load_undecodable {faults : IoFaults} (path : String) (h : faults.read = none) :
    load path faults .undecodable = (.error .unicodeDecodeError, .undecodable) := by
  simp only [load, h]

/-! ## The topics of a file -/

/-- The topics a load without failures returns. -/
def topics (path : String) : RegistryFile → List String
  | .holds data =>
    match parseRegistryData path data with
    | .ok topics => topics
    | .error _ => []
  | _ => []

/-- What a load returns, the file lists afterwards. -/
theorem load_topics {path : String} {faults : IoFaults} {file : RegistryFile}
    {listed : List String} (h : (load path faults file).1 = .ok listed) :
    (load path faults file).2.topics path = listed := by
  have hquarantine : (quarantine path faults file).1 = .ok listed →
      (quarantine path faults file).2.topics path = listed := by
    intro hq
    unfold quarantine at hq ⊢
    split at hq
    · cases hq
    · exact Except.ok.inj hq
  cases file with
  | absent => exact Except.ok.inj h
  | undecodable =>
    simp only [load] at h
    split at h <;> cases h
  | corrupt =>
    simp only [load] at h ⊢
    split at h
    · cases h
    · exact hquarantine h
  | holds data =>
    simp only [load] at h ⊢
    split at h
    · cases h
    · split at h
      · next listed' hp =>
        simp only [topics, hp]
        exact Except.ok.inj h
      · exact hquarantine h

/-- A load leaves the file as it is, or moves it away. -/
theorem load_file (path : String) (faults : IoFaults) (file : RegistryFile) :
    (load path faults file).2 = file ∨ (load path faults file).2 = .absent := by
  have hquarantine : (quarantine path faults file).2 = file ∨
      (quarantine path faults file).2 = .absent := by
    unfold quarantine
    split
    · exact .inl rfl
    · exact .inr rfl
  cases file with
  | absent => exact .inl rfl
  | undecodable =>
    simp only [load]
    split <;> exact .inl rfl
  | corrupt =>
    simp only [load]
    split
    · exact .inl rfl
    · exact hquarantine
  | holds data =>
    simp only [load]
    split
    · exact .inl rfl
    · split
      · exact .inl rfl
      · exact hquarantine

theorem load_subset {path : String} {faults : IoFaults} {file : RegistryFile} {t : String}
    (h : t ∈ (load path faults file).2.topics path) : t ∈ file.topics path := by
  rcases load_file path faults file with hf | hf
  · rwa [hf] at h
  · rw [hf] at h
    exact absurd h List.not_mem_nil

/-- A topic that the file lists has no white space at its ends. -/
theorem strip_of_mem_topics {path : String} {file : RegistryFile} {t : String}
    (h : t ∈ file.topics path) : strip t = t := by
  have hparse : ∀ data listed, parseRegistryData path data = .ok listed → t ∈ listed →
      strip t = t := by
    intro data listed hp ht
    unfold parseRegistryData at hp
    split at hp
    · split at hp
      · cases hp
      · split at hp
        · obtain ⟨entry, _, hentry⟩ := exists_of_mapM_ok hp ht
          unfold parseTopic at hentry
          split at hentry
          · split at hentry
            · split at hentry
              · cases hentry
              · rw [← Except.ok.inj hentry, strip_strip]
            · cases hentry
          · cases hentry
        · cases hp
    · cases hp
  cases file with
  | holds data =>
    simp only [topics] at h
    split at h
    · next listed hp => exact hparse data listed hp h
    · exact absurd h List.not_mem_nil
  | _ => exact absurd h List.not_mem_nil

/-- The file can be read as text. -/
def Readable (file : RegistryFile) : Prop := file ≠ .undecodable

theorem load_ok {path : String} {file : RegistryFile} (h : file.Readable) :
    (load path {} file).1 = .ok (file.topics path) ∧
      (load path {} file).2.topics path = file.topics path ∧ (load path {} file).2.Readable := by
  match file, h with
  | .absent, _ => exact ⟨rfl, rfl, nofun⟩
  | .corrupt, _ => exact ⟨rfl, rfl, nofun⟩
  | .holds data, _ =>
    simp only [load, topics]
    cases hp : parseRegistryData path data with
    | ok ts => exact ⟨rfl, by simp only [hp], nofun⟩
    | error e => exact ⟨rfl, rfl, nofun⟩

theorem mapM_parseTopic {path : String} {kept : List String} (h : ∀ t ∈ kept, strip t ≠ "") :
    (kept.map fun topic => Json.obj [("topic", .str topic)]).mapM (parseTopic path) =
      .ok (kept.map strip) := by
  induction kept with
  | nil => rfl
  | cons t kept ih =>
    have hhead : parseTopic path (Json.obj [("topic", .str t)]) = .ok (strip t) :=
      if_neg (h t List.mem_cons_self)
    rw [List.map_cons, List.mapM_cons, hhead, ih fun u hu => h u (List.mem_cons_of_mem _ hu)]
    rfl

/-- What `save` writes is a registry of the saved topics, stripped. -/
theorem parse_registryPayload (path : String) (saved : List String) :
    ∃ listed, parseRegistryData path (registryPayload saved) = .ok listed ∧
      ∀ t, t ∈ listed ↔ ∃ u ∈ saved, strip u ≠ "" ∧ strip u = t := by
  set kept := ((saved.dedup.filter fun topic => strip topic ≠ "").map strip).insertionSort (· ≤ ·)
    with hkept
  have hmem : ∀ v, v ∈ kept ↔ ∃ u ∈ saved, strip u ≠ "" ∧ strip u = v := by
    intro v
    simp only [hkept, List.mem_insertionSort, List.mem_map, List.mem_filter, List.mem_dedup,
      decide_eq_true_eq, and_assoc]
  have hne : ∀ v ∈ kept, strip v ≠ "" := by
    intro v hv
    obtain ⟨u, _, hu, rfl⟩ := (hmem v).mp hv
    rwa [strip_strip]
  refine ⟨kept.map strip, mapM_parseTopic hne, fun t => ?_⟩
  simp only [List.mem_map, hmem]
  constructor
  · rintro ⟨v, ⟨u, hu, hn, rfl⟩, rfl⟩
    exact ⟨u, hu, hn, (strip_strip u).symm⟩
  · rintro ⟨u, hu, hn, rfl⟩
    exact ⟨strip u, ⟨u, hu, hn, rfl⟩, strip_strip u⟩

/-- A saved set comes back with its topics stripped. -/
theorem mem_topics_save {path : String} {saved : List String} {t : String} :
    t ∈ (RegistryFile.holds (registryPayload saved)).topics path ↔
      ∃ u ∈ saved, strip u ≠ "" ∧ strip u = t := by
  obtain ⟨listed, hparse, hmem⟩ := parse_registryPayload path saved
  simp only [topics, hparse, hmem]

/-- After a save the file lists saved topics, or what it listed before. -/
theorem mem_topics_of_save {path : String} {faults : IoFaults} {file : RegistryFile}
    {saved : List String} {t : String} (h : t ∈ (save path faults file saved).2.topics path) :
    t ∈ file.topics path ∨ ∃ u ∈ saved, strip u = t := by
  unfold save at h
  split at h
  · exact .inl h
  · obtain ⟨u, hu, _, hstrip⟩ := mem_topics_save.mp h
    exact .inr ⟨u, hu, hstrip⟩

theorem createIfMissing_subset {path : String} {faults : IoFaults} {file : RegistryFile}
    {t : String} (h : t ∈ (createIfMissing path faults file).2.topics path) :
    t ∈ file.topics path := by
  cases file with
  | absent =>
    simp only [createIfMissing] at h
    have hsave : t ∈ (save path faults .absent []).2.topics path := by
      split at h
      · next hs => rwa [hs]
      · next hs => rwa [hs]
    rcases mem_topics_of_save hsave with ht | ⟨u, hu, _⟩
    · exact ht
    · exact absurd hu List.not_mem_nil
  | _ => exact h

/-- A set of settled topics comes back as it is. -/
theorem mem_topics_save_settled {path : String} {saved : List String}
    (h : ∀ u ∈ saved, strip u = u ∧ u ≠ "") {t : String} :
    t ∈ (RegistryFile.holds (registryPayload saved)).topics path ↔ t ∈ saved := by
  rw [mem_topics_save]
  constructor
  · rintro ⟨u, hu, _, rfl⟩
    rwa [(h u hu).1]
  · intro ht
    exact ⟨t, ht, by rw [(h t ht).1]; exact (h t ht).2, (h t ht).1⟩

end RegistryFile

end MochadBridge
