import MochadBridge.Lib.Directory
import MochadBridge.Lib.TextFile
import MochadBridge.Registry

/-!
# The registry file on disk

`DiscoveryRegistry` on the bytes of a directory: `save` goes through a temporary
file, `load` moves a content that it rejects to a name of its own. `fileOf` is the
registry file as the bridge sees it.

Results:
1. `save_load`: a save that completes is loaded as the stripped topics that are not
   blank; one that fails at any step changes nothing that a load returns.
2. `load_tolerates_iff`: a load copes with a content exactly if it is legible.
3. `load_refines`, `save_refines`: on the registry file this is `RegistryFile`.
-/

namespace MochadBridge

open Py TextFile

/-! ## Valid registries -/

namespace RegistryFile

/-- The entry of a topic. -/
def EntryTopic (entry : Json) (topic : String) : Prop :=
  ∃ fields text, entry = .obj fields ∧ Json.field? fields "topic" = some (.str text) ∧
    strip text ≠ "" ∧ strip text = topic

/-- A valid registry and its topics. -/
def IsRegistry (data : Json) (topics : List String) : Prop :=
  ∃ fields version entries, data = .obj fields ∧
    Json.field? fields "version" = some version ∧ isVersion version = true ∧
    Json.field? fields "topics" = some (.arr entries) ∧ List.Forall₂ EntryTopic entries topics

theorem parseTopic_ok_iff {path : String} {entry : Json} {topic : String} :
    parseTopic path entry = .ok topic ↔ EntryTopic entry topic := by
  constructor
  · intro h
    unfold parseTopic at h
    split at h
    · next fields =>
      split at h
      · next text htext =>
        split at h
        · cases h
        · next hne => exact ⟨fields, text, rfl, htext, hne, Except.ok.inj h⟩
      · cases h
    · cases h
  · rintro ⟨fields, text, rfl, htext, hne, rfl⟩
    simp only [parseTopic, htext, if_neg hne]

theorem mapM_parseTopic_ok_iff {path : String} {entries : List Json} {topics : List String} :
    entries.mapM (parseTopic path) = .ok topics ↔ List.Forall₂ EntryTopic entries topics := by
  induction entries generalizing topics with
  | nil =>
    rw [List.forall₂_nil_left_iff, List.mapM_nil]
    exact ⟨fun h => (Except.ok.inj h).symm, fun h => h ▸ rfl⟩
  | cons entry entries ih =>
    rw [List.mapM_cons, List.forall₂_cons_left_iff]
    constructor
    · intro h
      obtain ⟨topic, htopic, h⟩ := bind_ok h
      obtain ⟨rest, hrest, h⟩ := bind_ok h
      exact ⟨topic, rest, parseTopic_ok_iff.mp htopic, ih.mp hrest, (Except.ok.inj h).symm⟩
    · rintro ⟨topic, rest, htopic, hrest, rfl⟩
      rw [parseTopic_ok_iff.mpr htopic, ih.mpr hrest]
      rfl

/-- The parser accepts the valid registries. -/
theorem parseRegistryData_ok_iff {path : String} {data : Json} {topics : List String} :
    parseRegistryData path data = .ok topics ↔ IsRegistry data topics := by
  constructor
  · intro h
    unfold parseRegistryData at h
    split at h
    · next fields =>
      split at h
      · cases h
      · next hversion =>
        split at h
        · next entries hentries =>
          cases hv : Json.field? fields "version" with
          | none => simp [hv] at hversion
          | some version =>
            refine ⟨fields, version, entries, rfl, hv, ?_, hentries, mapM_parseTopic_ok_iff.mp h⟩
            simpa [hv] using hversion
        · cases h
    · cases h
  · rintro ⟨fields, version, entries, rfl, hv, hversion, hentries, htopics⟩
    simp only [parseRegistryData, hv, Option.map_some, Option.getD_some, hversion, hentries]
    exact mapM_parseTopic_ok_iff.mpr htopics

end RegistryFile

/-- Where a save fails, with the text of the `OSError`: a write that fails may leave
a part of the content behind. -/
inductive SaveFault where
  | mkdir (message : String)
  | write (written : Option (List UInt8)) (message : String)
  | replace (message : String)

/-- The text of the `OSError`. -/
def SaveFault.message : SaveFault → String
  | .mkdir message | .write _ message | .replace message => message

namespace RegistryStore

/-! ## Saving -/

/-- `path.with_suffix(path.suffix + ".tmp")`. -/
def temporaryName (name : String) : String := name ++ ".tmp"

/-- The text that `save` writes. -/
def registryText (topics : List String) : String :=
  Json.dumps (RegistryFile.registryPayload topics) ++ "\n"

/-- `save`. -/
def save (name : String) (fault : Option SaveFault) (dir : Directory) (topics : List String) :
    Except PyError Unit × Directory :=
  let content := writeText (registryText topics)
  let failed := fun message => (.error (.registryError
    ("Could not save discovery registry " ++ name ++ ": " ++ message)) : Except PyError Unit)
  match fault with
  | some (.mkdir message) => (failed message, dir)
  | some (.write none message) => (failed message, dir)
  | some (.write (some written) message) =>
    (failed message, dir.write (temporaryName name) written)
  | some (.replace message) => (failed message, dir.write (temporaryName name) content)
  | none => (.ok (), (dir.write (temporaryName name) content).replace (temporaryName name) name)

/-! ## Loading -/

/-- The names that `_quarantine_invalid_file` tries, one after the other. -/
def quarantineName (name timestamp : String) : Nat → String
  | 0 => name ++ ".invalid." ++ timestamp
  | counter + 1 => name ++ ".invalid." ++ timestamp ++ "." ++ toString (counter + 1)

/-- `_quarantine_invalid_file`, and the empty set `load` returns after it. -/
def quarantine (name timestamp : String) (dir : Directory) :
    Except PyError (List String) × Directory :=
  (.ok [], dir.replace name (dir.freeName (quarantineName name timestamp)))

/-- `load`, of a file that can be read and renamed. -/
def load (limits : Json.Limits) (name timestamp : String) (dir : Directory) :
    Except PyError (List String) × Directory :=
  match dir.get? name with
  | none => (.ok [], dir)
  | some content =>
    match readText content with
    | none => (.error .unicodeDecodeError, dir)
    | some raw =>
      match Json.loadsWithin limits raw with
      | .error .malformed => quarantine name timestamp dir
      | .error .longInteger =>
        (.error (.valueError "Exceeds the limit for integer string conversion"), dir)
      | .error .tooDeep => (.error .recursionError, dir)
      | .ok data =>
        match RegistryFile.parseRegistryData name data with
        | .ok topics => (.ok topics, dir)
        | .error _ => quarantine name timestamp dir

/-- The content is a valid registry with these topics. -/
def Holds (limits : Json.Limits) (content : List UInt8) (topics : List String) : Prop :=
  ∃ raw data, readText content = some raw ∧ Json.loadsWithin limits raw = .ok data ∧
    RegistryFile.IsRegistry data topics

/-- The directory holds no registry, or a valid one. -/
def Valid (limits : Json.Limits) (name : String) (dir : Directory) : Prop :=
  ∀ content, dir.get? name = some content → ∃ topics, Holds limits content topics

section Load
variable {limits : Json.Limits} {name timestamp : String} {dir : Directory}
  {content : List UInt8}

theorem load_absent (h : dir.get? name = none) : load limits name timestamp dir = (.ok [], dir) := by
  rw [load, h]

/-- A valid registry is loaded, and stays where it is. -/
theorem load_holds {topics : List String} (h : dir.get? name = some content)
    (hvalid : Holds limits content topics) :
    load limits name timestamp dir = (.ok topics, dir) := by
  obtain ⟨raw, data, hraw, hread, hregistry⟩ := hvalid
  simp only [load, h, hraw, hread,
    show RegistryFile.parseRegistryData name data = .ok topics from
      RegistryFile.parseRegistryData_ok_iff.mpr hregistry]

/-- Every other legible content is quarantined. -/
theorem load_invalid (h : dir.get? name = some content) (hlegible : Legible limits content)
    (hinvalid : ∀ topics, ¬ Holds limits content topics) :
    load limits name timestamp dir = quarantine name timestamp dir := by
  obtain ⟨raw, hraw, hlong, hdeep⟩ := hlegible
  simp only [load, h, hraw]
  cases hread : Json.loadsWithin limits raw with
  | error fault =>
    cases fault with
    | malformed => rfl
    | longInteger => exact absurd hread hlong
    | tooDeep => exact absurd hread hdeep
  | ok data =>
    cases hparse : RegistryFile.parseRegistryData name data with
    | error e => simp only [hparse]
    | ok topics =>
      exact absurd ⟨raw, data, hraw, hread, RegistryFile.parseRegistryData_ok_iff.mp hparse⟩
        (hinvalid topics)

/-- The exception of a content that is not legible escapes, and the files are as they
were. -/
theorem load_illegible (h : dir.get? name = some content) (hlegible : ¬ Legible limits content) :
    ∃ e, load limits name timestamp dir = (.error e, dir) := by
  cases hraw : readText content with
  | none => exact ⟨.unicodeDecodeError, by simp only [load, h, hraw]⟩
  | some raw =>
    cases hread : Json.loadsWithin limits raw with
    | error fault =>
      cases fault with
      | malformed => exact absurd ⟨raw, hraw, by simp [hread], by simp [hread]⟩ hlegible
      | longInteger => exact ⟨_, by simp only [load, h, hraw, hread]; rfl⟩
      | tooDeep => exact ⟨_, by simp only [load, h, hraw, hread]; rfl⟩
    | ok data => exact absurd ⟨raw, hraw, by simp [hread], by simp [hread]⟩ hlegible

/-! ## Quarantine -/

theorem quarantineName_injective (name timestamp : String) :
    Function.Injective (quarantineName name timestamp) := by
  have hfirst : ∀ n, quarantineName name timestamp (n + 1) ≠ quarantineName name timestamp 0 := by
    intro n h
    have hlength := congrArg String.length h
    simp only [quarantineName, String.length_append] at hlength
    have hdot : String.length "." = 1 := rfl
    omega
  intro m n h
  cases m with
  | zero =>
    cases n with
    | zero => rfl
    | succ n => exact absurd h.symm (hfirst n)
  | succ m =>
    cases n with
    | zero => exact absurd h (hfirst m)
    | succ n =>
      have htext : (Nat.repr (m + 1)).toList = (Nat.repr (n + 1)).toList :=
        congrArg String.toList ((String.append_right_inj _).mp h)
      have hvalue := congrArg (Nat.ofDigitChars 10 · 0) htext
      simpa only [Nat.toList_repr, Nat.ofDigitChars_ten_toDigits] using hvalue

/-- A legible content that is no registry is kept under a free name, the registry is
gone, and the other files are as they were. -/
theorem quarantine_spec (h : dir.get? name = some content) :
    (quarantine name timestamp dir).1 = .ok [] ∧
      (quarantine name timestamp dir).2.get? name = none ∧
      ∃ n, dir.get? (quarantineName name timestamp n) = none ∧
        (quarantine name timestamp dir).2.get? (quarantineName name timestamp n) = some content ∧
        ∀ k, k ≠ name → k ≠ quarantineName name timestamp n →
          (quarantine name timestamp dir).2.get? k = dir.get? k := by
  obtain ⟨n, hn⟩ := Directory.freeName_eq dir (quarantineName name timestamp)
  have hfree : dir.get? (quarantineName name timestamp n) = none :=
    Dict.get?_eq_none.mpr (hn ▸ Directory.freeName_free (quarantineName_injective name timestamp))
  have hname : name ≠ quarantineName name timestamp n := by
    intro hname
    rw [← hname, h] at hfree
    cases hfree
  have hget : ∀ k, (quarantine name timestamp dir).2.get? k =
      if k = quarantineName name timestamp n then some content
      else if k = name then none else dir.get? k := by
    intro k
    rw [quarantine, hn, Directory.get?_replace h]
  refine ⟨rfl, ?_, n, hfree, ?_, fun k hk hq => ?_⟩
  · rw [hget, if_neg hname, if_pos rfl]
  · rw [hget, if_pos rfl]
  · rw [hget, if_neg hq, if_neg hk]

/-- A load copes with the content: it returns the topics of a valid registry and
leaves all files in place; with every other content it returns no topics, and the
content is kept under a name that was free. -/
def Tolerates (limits : Json.Limits) (name timestamp : String) (dir : Directory)
    (content : List UInt8) : Prop :=
  (∀ topics, Holds limits content topics → load limits name timestamp dir = (.ok topics, dir)) ∧
  ((∀ topics, ¬ Holds limits content topics) →
    (load limits name timestamp dir).1 = .ok [] ∧
      (load limits name timestamp dir).2.get? name = none ∧
      ∃ n, dir.get? (quarantineName name timestamp n) = none ∧
        (load limits name timestamp dir).2.get? (quarantineName name timestamp n) = some content ∧
        ∀ k, k ≠ name → k ≠ quarantineName name timestamp n →
          (load limits name timestamp dir).2.get? k = dir.get? k)

theorem not_tolerates {e : PyError} (hinvalid : ∀ topics, ¬ Holds limits content topics)
    (h : (load limits name timestamp dir).1 = .error e) :
    ¬ Tolerates limits name timestamp dir content := by
  intro ht
  have hok := (ht.2 hinvalid).1
  rw [h] at hok
  cases hok

theorem Holds.legible {topics : List String} (h : Holds limits content topics) :
    Legible limits content := by
  obtain ⟨raw, data, hraw, hread, _⟩ := h
  exact ⟨raw, hraw, by simp [hread], by simp [hread]⟩

/-- What a load does with a valid registry depends on the file only. -/
theorem load_congr {dir' : Directory} {timestamp' : String} (h : dir'.get? name = dir.get? name)
    (hvalid : Valid limits name dir) :
    (load limits name timestamp' dir').1 = (load limits name timestamp dir).1 := by
  cases hfile : dir.get? name with
  | none => rw [load_absent hfile, load_absent (h.trans hfile)]
  | some content =>
    obtain ⟨topics, htopics⟩ := hvalid content hfile
    rw [load_holds hfile htopics, load_holds (h.trans hfile) htopics]

end Load

/-! ## Save and load -/

theorem temporaryName_ne (name : String) : temporaryName name ≠ name := by
  intro h
  have hlength := congrArg String.length h
  rw [temporaryName, String.length_append] at hlength
  exact absurd hlength (by simp)

/-- The limits of the interpreter let a registry through: a version of one digit, and
topics in the objects of a list. -/
def Admits (limits : Json.Limits) : Prop :=
  (∀ digits, limits.digits = some digits → 1 ≤ digits) ∧
    ∀ depth, limits.depth = some depth → 3 ≤ depth

theorem inner_of_depth {limits : Json.Limits} {n : Nat}
    (h : ∀ depth, limits.depth = some depth → n + 1 ≤ depth) :
    ∃ limits', limits.inner = .ok limits' ∧ limits'.digits = limits.digits ∧
      ∀ depth, limits'.depth = some depth → n ≤ depth := by
  unfold Json.Limits.inner
  cases hdepth : limits.depth with
  | none => exact ⟨limits, rfl, rfl, fun depth hd => nomatch hdepth.symm.trans hd⟩
  | some depth =>
    have hle := h depth hdepth
    cases depth with
    | zero => exact absurd hle (Nat.not_succ_le_zero n)
    | succ depth =>
      refine ⟨_, rfl, rfl, fun d hd => ?_⟩
      obtain rfl := Option.some.inj hd
      exact Nat.le_of_succ_le_succ hle

/-- The text of a registry is read back. -/
theorem readsBack_registryPayload {limits : Json.Limits} (h : Admits limits)
    (topics : List String) : Json.ReadsBack limits 0 (RegistryFile.registryPayload topics) := by
  obtain ⟨limits₁, hinner, hdigits, hdepth⟩ := inner_of_depth h.2
  obtain ⟨limits₂, hinner₁, _, hdepth₁⟩ := inner_of_depth hdepth
  obtain ⟨limits₃, hinner₂, _, _⟩ := inner_of_depth hdepth₁
  refine Json.readsBack_obj hinner rfl (List.cons_ne_nil _ _) fun e he => ?_
  rcases List.mem_cons.mp he with rfl | he
  · refine Json.readsBack_arr hinner₁ fun entry hentry => ?_
    obtain ⟨topic, _, rfl⟩ := List.mem_map.mp hentry
    refine Json.readsBack_obj hinner₂ rfl (List.cons_ne_nil _ _) fun e he => ?_
    obtain rfl := List.mem_singleton.mp he
    exact Json.readsBack_str topic
  · obtain rfl := List.mem_singleton.mp he
    exact Json.readsBack_one fun n hn => h.1 n (hdigits ▸ hn)

/-- What `save` writes holds the saved topics, stripped. -/
theorem holds_saved {limits : Json.Limits} (h : Admits limits) (topics : List String) :
    ∃ listed, Holds limits (writeText (registryText topics)) listed ∧
      ∀ t, t ∈ listed ↔ ∃ u ∈ topics, strip u ≠ "" ∧ strip u = t := by
  obtain ⟨hraw, hread⟩ := legible_dumps (readsBack_registryPayload h topics)
  obtain ⟨listed, hparse, hmem⟩ := RegistryFile.parse_registryPayload "" topics
  exact ⟨listed, ⟨_, _, hraw, hread, RegistryFile.parseRegistryData_ok_iff.mp hparse⟩, hmem⟩

section Save
variable {name : String} {fault : Option SaveFault} {dir : Directory} {topics : List String}

/-- A save that completes has replaced the file. -/
theorem save_ok (h : (save name fault dir topics).1 = .ok ()) :
    (save name fault dir topics).2.get? name = some (writeText (registryText topics)) := by
  cases fault with
  | none =>
    have htemporary : (dir.write (temporaryName name) (writeText (registryText topics))).get?
        (temporaryName name) = some (writeText (registryText topics)) := by
      rw [Directory.get?_write, if_pos rfl]
    simp only [save]
    rw [Directory.get?_replace htemporary, if_pos rfl]
  | some fault =>
    cases fault with
    | mkdir _ => cases h
    | write written _ => cases written <;> cases h
    | replace _ => cases h

/-- A save that fails leaves the file alone, whatever it wrote before. -/
theorem save_error {e : PyError} (h : (save name fault dir topics).1 = .error e) :
    (save name fault dir topics).2.get? name = dir.get? name := by
  have hwrite : ∀ content, (dir.write (temporaryName name) content).get? name = dir.get? name :=
    fun content => by rw [Directory.get?_write, if_neg (temporaryName_ne name).symm]
  match fault, h with
  | none, h => cases h
  | some (.mkdir _), _ => rfl
  | some (.write none _), _ => rfl
  | some (.write (some written) _), _ => exact hwrite written
  | some (.replace _), _ => exact hwrite _

/-- Where a registry that is absent or valid was, a completed save is loaded as the
stripped topics that are not blank, and after a failed one a load returns what it
returned before. -/
theorem save_load {limits : Json.Limits} (hlimits : Admits limits) (hvalid : Valid limits name dir)
    (fault : Option SaveFault) (topics : List String) (timestamp timestamp' : String) :
    ((save name fault dir topics).1 = .ok () →
      ∃ listed, load limits name timestamp (save name fault dir topics).2 =
          (.ok listed, (save name fault dir topics).2) ∧
        ∀ t, t ∈ listed ↔ ∃ u ∈ topics, strip u ≠ "" ∧ strip u = t) ∧
    (∀ e, (save name fault dir topics).1 = .error e →
      (∃ message, e = .registryError message) ∧
        (load limits name timestamp (save name fault dir topics).2).1 =
          (load limits name timestamp' dir).1) := by
  constructor
  · intro hok
    obtain ⟨listed, hholds, hmem⟩ := holds_saved hlimits topics
    exact ⟨listed, load_holds (save_ok hok) hholds, hmem⟩
  · intro e he
    refine ⟨?_, load_congr (save_error he) hvalid⟩
    match fault, he with
    | none, he => cases he
    | some (.mkdir _), he => exact ⟨_, (Except.error.inj he).symm⟩
    | some (.write none _), he => exact ⟨_, (Except.error.inj he).symm⟩
    | some (.write (some _) _), he => exact ⟨_, (Except.error.inj he).symm⟩
    | some (.replace _), he => exact ⟨_, (Except.error.inj he).symm⟩

end Save

theorem save_load_blank :
    ∃ listed, load ⟨some 4300, some 900⟩ "r.json" "20240101000000"
          (save "r.json" none Dict.empty [" a ", " "]).2 =
        (.ok listed, (save "r.json" none Dict.empty [" a ", " "]).2) ∧
      ∀ t, t ∈ listed ↔ ∃ u ∈ [" a ", " "], strip u ≠ "" ∧ strip u = t :=
  (save_load ⟨by simp, by simp⟩ (fun _ h => absurd h (by simp)) none [" a ", " "] "20240101000000" "").1 rfl

/-! ## The registry file of the bridge -/

/-- What the bridge sees of the directory. -/
def fileOf (limits : Json.Limits) (name : String) (dir : Directory) : RegistryFile :=
  match dir.get? name with
  | none => .absent
  | some content =>
    match readText content with
    | none => .undecodable
    | some raw =>
      match Json.loadsWithin limits raw with
      | .ok data => .holds data
      | .error _ => .corrupt

section Refinement
variable {limits : Json.Limits} {name : String} {dir : Directory}

theorem fileOf_absent (h : dir.get? name = none) : fileOf limits name dir = .absent := by
  rw [fileOf, h]

theorem fileOf_content {raw : String} {content : List UInt8} (h : dir.get? name = some content)
    (hraw : readText content = some raw) : fileOf limits name dir =
      match Json.loadsWithin limits raw with
      | .ok data => .holds data
      | .error _ => .corrupt := by
  simp only [fileOf, h, hraw]

/-- Within the limits of the interpreter, a load of the file is a load of what the
bridge sees. -/
theorem load_refines (timestamp : String)
    (h : ∀ content, dir.get? name = some content →
      readText content = none ∨ Legible limits content) :
    RegistryFile.load name {} (fileOf limits name dir) =
      ((load limits name timestamp dir).1, fileOf limits name (load limits name timestamp dir).2) := by
  cases hfile : dir.get? name with
  | none => rw [load_absent hfile, fileOf_absent hfile]; rfl
  | some content =>
    rcases h content hfile with hnone | hlegible
    · have hload : load limits name timestamp dir = (.error .unicodeDecodeError, dir) := by
        simp only [load, hfile, hnone]
      have hundecodable : fileOf limits name dir = .undecodable := by
        simp only [fileOf, hfile, hnone]
      rw [hload, hundecodable]
      rfl
    · have hgone : fileOf limits name (quarantine name timestamp dir).2 = .absent :=
        fileOf_absent (quarantine_spec hfile).2.1
      obtain ⟨raw, hraw, hlong, hdeep⟩ := hlegible
      rw [fileOf_content hfile hraw]
      cases hread : Json.loadsWithin limits raw with
      | error fault =>
        have hload : load limits name timestamp dir = quarantine name timestamp dir := by
          refine load_invalid hfile ⟨raw, hraw, hlong, hdeep⟩ fun topics hholds => ?_
          obtain ⟨raw', data, hraw', hread', _⟩ := hholds
          obtain rfl := Option.some.inj (hraw.symm.trans hraw')
          cases hread.symm.trans hread'
        rw [hload, hgone]
        rfl
      | ok data =>
        cases hparse : RegistryFile.parseRegistryData name data with
        | ok topics =>
          rw [load_holds hfile ⟨raw, data, hraw, hread, RegistryFile.parseRegistryData_ok_iff.mp hparse⟩,
            fileOf_content hfile hraw, hread]
          simp only [RegistryFile.load, hparse]
        | error e =>
          have hload : load limits name timestamp dir = quarantine name timestamp dir := by
            simp only [load, hfile, hraw, hread, hparse]
          rw [hload, hgone]
          simp only [RegistryFile.load, hparse]
          rfl

/-- A save of the file is a save of what the bridge sees. -/
theorem save_refines (hlimits : Admits limits) (fault : Option SaveFault) (topics : List String) :
    RegistryFile.save name { write := fault.map SaveFault.message } (fileOf limits name dir) topics =
      ((save name fault dir topics).1, fileOf limits name (save name fault dir topics).2) := by
  have hkept : ∀ e, (save name fault dir topics).1 = .error e →
      fileOf limits name (save name fault dir topics).2 = fileOf limits name dir := by
    intro e he
    simp only [fileOf, save_error he]
  cases fault with
  | none =>
    obtain ⟨hraw, hread⟩ := legible_dumps (readsBack_registryPayload hlimits topics)
    rw [fileOf_content (@save_ok name none dir topics rfl) hraw, hread]
    rfl
  | some fault =>
    obtain ⟨e, he⟩ : ∃ e, (save name (some fault) dir topics).1 = .error e ∧
        e = .registryError ("Could not save discovery registry " ++ name ++ ": " ++ fault.message) := by
      cases fault with
      | mkdir _ => exact ⟨_, rfl, rfl⟩
      | write written _ => cases written <;> exact ⟨_, rfl, rfl⟩
      | replace _ => exact ⟨_, rfl, rfl⟩
    rw [hkept e he.1, he.1, he.2]
    rfl

end Refinement

end RegistryStore

end MochadBridge
