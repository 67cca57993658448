import Mathlib.Data.List.Perm.Subperm
import MochadBridge.Lib.Dict

/-!
# The files of a directory

A directory is a dictionary of contents. `freeName` tries the names of a sequence
one after the other until no file has it; among more names than there are files
one is free.

Results:
1. `get?_replace`: what a directory holds after a rename.
2. `freeName_free`: the name of the search is free; `searchFrom_freeName`: the loop of
   the search ends there.
3. `Archived.add`: a content under a free name joins those that were put away before.
-/

open Py

/-- The files of a directory: their bytes by name. -/
abbrev Directory := Dict String (List UInt8)

namespace Directory

/-- A file with a whole content. -/
def write (dir : Directory) (name : String) (content : List UInt8) : Directory :=
  dir.insert name content

/-- `os.replace`. -/
def replace (dir : Directory) (source target : String) : Directory :=
  match dir.get? source with
  | none => dir
  | some content => (dir.filterKeys (· ≠ source)).insert target content

theorem get?_write (dir : Directory) (name : String) (content : List UInt8) (k : String) :
    (dir.write name content).get? k = if k = name then some content else dir.get? k := by
  rw [write, Dict.get?_insert]
  exact if_congr eq_comm rfl rfl

theorem get?_replace {dir : Directory} {source target : String} {content : List UInt8}
    (h : dir.get? source = some content) (k : String) :
    (dir.replace source target).get? k =
      if k = target then some content else if k = source then none else dir.get? k := by
  rw [replace, h]
  dsimp only
  rw [Dict.get?_insert, Dict.get?_filterKeys]
  by_cases htarget : target = k
  · rw [if_pos htarget, if_pos htarget.symm]
  · rw [if_neg htarget, if_neg (Ne.symm htarget)]
    by_cases hsource : k = source
    · simp [hsource]
    · simp [hsource]

section FreeName
variable (dir : Directory) (nameAt : Nat → String)

/-- The first free name from a counter on. -/
def freeNameFrom : Nat → Nat → String
  | 0, counter => nameAt counter
  | fuel + 1, counter =>
    if nameAt counter ∈ dir.keys then freeNameFrom fuel (counter + 1) else nameAt counter

/-- The first free name of a sequence. -/
def freeName : String := freeNameFrom dir nameAt dir.keys.length 0

variable {dir nameAt}

theorem freeNameFrom_eq (fuel counter : Nat) :
    ∃ n, freeNameFrom dir nameAt fuel counter = nameAt n := by
  induction fuel generalizing counter with
  | zero => exact ⟨counter, rfl⟩
  | succ fuel ih =>
    rw [freeNameFrom]
    split
    · exact ih (counter + 1)
    · exact ⟨counter, rfl⟩

/-- A search that ends at a taken name has met taken names only. -/
theorem taken_of_freeNameFrom {fuel counter : Nat}
    (h : freeNameFrom dir nameAt fuel counter ∈ dir.keys) :
    ∀ i ≤ fuel, nameAt (counter + i) ∈ dir.keys := by
  induction fuel generalizing counter with
  | zero =>
    intro i hi
    obtain rfl := Nat.le_zero.mp hi
    exact h
  | succ fuel ih =>
    rw [freeNameFrom] at h
    split at h
    · next htaken =>
      intro i hi
      cases i with
      | zero => exact htaken
      | succ i =>
        rw [Nat.add_succ, ← Nat.succ_add]
        exact ih h i (Nat.le_of_succ_le_succ hi)
    · next hfree => exact absurd h hfree

theorem freeName_eq (dir : Directory) (nameAt : Nat → String) :
    ∃ n, freeName dir nameAt = nameAt n := freeNameFrom_eq _ _

theorem freeName_free (hinj : Function.Injective nameAt) : freeName dir nameAt ∉ dir.keys := by
  intro h
  have htaken := taken_of_freeNameFrom h
  have hnodup : ((List.range (dir.keys.length + 1)).map nameAt).Nodup :=
    List.nodup_range.map hinj
  have hsubset : (List.range (dir.keys.length + 1)).map nameAt ⊆ dir.keys := by
    intro name hname
    obtain ⟨i, hi, rfl⟩ := List.mem_map.mp hname
    have := htaken i (Nat.le_of_lt_succ (List.mem_range.mp hi))
    rwa [Nat.zero_add] at this
  have hle := (hnodup.subperm hsubset).length_le
  rw [List.length_map, List.length_range] at hle
  exact Nat.not_succ_le_self _ hle

/-- The loop `while exists(name): counter += 1`, or `none` after so many rounds. -/
def searchFrom (dir : Directory) (nameAt : Nat → String) : Nat → Nat → Option String
  | 0, _ => none
  | rounds + 1, counter =>
    if nameAt counter ∈ dir.keys then searchFrom dir nameAt rounds (counter + 1)
    else some (nameAt counter)

theorem searchFrom_eq {fuel counter rounds : Nat}
    (hfree : freeNameFrom dir nameAt fuel counter ∉ dir.keys) (h : fuel < rounds) :
    searchFrom dir nameAt rounds counter = some (freeNameFrom dir nameAt fuel counter) := by
  induction fuel generalizing counter rounds with
  | zero =>
    obtain ⟨rounds, rfl⟩ := Nat.exists_eq_succ_of_ne_zero (Nat.ne_of_gt h)
    exact if_neg hfree
  | succ fuel ih =>
    obtain ⟨rounds, rfl⟩ := Nat.exists_eq_succ_of_ne_zero (Nat.ne_zero_of_lt h)
    rw [freeNameFrom] at hfree ⊢
    rw [searchFrom]
    split
    · next htaken =>
      rw [if_pos htaken] at hfree
      exact ih hfree (Nat.lt_of_succ_lt_succ h)
    · rfl

/-- With a name for every round, the loop ends after as many rounds as there are files. -/
theorem searchFrom_freeName (hinj : Function.Injective nameAt) {rounds : Nat}
    (h : dir.keys.length < rounds) : searchFrom dir nameAt rounds 0 = some (freeName dir nameAt) :=
  searchFrom_eq (freeName_free hinj) h

end FreeName

/-! ## Contents put away -/

/-- The contents are under these names of the archive, each under one of its own. -/
structure Archived (A : String → Prop) (dir : Directory)
    (kept : List (String × List UInt8)) : Prop where
  nodup : (kept.map Prod.fst).Nodup
  kept : ∀ e ∈ kept, A e.1 ∧ dir.get? e.1 = some e.2

section Archived
variable {A : String → Prop} {dir dir' : Directory} {kept : List (String × List UInt8)}

/-- The directory `dir'` has the files of the archive that `dir` has. -/
def Keeps (A : String → Prop) (dir dir' : Directory) : Prop :=
  ∀ k content, A k → dir.get? k = some content → dir'.get? k = some content

/-- A step that leaves the files of the archive alone keeps what is put away. -/
theorem Archived.mono (h : Archived A dir kept) (hkeep : Keeps A dir dir') :
    Archived A dir' kept :=
  ⟨h.nodup, fun e he => ⟨(h.kept e he).1, hkeep e.1 e.2 (h.kept e he).1 (h.kept e he).2⟩⟩

/-- And one that adds a content under a free name adds it to these. -/
theorem Archived.add (h : Archived A dir kept) (hkeep : Keeps A dir dir') {name : String}
    {content : List UInt8} (hname : A name) (hfree : dir.get? name = none)
    (hnew : dir'.get? name = some content) : Archived A dir' ((name, content) :: kept) := by
  have hfresh : name ∉ kept.map Prod.fst := by
    intro hmem
    obtain ⟨e, he, rfl⟩ := List.mem_map.mp hmem
    cases hfree.symm.trans (h.kept e he).2
  exact ⟨List.nodup_cons.mpr ⟨hfresh, h.nodup⟩,
    List.forall_mem_cons.mpr ⟨⟨hname, hnew⟩, (h.mono hkeep).kept⟩⟩

end Archived

end Directory
