import MochadBridge.RegistryStore

/-!
# Quarantine over many loads

A load that finds the registry invalid moves it to a name that no file has, so
that no content it has moved before is lost, however many such loads there are within
one second.

Results:
1. `quarantine_moves`: the search for the name ends, and the file is moved there.
2. `Visits.archived`: over any run of loads, the invalid contents are kept under
   distinct names.
-/

namespace MochadBridge

open Py TextFile Directory

namespace RegistryStore

/-- The content is read, and found to be no registry. -/
def Invalid (limits : Json.Limits) (content : List UInt8) : Prop :=
  Legible limits content ∧ ∀ topics, ¬ Holds limits content topics

/-- A name of a quarantined registry, from whatever time. -/
def IsQuarantineName (name k : String) : Prop := ∃ timestamp n, k = quarantineName name timestamp n

/-- The loop of the search ends at a name that no file has; the file is moved to it,
and every other file is as it was. -/
def Moves (name timestamp : String) (dir : Directory) (content : List UInt8) : Prop :=
  ∃ target, (∃ rounds, ∀ more, rounds ≤ more →
      dir.searchFrom (quarantineName name timestamp) more 0 = some target) ∧
    dir.get? target = none ∧ (quarantine name timestamp dir).2 = dir.replace name target ∧
      (quarantine name timestamp dir).2.get? target = some content ∧
        ∀ k, k ≠ name → k ≠ target → (quarantine name timestamp dir).2.get? k = dir.get? k

/-- The directories and the contents found invalid in a run of loads, the last one
first. In between other programs do as they like, but for the quarantined files. -/
inductive Visits (limits : Json.Limits) (name : String) (dir₀ : Directory) :
    List (List UInt8) → Directory → Prop
  | start : Visits limits name dir₀ [] dir₀
  | others {found : List (List UInt8)} {dir dir' : Directory} : Visits limits name dir₀ found dir →
      (∀ k, IsQuarantineName name k → dir'.get? k = dir.get? k) → Visits limits name dir₀ found dir'
  | load {found : List (List UInt8)} {dir : Directory} (timestamp : String) :
      Visits limits name dir₀ found dir →
      (∀ content, dir.get? name = some content → ¬ Invalid limits content) →
      Visits limits name dir₀ found (load limits name timestamp dir).2
  | invalid {found : List (List UInt8)} {dir : Directory} {content : List UInt8}
      (timestamp : String) : Visits limits name dir₀ found dir → dir.get? name = some content →
      Invalid limits content →
      Visits limits name dir₀ (content :: found) (load limits name timestamp dir).2

section Quarantine
variable {limits : Json.Limits} {name timestamp : String} {dir dir₀ : Directory}
  {content : List UInt8} {found : List (List UInt8)}

theorem not_isQuarantineName (name : String) : ¬ IsQuarantineName name name := by
  rintro ⟨timestamp, n, h⟩
  have hlength := congrArg String.length h
  have hmark : String.length ".invalid." = 9 := rfl
  cases n with
  | zero =>
    simp only [quarantineName, String.length_append] at hlength
    omega
  | succ n =>
    simp only [quarantineName, String.length_append] at hlength
    omega

/-- The search ends, and the file is moved to the name it found. -/
theorem quarantine_moves (h : dir.get? name = some content) : Moves name timestamp dir content := by
  have hinj := quarantineName_injective name timestamp
  have hfree : dir.get? (dir.freeName (quarantineName name timestamp)) = none :=
    Dict.get?_eq_none.mpr (freeName_free hinj)
  have hname : name ≠ dir.freeName (quarantineName name timestamp) := by
    intro hname
    rw [← hname, h] at hfree
    cases hfree
  refine ⟨_, ⟨dir.keys.length + 1, fun more hmore => searchFrom_freeName hinj hmore⟩, hfree, rfl,
    ?_, fun k hk htarget => ?_⟩
  · rw [quarantine, get?_replace h, if_pos rfl]
  · rw [quarantine, get?_replace h, if_neg htarget, if_neg hk]

/-- A load changes nothing unless it finds the registry invalid. -/
theorem load_leaves (h : ∀ content, dir.get? name = some content → ¬ Invalid limits content) :
    (load limits name timestamp dir).2 = dir := by
  cases hfile : dir.get? name with
  | none => rw [load_absent hfile]
  | some content =>
    by_cases hholds : ∃ topics, Holds limits content topics
    · obtain ⟨topics, hholds⟩ := hholds
      rw [load_holds hfile hholds]
    · have hlegible : ¬ Legible limits content := fun hl =>
        h content hfile ⟨hl, fun topics ht => hholds ⟨topics, ht⟩⟩
      obtain ⟨e, he⟩ := load_illegible hfile hlegible
      rw [he]

/-- A load of an invalid registry adds its content to the quarantined ones. -/
theorem load_archives (h : dir.get? name = some content) (hinvalid : Invalid limits content)
    {kept : List (String × List UInt8)} (hkept : Archived (IsQuarantineName name) dir kept) :
    Keeps (IsQuarantineName name) dir (load limits name timestamp dir).2 ∧
      ∃ target, dir.get? target = none ∧
        Archived (IsQuarantineName name) (load limits name timestamp dir).2
          ((target, content) :: kept) := by
  obtain ⟨_, _, n, hfree, hnew, hother⟩ := @quarantine_spec _ timestamp _ _ h
  rw [load_invalid h hinvalid.1 hinvalid.2]
  have hkeep : Keeps (IsQuarantineName name) dir (quarantine name timestamp dir).2 := by
    intro k other hk hget
    have hname : k ≠ name := fun he => not_isQuarantineName name (he ▸ hk)
    have htarget : k ≠ quarantineName name timestamp n := by
      rintro rfl
      cases hfree.symm.trans hget
    rw [hother k hname htarget, hget]
  exact ⟨hkeep, _, hfree, hkept.add hkeep ⟨timestamp, n, rfl⟩ hfree hnew⟩

/-- Whatever a run of loads found invalid is kept under distinct names, apart from what
was quarantined before. -/
theorem Visits.archived (h : Visits limits name dir₀ found dir) :
    Keeps (IsQuarantineName name) dir₀ dir ∧ ∃ kept, kept.map Prod.snd = found ∧
      Archived (IsQuarantineName name) dir kept ∧
      ∀ e ∈ kept, dir₀.get? e.1 = none := by
  induction h with
  | start => exact ⟨fun _ _ _ h => h, [], rfl, ⟨List.nodup_nil, by simp⟩, by simp⟩
  | others _ hothers ih =>
    obtain ⟨hkeep, kept, hfound, harchived, hfresh⟩ := ih
    exact ⟨fun k content hk h => (hothers k hk).trans (hkeep k content hk h), kept, hfound,
      harchived.mono fun k content hk h => (hothers k hk).trans h, hfresh⟩
  | load timestamp _ hfine ih => rwa [load_leaves hfine]
  | invalid timestamp _ hfile hinvalid ih =>
    obtain ⟨hkeep, kept, hfound, harchived, hfresh⟩ := ih
    obtain ⟨hstep, target, hfree, hadded⟩ := load_archives hfile hinvalid harchived
    refine ⟨fun k content hk h => hstep k content hk (hkeep k content hk h), _,
      by rw [List.map_cons, hfound], hadded, List.forall_mem_cons.mpr ⟨?_, hfresh⟩⟩
    -- a file that had the name at the start would have it still
    cases htarget : dir₀.get? target with
    | none => rfl
    | some old =>
      have hquarantine := (hadded.kept _ List.mem_cons_self).1
      cases hfree.symm.trans (hkeep target old hquarantine htarget)

end Quarantine

/-- Quarantine loses nothing: its search ends at a free name, to which it moves the
file and no other; and whatever a run of loads found invalid is kept under distinct
names, next to all that was quarantined before. -/
theorem quarantine_keeps_all (limits : Json.Limits) (name : String) :
    (∀ (timestamp : String) (dir : Directory) (content : List UInt8),
      dir.get? name = some content → Moves name timestamp dir content) ∧
    ∀ (dir₀ : Directory) (found : List (List UInt8)) (dir : Directory), Visits limits name dir₀ found dir →
      Keeps (IsQuarantineName name) dir₀ dir ∧ ∃ kept, kept.map Prod.snd = found ∧
        Archived (IsQuarantineName name) dir kept ∧ ∀ e ∈ kept, dir₀.get? e.1 = none :=
  ⟨fun _ _ _ => quarantine_moves, fun _ _ _ => Visits.archived⟩

/-- A JSON object without a version is no registry. -/
theorem invalid_object : Invalid {} [0x7B, 0x7D] := by
  refine ⟨⟨"\x7b\x7d", by decide, by decide, by decide⟩, ?_⟩
  rintro topics ⟨raw, data, hraw, hdata, hregistry⟩
  obtain rfl : "\x7b\x7d" = raw := Option.some.inj hraw
  obtain rfl : Json.obj [] = data := Except.ok.inj hdata
  obtain ⟨fields, version, entries, hfields, hversion, _⟩ := hregistry
  cases hfields
  cases hversion

/-- An invalid registry next to a file that was quarantined in the same second. -/
def crowded : Directory :=
  (Dict.empty.insert "r.json" [0x7B, 0x7D]).insert "r.json.invalid.20240101000000" [0x31]

theorem quarantine_keeps_all_crowded :
    Moves "r.json" "20240101000000" crowded [0x7B, 0x7D] ∧
    ∃ dir kept, Visits {} "r.json" crowded [[0x7B, 0x7D], [0x7B, 0x7D]] dir ∧
      kept.map Prod.snd = [[0x7B, 0x7D], [0x7B, 0x7D]] ∧
      Archived (IsQuarantineName "r.json") dir kept ∧
      dir.get? "r.json.invalid.20240101000000" = some [0x31] := by
  have hfirst : crowded.get? "r.json" = some [0x7B, 0x7D] := rfl
  have hstart : Visits {} "r.json" crowded [] crowded := .start
  have hrun := Visits.invalid "20240101000000" hstart hfirst invalid_object
  set dir₁ := (load {} "r.json" "20240101000000" crowded).2
  -- the registry comes back as it was
  have hback : Visits {} "r.json" crowded [[0x7B, 0x7D]] (dir₁.write "r.json" [0x7B, 0x7D]) :=
    hrun.others fun k hk => by
      have hne : k ≠ "r.json" := fun he => not_isQuarantineName "r.json" (he ▸ hk)
      rw [get?_write, if_neg hne]
  have hsecond : (dir₁.write "r.json" [0x7B, 0x7D]).get? "r.json" = some [0x7B, 0x7D] := by
    rw [get?_write, if_pos rfl]
  have hrun := Visits.invalid "20240101000000" hback hsecond invalid_object
  obtain ⟨hkeep, kept, hfound, harchived, _⟩ := (quarantine_keeps_all {} "r.json").2 _ _ _ hrun
  exact ⟨(quarantine_keeps_all {} "r.json").1 _ _ _ hfirst, _, kept, hrun, hfound, harchived,
    hkeep _ _ ⟨"20240101000000", 0, rfl⟩ rfl⟩

end RegistryStore

end MochadBridge
