import Mathlib.Data.List.Basic
import Mathlib.Logic.Function.Basic
import MochadBridge.Lib.Dict

/-!
# Last-writer-wins registers

A register file gives each key its value, if it was ever written. `writes` is
the file after a list of writes; `changes` are the writes of the list that
changed the value of their key when it was their turn, which is what a
component publishes that suppresses duplicates.

Results:
1. `writes_apply`: the value of a key is the last one written to it.
2. `writes_changes`: an observer that applies only the changes sees the same
   file.
3. `valuesTo_changes_of_single`: a key that is written at most once is
   published with its new value if that changed and not at all if it did not.
-/

namespace Register

variable {κ ν : Type} [DecidableEq κ] [DecidableEq ν]

/-! ## Definitions -/

/-- One write. -/
def write (r : κ → Option ν) (w : κ × ν) : κ → Option ν := Function.update r w.1 (some w.2)

/-- The file after a list of writes. -/
def writes (r : κ → Option ν) (ws : List (κ × ν)) : κ → Option ν := ws.foldl write r

/-- The values written to one key, in order. -/
def valuesTo (k : κ) (ws : List (κ × ν)) : List ν :=
  ws.filterMap fun w => if w.1 = k then some w.2 else none

/-- The writes that change the file. -/
def changes : (κ → Option ν) → List (κ × ν) → List (κ × ν)
  | _, [] => []
  | r, w :: ws => if r w.1 = some w.2 then changes r ws else w :: changes (write r w) ws

/-! ## Writes -/

section Writes
variable {r : κ → Option ν}

omit [DecidableEq ν] in
theorem write_apply (w : κ × ν) (k : κ) : write r w k = if w.1 = k then some w.2 else r k := by
  rw [write, Function.update_apply]
  simp only [eq_comm]

omit [DecidableEq ν] in
theorem write_of_eq {w : κ × ν} (h : r w.1 = some w.2) : write r w = r := by
  rw [write, ← h, Function.update_eq_self]

omit [DecidableEq ν] in
@[simp] theorem writes_nil : writes r [] = r := rfl

omit [DecidableEq ν] in
@[simp] theorem writes_cons (w : κ × ν) (ws : List (κ × ν)) :
    writes r (w :: ws) = writes (write r w) ws := rfl

omit [DecidableEq ν] in
theorem writes_append (ws ws' : List (κ × ν)) : writes r (ws ++ ws') = writes (writes r ws) ws' :=
  List.foldl_append

omit [DecidableEq ν] in
@[simp] theorem valuesTo_nil (k : κ) : valuesTo k ([] : List (κ × ν)) = [] := rfl

omit [DecidableEq ν] in
theorem valuesTo_cons (k : κ) (w : κ × ν) (ws : List (κ × ν)) :
    valuesTo k (w :: ws) = if w.1 = k then w.2 :: valuesTo k ws else valuesTo k ws := by
  by_cases h : w.1 = k <;> simp [valuesTo, h]

omit [DecidableEq ν] in
@[simp] theorem valuesTo_append (k : κ) (ws ws' : List (κ × ν)) :
    valuesTo k (ws ++ ws') = valuesTo k ws ++ valuesTo k ws' :=
  List.filterMap_append

omit [DecidableEq ν] in
/-- The value of a key is the last one written to it. -/
theorem writes_apply (ws : List (κ × ν)) (k : κ) :
    writes r ws k = ((valuesTo k ws).getLast?).or (r k) := by
  induction ws generalizing r with
  | nil => rfl
  | cons w ws ih =>
    rw [writes_cons, ih, write_apply, valuesTo_cons]
    split
    · next h => rw [List.getLast?_cons]; cases (valuesTo k ws).getLast? <;> rfl
    · rfl

omit [DecidableEq ν] in
theorem writes_of_valuesTo_eq_nil {ws : List (κ × ν)} {k : κ} (h : valuesTo k ws = []) :
    writes r ws k = r k := by
  rw [writes_apply, h]
  rfl

end Writes

/-! ## Changes -/

section Changes
variable {r : κ → Option ν}

@[simp] theorem changes_nil : changes r [] = [] := rfl

theorem changes_append (ws ws' : List (κ × ν)) :
    changes r (ws ++ ws') = changes r ws ++ changes (writes r ws) ws' := by
  induction ws generalizing r with
  | nil => rfl
  | cons w ws ih =>
    simp only [List.cons_append, changes, ih, writes_cons]
    split
    · next h => rw [write_of_eq h]
    · rfl

theorem mem_of_mem_changes {ws : List (κ × ν)} {w : κ × ν} (h : w ∈ changes r ws) : w ∈ ws := by
  induction ws generalizing r with
  | nil => exact h
  | cons w' ws ih =>
    simp only [changes] at h
    split at h
    · exact List.mem_cons_of_mem _ (ih h)
    · rcases List.mem_cons.mp h with rfl | h
      · exact List.mem_cons_self
      · exact List.mem_cons_of_mem _ (ih h)

/-- An observer of the changes sees the same file. -/
theorem writes_changes (ws : List (κ × ν)) : writes r (changes r ws) = writes r ws := by
  induction ws generalizing r with
  | nil => rfl
  | cons w ws ih =>
    simp only [changes]
    split
    · next h => rw [writes_cons, write_of_eq h, ih]
    · rw [writes_cons, writes_cons, ih]

theorem valuesTo_changes_sublist (k : κ) (ws : List (κ × ν)) :
    (valuesTo k (changes r ws)).Sublist (valuesTo k ws) := by
  induction ws generalizing r with
  | nil => exact .refl _
  | cons w ws ih =>
    simp only [changes]
    split
    · rw [valuesTo_cons]
      split
      · exact (ih).cons _
      · exact ih
    · rw [valuesTo_cons, valuesTo_cons]
      split
      · exact (ih).cons_cons _
      · exact ih

theorem valuesTo_changes_eq_nil {ws : List (κ × ν)} {k : κ} (h : valuesTo k ws = []) :
    valuesTo k (changes r ws) = [] :=
  List.eq_nil_of_sublist_nil (h ▸ valuesTo_changes_sublist k ws)

/-- Of a single write to a key, the change is the write itself or nothing. -/
theorem valuesTo_changes {ws : List (κ × ν)} {k : κ} (h : (valuesTo k ws).length ≤ 1) :
    valuesTo k (changes r ws) = (valuesTo k ws).filter fun v => r k ≠ some v := by
  induction ws generalizing r with
  | nil => rfl
  | cons w ws ih =>
    simp only [changes]
    by_cases hk : w.1 = k
    · rw [valuesTo_cons, if_pos hk] at h
      have hnil : valuesTo k ws = [] := List.eq_nil_of_length_eq_zero (by simpa using h)
      rw [hk, valuesTo_cons, if_pos hk, hnil]
      split
      · next he => simp [valuesTo_changes_eq_nil hnil, he]
      · next he => simp [valuesTo_cons, hk, valuesTo_changes_eq_nil hnil, he]
    · rw [valuesTo_cons, if_neg hk] at h
      rw [valuesTo_cons k w ws, if_neg hk]
      split
      · exact ih h
      · rw [valuesTo_cons, if_neg hk, ih h, write_apply, if_neg hk]

/-- A key that is written at most once is published exactly if it changed. -/
theorem valuesTo_changes_of_single {ws : List (κ × ν)} {k : κ} (h : (valuesTo k ws).length ≤ 1) :
    valuesTo k (changes r ws) =
      if writes r ws k = r k then [] else (writes r ws k).toList := by
  rw [valuesTo_changes h, writes_apply]
  match valuesTo k ws, h with
  | [], _ => simp
  | [v], _ => by_cases he : r k = some v <;> simp [he, eq_comm]

end Changes

/-! ## Writes of a walk over a dictionary -/

omit [DecidableEq ν] in
theorem valuesTo_of_fst {k k' : κ} {ws : List (κ × ν)} (h : ∀ w ∈ ws, w.1 = k') :
    valuesTo k ws = if k' = k then ws.map Prod.snd else [] := by
  induction ws with
  | nil => simp
  | cons w ws ih =>
    rw [valuesTo_cons, ih fun w' hw' => h w' (List.mem_cons_of_mem _ hw'),
      h w List.mem_cons_self]
    split <;> rfl

omit [DecidableEq ν] in
/-- If each entry writes only its own key, a key is written by its own entry. -/
theorem valuesTo_flatMap_entries {μ : Type} (d : Py.Dict κ μ) {f : κ × μ → List (κ × ν)}
    (hf : ∀ e ∈ d.entries, ∀ w ∈ f e, w.1 = e.1) (k : κ) :
    valuesTo k (d.entries.flatMap f) =
      match d.get? k with
      | some v => (f (k, v)).map Prod.snd
      | none => [] := by
  obtain ⟨l, hn⟩ := d
  simp only [Py.Dict.get?] at hf ⊢
  induction l with
  | nil => rfl
  | cons e l ih =>
    obtain ⟨k', v'⟩ := e
    rw [List.map_cons, List.nodup_cons] at hn
    rw [List.flatMap_cons, valuesTo_append, valuesTo_of_fst (hf (k', v') List.mem_cons_self),
      ih hn.2 fun e he => hf e (List.mem_cons_of_mem _ he)]
    by_cases hk : k' = k
    · subst hk
      simp [Py.Dict.find, Py.Dict.find_eq_none.mpr hn.1]
    · simp [Py.Dict.find, hk]

end Register
