import Mathlib.Data.List.Forall2
import Mathlib.Data.List.Nodup
import Mathlib.Data.List.Perm.Subperm

/-!
# Insertion-ordered dictionaries

A finite map that remembers the order in which its keys were first inserted:
assigning to a present key changes the value in place, assigning to a new key
appends it, and iteration follows that order. This is the order a `dict`
literal, a `dict` comprehension and a loop over `.items()` observe.

The keys are pairwise distinct by construction (`Dict.nodup`), so a lookup and
a walk over the entries cannot disagree (`Dict.mem_entries`).
-/

namespace Py

variable {κ ν μ : Type}

/-- An insertion-ordered finite map. -/
@[ext] structure Dict (κ ν : Type) where
  entries : List (κ × ν)
  nodup : (entries.map Prod.fst).Nodup

namespace Dict

/-! ## Operations on the entry list -/

section Entries
variable [DecidableEq κ]

/-- The value stored under `k`, if any. -/
def find (k : κ) : List (κ × ν) → Option ν
  | [] => none
  | (k', v) :: rest => if k' = k then some v else find k rest

/-- Replace the value of `k` in place, or append the pair. -/
def set (k : κ) (v : ν) : List (κ × ν) → List (κ × ν)
  | [] => [(k, v)]
  | (k', v') :: rest => if k' = k then (k, v) :: rest else (k', v') :: set k v rest

theorem find_eq_none {k : κ} {l : List (κ × ν)} : find k l = none ↔ k ∉ l.map Prod.fst := by
  induction l with
  | nil => simp [find]
  | cons e l ih =>
    obtain ⟨k', v⟩ := e
    by_cases h : k' = k
    · simp [find, h]
    · simp [find, h, ih, Ne.symm h]

theorem find_set (k k' : κ) (v : ν) (l : List (κ × ν)) :
    find k' (set k v l) = if k = k' then some v else find k' l := by
  induction l with
  | nil => simp [find, set]
  | cons e l ih =>
    obtain ⟨k₀, v₀⟩ := e
    simp only [set]
    split
    · next h => subst h; by_cases hk : k₀ = k' <;> simp [find, hk]
    · next h =>
      simp only [find, ih]
      by_cases h₀ : k₀ = k'
      · subst h₀; simp [Ne.symm h]
      · simp [h₀]

theorem map_fst_set (k : κ) (v : ν) (l : List (κ × ν)) :
    (set k v l).map Prod.fst =
      if k ∈ l.map Prod.fst then l.map Prod.fst else l.map Prod.fst ++ [k] := by
  induction l with
  | nil => simp [set]
  | cons e l ih =>
    obtain ⟨k', v'⟩ := e
    by_cases h : k' = k
    · simp [set, h]
    · simp only [set, h, if_false, List.map_cons, ih, List.mem_cons, Ne.symm h, false_or]
      split <;> simp

theorem nodup_set {k : κ} {v : ν} {l : List (κ × ν)} (h : (l.map Prod.fst).Nodup) :
    ((set k v l).map Prod.fst).Nodup := by
  rw [map_fst_set]
  split
  · exact h
  · next hk =>
    refine List.nodup_append.mpr ⟨h, by simp, ?_⟩
    rintro a ha b hb rfl
    exact hk (List.mem_singleton.mp hb ▸ ha)

theorem set_set (k : κ) (v w : ν) (l : List (κ × ν)) : set k w (set k v l) = set k w l := by
  induction l with
  | nil => simp [set]
  | cons e l ih =>
    obtain ⟨k', v'⟩ := e
    by_cases h : k' = k
    · simp [set, h]
    · simp [set, h, ih]

theorem set_of_find {k : κ} {v : ν} {l : List (κ × ν)} (h : find k l = some v) : set k v l = l := by
  induction l with
  | nil => simp [find] at h
  | cons e l ih =>
    obtain ⟨k', v'⟩ := e
    simp only [find] at h
    split at h
    · next hk => cases h; simp [set, hk]
    · next hk => simp [set, hk, ih h]

theorem mem_of_find {k : κ} {v : ν} {l : List (κ × ν)} (h : find k l = some v) : (k, v) ∈ l := by
  induction l with
  | nil => simp [find] at h
  | cons e l ih =>
    obtain ⟨k', v'⟩ := e
    simp only [find] at h
    split at h
    · next hk => cases h; subst hk; exact List.mem_cons_self
    · exact List.mem_cons_of_mem _ (ih h)

theorem find_of_mem {k : κ} {v : ν} {l : List (κ × ν)} (hn : (l.map Prod.fst).Nodup)
    (h : (k, v) ∈ l) : find k l = some v := by
  induction l with
  | nil => simp at h
  | cons e l ih =>
    obtain ⟨k', v'⟩ := e
    rw [List.map_cons, List.nodup_cons] at hn
    cases h with
    | head => simp [find]
    | tail _ h' =>
      have hk : k ∈ l.map Prod.fst := List.mem_map.mpr ⟨(k, v), h', rfl⟩
      have hne : k' ≠ k := fun he => hn.1 (he ▸ hk)
      simp [find, hne, ih hn.2 h']

end Entries

/-- Where the keys are distinct, a search by key finds the element. -/
theorem find?_of_nodup_map {f : ν → κ} [BEq κ] [LawfulBEq κ] {l : List ν} (hn : (l.map f).Nodup)
    {x : ν} (hx : x ∈ l) : l.find? (f · == f x) = some x := by
  cases hf : l.find? (f · == f x) with
  | none => exact absurd (beq_self_eq_true _) (List.find?_eq_none.mp hf x hx)
  | some y =>
    have hy : f y = f x := by
      have hkey := List.find?_some hf
      exact eq_of_beq hkey
    rw [List.inj_on_of_nodup_map hn (List.mem_of_find?_eq_some hf) hx hy]

/-! ## The dictionary operations -/

/-- The dictionary without entries. -/
def empty : Dict κ ν := ⟨[], List.nodup_nil⟩

/-- `d.keys()`, in insertion order. -/
def keys (d : Dict κ ν) : List κ := d.entries.map Prod.fst

/-- `d.values()`, in insertion order. -/
def values (d : Dict κ ν) : List ν := d.entries.map Prod.snd

/-- `{k: f(v) for k, v in d.items()}`. -/
def mapValues (f : ν → μ) (d : Dict κ ν) : Dict κ μ where
  entries := d.entries.map fun e => (e.1, f e.2)
  nodup := by simpa [List.map_map, Function.comp_def] using d.nodup

/-- `{k: v for k, v in d.items() if p(k)}`. -/
def filterKeys (p : κ → Bool) (d : Dict κ ν) : Dict κ ν where
  entries := d.entries.filter fun e => p e.1
  nodup := d.nodup.sublist (List.filter_sublist.map Prod.fst)

variable [DecidableEq κ]

/-- `d.get(k)`. -/
def get? (d : Dict κ ν) (k : κ) : Option ν := find k d.entries

/-- `d[k] = v`. -/
def insert (d : Dict κ ν) (k : κ) (v : ν) : Dict κ ν := ⟨set k v d.entries, nodup_set d.nodup⟩

/-- Equality of dictionaries as Python compares them: the same keys with equal
values, in any order. -/
def sameItems [DecidableEq ν] (d e : Dict κ ν) : Bool :=
  d.entries.length == e.entries.length && d.entries.all fun x => e.get? x.1 == some x.2

/-- A dictionary built by assigning the pairs in order. -/
def ofPairs (l : List (κ × ν)) : Dict κ ν := l.foldl (fun d e => d.insert e.1 e.2) empty

/-! ## Lookup -/

@[simp] theorem get?_empty (k : κ) : (empty : Dict κ ν).get? k = none := rfl

theorem get?_insert (d : Dict κ ν) (k k' : κ) (v : ν) :
    (d.insert k v).get? k' = if k = k' then some v else d.get? k' :=
  find_set k k' v d.entries

@[simp] theorem get?_insert_self (d : Dict κ ν) (k : κ) (v : ν) :
    (d.insert k v).get? k = some v := by
  simp [get?_insert]

theorem get?_insert_of_ne (d : Dict κ ν) {k k' : κ} (v : ν) (h : k ≠ k') :
    (d.insert k v).get? k' = d.get? k' := by
  simp [get?_insert, h]

/-- The last assignment to a key counts. -/
@[simp] theorem insert_insert (d : Dict κ ν) (k : κ) (v w : ν) :
    (d.insert k v).insert k w = d.insert k w :=
  Dict.ext (set_set k v w d.entries)

/-- Assigning the value a key already has changes nothing. -/
theorem insert_of_get? {d : Dict κ ν} {k : κ} {v : ν} (h : d.get? k = some v) : d.insert k v = d :=
  Dict.ext (set_of_find h)

theorem mem_keys {d : Dict κ ν} {k : κ} : k ∈ d.keys ↔ d.get? k ≠ none := by
  rw [get?, ne_eq, find_eq_none, not_not, keys]

theorem get?_eq_none {d : Dict κ ν} {k : κ} : d.get? k = none ↔ k ∉ d.keys := by
  rw [mem_keys, not_not]

theorem mem_entries {d : Dict κ ν} {k : κ} {v : ν} : (k, v) ∈ d.entries ↔ d.get? k = some v :=
  ⟨find_of_mem d.nodup, mem_of_find⟩

theorem mem_values {d : Dict κ ν} {v : ν} : v ∈ d.values ↔ ∃ k, d.get? k = some v := by
  simp only [values, List.mem_map, Prod.exists, mem_entries]
  exact ⟨fun ⟨k, _, h, he⟩ => ⟨k, he ▸ h⟩, fun ⟨k, h⟩ => ⟨k, v, h, rfl⟩⟩

theorem keys_insert (d : Dict κ ν) (k : κ) (v : ν) :
    (d.insert k v).keys = if k ∈ d.keys then d.keys else d.keys ++ [k] :=
  map_fst_set k v d.entries

theorem mem_keys_insert {d : Dict κ ν} {k k' : κ} {v : ν} :
    k' ∈ (d.insert k v).keys ↔ k' = k ∨ k' ∈ d.keys := by
  rw [keys_insert]
  split
  · next h => exact ⟨Or.inr, fun h' => h'.elim (fun e => e ▸ h) id⟩
  · rw [List.mem_append, List.mem_singleton, or_comm]

/-! ## Mapping and filtering -/

omit [DecidableEq κ] in
@[simp] theorem keys_mapValues (f : ν → μ) (d : Dict κ ν) : (d.mapValues f).keys = d.keys := by
  simp [keys, mapValues, List.map_map, Function.comp_def]

theorem find_map (f : ν → μ) (k : κ) (l : List (κ × ν)) :
    find k (l.map fun e => (e.1, f e.2)) = (find k l).map f := by
  induction l with
  | nil => rfl
  | cons e l ih =>
    simp only [List.map_cons, find, ih]
    split <;> rfl

@[simp] theorem get?_mapValues (f : ν → μ) (d : Dict κ ν) (k : κ) :
    (d.mapValues f).get? k = (d.get? k).map f :=
  find_map f k d.entries

theorem find_filter (p : κ → Bool) (k : κ) (l : List (κ × ν)) :
    find k (l.filter fun e => p e.1) = if p k then find k l else none := by
  induction l with
  | nil => simp [find]
  | cons e l ih =>
    obtain ⟨k', v⟩ := e
    by_cases hk : k' = k
    · subst hk
      by_cases hp : p k'
      · simp [hp, find]
      · simp [hp, ih]
    · by_cases hp : p k'
      · simp [hp, find, hk, ih]
      · simp [hp, find, hk, ih]

theorem get?_filterKeys (p : κ → Bool) (d : Dict κ ν) (k : κ) :
    (d.filterKeys p).get? k = if p k then d.get? k else none :=
  find_filter p k d.entries

theorem set_of_not_mem {k : κ} (v : ν) {l : List (κ × ν)} (h : k ∉ l.map Prod.fst) :
    set k v l = l ++ [(k, v)] := by
  induction l with
  | nil => rfl
  | cons e l ih =>
    rw [List.map_cons, List.mem_cons, not_or] at h
    obtain ⟨k', v'⟩ := e
    rw [set, if_neg (Ne.symm h.1), ih h.2, List.cons_append]

/-- Pairs with distinct keys keep their order. -/
theorem entries_ofPairs {l : List (κ × ν)} (h : (l.map Prod.fst).Nodup) :
    (ofPairs l).entries = l := by
  have hfold : ∀ (l : List (κ × ν)) (d : Dict κ ν), ((d.entries ++ l).map Prod.fst).Nodup →
      (l.foldl (fun d e => d.insert e.1 e.2) d).entries = d.entries ++ l := by
    intro l
    induction l with
    | nil =>
      intro d _
      exact (List.append_nil _).symm
    | cons e l ih =>
      intro d hd
      have hentries : (d.insert e.1 e.2).entries = d.entries ++ [e] := by
        refine set_of_not_mem e.2 fun hmem => ?_
        rw [List.map_append, List.nodup_append'] at hd
        exact hd.2.2 hmem (by simp)
      rw [List.foldl_cons, ih _ (by rw [hentries, List.append_assoc]; exact hd), hentries,
        List.append_assoc, List.singleton_append]
  exact hfold l empty h

theorem mem_of_foldl_insert {k : κ} {v : ν} {l : List (κ × ν)} {d : Dict κ ν}
    (h : (l.foldl (fun d e => d.insert e.1 e.2) d).get? k = some v) :
    (k, v) ∈ l ∨ d.get? k = some v := by
  induction l generalizing d with
  | nil => exact .inr h
  | cons e l ih =>
    rcases ih h with hmem | hget
    · exact .inl (List.mem_cons_of_mem _ hmem)
    · rw [get?_insert] at hget
      split at hget
      · next hk =>
        subst hk
        cases hget
        exact .inl List.mem_cons_self
      · exact .inr hget

/-- The entries of a dict made of pairs are among the pairs. -/
theorem mem_of_ofPairs {e : κ × ν} {l : List (κ × ν)} (h : e ∈ (ofPairs l).entries) : e ∈ l := by
  rcases mem_of_foldl_insert (mem_entries.mp h) with hmem | hget
  · exact hmem
  · cases hget

theorem get?_foldl_of_not_mem {k : κ} {l : List (κ × ν)} (h : k ∉ l.map Prod.fst)
    (d : Dict κ ν) : (l.foldl (fun d e => d.insert e.1 e.2) d).get? k = d.get? k := by
  induction l generalizing d with
  | nil => rfl
  | cons e l ih =>
    rw [List.map_cons, List.mem_cons, not_or] at h
    rw [List.foldl_cons, ih h.2, get?_insert_of_ne _ _ (Ne.symm h.1)]

/-- No later pair overrides the first one. -/
theorem get?_ofPairs_cons {k : κ} {l : List (κ × ν)} (v : ν) (h : k ∉ l.map Prod.fst) :
    (ofPairs ((k, v) :: l)).get? k = some v := by
  rw [ofPairs, List.foldl_cons, get?_foldl_of_not_mem h, get?_insert_self]

theorem lookup_entries [BEq κ] [LawfulBEq κ] (d : Dict κ ν) (k : κ) :
    d.entries.lookup k = d.get? k := by
  unfold get?
  induction d.entries with
  | nil => rfl
  | cons e l ih =>
    obtain ⟨k', v⟩ := e
    rw [List.lookup_cons, find, ih]
    by_cases hk : k' = k
    · simp [hk]
    · rw [beq_eq_false_iff_ne.mpr (Ne.symm hk), if_neg hk]

/-- A value for each element of a list whose keys are distinct. -/
theorem get?_foldl_insert (f : ν → κ) {l : List ν} (hn : (l.map f).Nodup) (d : Dict κ ν) (k : κ) :
    (l.foldl (fun d x => d.insert (f x) x) d).get? k =
      (l.find? fun x => f x = k).or (d.get? k) := by
  induction l generalizing d with
  | nil => rfl
  | cons x l ih =>
    rw [List.map_cons, List.nodup_cons] at hn
    rw [List.foldl_cons, ih hn.2, get?_insert, List.find?_cons]
    by_cases hk : f x = k
    · have hnone : l.find? (fun x => f x = k) = none := by
        rw [List.find?_eq_none]
        intro y hy he
        rw [decide_eq_true_eq, ← hk] at he
        exact hn.1 (he ▸ List.mem_map_of_mem hy)
      rw [hnone, if_pos hk, decide_eq_true hk]
      rfl
    · rw [if_neg hk, decide_eq_false hk]

/-- A dictionary whose keys are read off its values is built again from the
values, in whatever order. -/
theorem get?_of_values (f : ν → κ) {d : Dict κ ν} (hf : ∀ k v, d.get? k = some v → f v = k)
    {l : List ν} (hl : l.Perm d.values) (k : κ) :
    (l.foldl (fun e v => e.insert (f v) v) (empty : Dict κ ν)).get? k = d.get? k := by
  have hkeys : d.values.map f = d.keys := by
    rw [values, keys, List.map_map]
    refine List.map_congr_left ?_
    rintro ⟨k, v⟩ hmem
    exact hf k v (mem_entries.mp hmem)
  have hnodup : (l.map f).Nodup := by
    rw [(hl.map f).nodup_iff, hkeys]
    exact d.nodup
  rw [get?_foldl_insert _ hnodup, get?_empty, Option.or_none]
  cases hk : d.get? k with
  | none =>
    rw [List.find?_eq_none]
    intro v hv he
    obtain ⟨k', hv'⟩ := mem_values.mp (hl.mem_iff.mp hv)
    rw [decide_eq_true_eq, hf k' v hv'] at he
    rw [he, hk] at hv'
    cases hv'
  | some v =>
    have hv : v ∈ l := hl.mem_iff.mpr (mem_values.mpr ⟨k, hk⟩)
    have hfind := find?_of_nodup_map hnodup hv
    rw [hf k v hk] at hfind
    exact hfind

/-! ## Equality up to order -/

/-- A dictionary inside another one of the same size has every entry of it. -/
theorem sameItems_iff [DecidableEq ν] {d e : Dict κ ν} :
    d.sameItems e = true ↔ ∀ k, d.get? k = e.get? k := by
  constructor
  · intro h k
    simp only [sameItems, Bool.and_eq_true, beq_iff_eq, List.all_eq_true] at h
    obtain ⟨hlen, hall⟩ := h
    have hsub : d.keys ⊆ e.keys := by
      intro k hk
      obtain ⟨x, hx, rfl⟩ := List.mem_map.mp hk
      exact mem_keys.mpr (by simp [hall x hx])
    cases hd : d.get? k with
    | some v => exact (hall (k, v) (mem_entries.mpr hd)).symm
    | none =>
      have hperm : e.keys ⊆ d.keys :=
        (List.subperm_of_subset d.nodup hsub).perm_of_length_le
          (by simp [keys, hlen]) |>.symm.subset
      exact (get?_eq_none.mpr fun hk => get?_eq_none.mp hd (hperm hk)).symm
  · intro h
    have hkeys : ∀ k, k ∈ d.keys ↔ k ∈ e.keys := fun k => by rw [mem_keys, mem_keys, h]
    have hperm := (List.perm_ext_iff_of_nodup d.nodup e.nodup).mpr hkeys
    simp only [sameItems, Bool.and_eq_true, beq_iff_eq, List.all_eq_true]
    refine ⟨by simpa using hperm.length_eq, ?_⟩
    rintro ⟨k, v⟩ hx
    rw [← h]
    exact mem_entries.mp hx

/-! ## Dictionaries side by side -/

/-- The same keys in the same order, with related values. -/
def Paired (R : ν → μ → Prop) (d : Dict κ ν) (e : Dict κ μ) : Prop :=
  List.Forall₂ (fun x y => x.1 = y.1 ∧ R x.2 y.2) d.entries e.entries

namespace Paired

variable {R : ν → μ → Prop} {d : Dict κ ν} {e : Dict κ μ}

omit [DecidableEq κ] in
theorem refl {R : ν → ν → Prop} (hR : ∀ v, R v v) (d : Dict κ ν) : Paired R d d :=
  List.forall₂_same.mpr fun x _ => ⟨rfl, hR x.2⟩

omit [DecidableEq κ] in
theorem keys (h : Paired R d e) : e.keys = d.keys := by
  have hkeys : List.Forall₂ Eq (d.entries.map Prod.fst) (e.entries.map Prod.fst) :=
    List.forall₂_map_left_iff.mpr (List.forall₂_map_right_iff.mpr (h.imp fun _ _ hxy => hxy.1))
  exact (List.forall₂_eq_eq_eq ▸ hkeys : d.keys = e.keys).symm

omit [DecidableEq κ] in
theorem values (h : Paired R d e) : List.Forall₂ R d.values e.values :=
  List.forall₂_map_left_iff.mpr (List.forall₂_map_right_iff.mpr (h.imp fun _ _ hxy => hxy.2))

omit [DecidableEq κ] in
theorem filterKeys (h : Paired R d e) (p : κ → Bool) :
    Paired R (d.filterKeys p) (e.filterKeys p) := by
  obtain ⟨entries, _⟩ := d
  obtain ⟨entries', _⟩ := e
  show List.Forall₂ _ (entries.filter _) (entries'.filter _)
  have h : List.Forall₂ (fun x y => x.1 = y.1 ∧ R x.2 y.2) entries entries' := h
  clear * - h
  induction h with
  | nil => exact .nil
  | cons hxy _ ih =>
    simp only [List.filter_cons, hxy.1]
    split
    · exact .cons hxy ih
    · exact ih

theorem get? (h : Paired R d e) (k : κ) : Option.Rel R (d.get? k) (e.get? k) := by
  obtain ⟨entries, _⟩ := d
  obtain ⟨entries', _⟩ := e
  show Option.Rel R (find k entries) (find k entries')
  have h : List.Forall₂ (fun x y => x.1 = y.1 ∧ R x.2 y.2) entries entries' := h
  clear * - h
  induction h with
  | nil => exact .none
  | cons hxy _ ih =>
    simp only [find, hxy.1]
    split
    · exact .some hxy.2
    · exact ih

theorem insert (h : Paired R d e) (k : κ) {v : ν} {w : μ} (hvw : R v w) :
    Paired R (d.insert k v) (e.insert k w) := by
  obtain ⟨entries, _⟩ := d
  obtain ⟨entries', _⟩ := e
  show List.Forall₂ _ (set k v entries) (set k w entries')
  have h : List.Forall₂ (fun x y => x.1 = y.1 ∧ R x.2 y.2) entries entries' := h
  clear * - h hvw
  induction h with
  | nil => exact .cons ⟨rfl, hvw⟩ .nil
  | cons hxy hrest ih =>
    simp only [set, hxy.1]
    split
    · exact .cons ⟨rfl, hvw⟩ hrest
    · exact .cons ⟨rfl, hxy.2⟩ ih

end Paired

end Dict

end Py
