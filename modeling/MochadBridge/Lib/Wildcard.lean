import Mathlib.Data.List.Forall2

/-!
# Patterns with wildcards

A pattern is a list of tokens: a symbol that stands for itself, or a wildcard for a run of
symbols of some kind. `accepts` tries all ways to cut a text into such runs.

Results:
1. `accepts_cons`, `accepts_append`: a text that a pattern accepts falls apart into what
   its parts accept.
2. `accepts_segments`: a pattern whose segments cannot take a separator accepts a text
   exactly if they accept the segments of the text one by one.
-/

namespace Wildcard

variable {α : Type}

/-- One token of a pattern. -/
inductive Token (α : Type) where
  | lit (a : α)
  | plus (allowed : α → Bool)
  | star (allowed : α → Bool)

/-- The runs that a token stands for. -/
def Token.Takes : Token α → List α → Prop
  | .lit a, run => run = [a]
  | .plus allowed, run => run ≠ [] ∧ ∀ b ∈ run, allowed b = true
  | .star allowed, run => ∀ b ∈ run, allowed b = true

/-- The token takes no separator. -/
def Token.Within (t : Token α) (sep : α) : Prop := ∀ run, t.Takes run → sep ∉ run

/-- A joined pattern comes from joined parts. -/
theorem map_intercalate {β : Type} (f : α → β) (sep : List α) (parts : List (List α)) :
    (sep.intercalate parts).map f = (sep.map f).intercalate (parts.map (List.map f)) := by
  induction parts with
  | nil => rfl
  | cons part parts ih =>
    cases parts with
    | nil => simp
    | cons part' parts =>
      simp only [List.map_cons] at ih ⊢
      rw [List.intercalate_cons_cons, List.map_append, List.map_append, ih,
        List.intercalate_cons_cons]

section Accepts
variable [DecidableEq α]

/-- The pattern matches the whole text. -/
def accepts : List (Token α) → List α → Bool
  | [], l => l.isEmpty
  | .lit _ :: _, [] => false
  | .lit a :: ts, b :: l => a == b && accepts ts l
  | .plus allowed :: ts, l => (List.range l.length).any fun n =>
    (l.take (n + 1)).all allowed && accepts ts (l.drop (n + 1))
  | .star allowed :: ts, l => (List.range (l.length + 1)).any fun n =>
    (l.take n).all allowed && accepts ts (l.drop n)

theorem accepts_cons (t : Token α) (ts : List (Token α)) (l : List α) :
    accepts (t :: ts) l = true ↔
      ∃ run rest, l = run ++ rest ∧ t.Takes run ∧ accepts ts rest = true := by
  cases t with
  | lit a =>
    cases l with
    | nil => simp [accepts, Token.Takes]
    | cons b l =>
      simp only [accepts, Bool.and_eq_true, beq_iff_eq]
      constructor
      · rintro ⟨rfl, h⟩
        exact ⟨[a], l, rfl, rfl, h⟩
      · rintro ⟨_, rest, hl, rfl, h⟩
        obtain ⟨rfl, rfl⟩ := List.cons.inj hl
        exact ⟨rfl, h⟩
  | plus allowed =>
    simp only [accepts, List.any_eq_true, List.mem_range, Bool.and_eq_true, List.all_eq_true]
    constructor
    · rintro ⟨n, hn, hrun, h⟩
      refine ⟨_, _, (List.take_append_drop (n + 1) l).symm, ⟨?_, hrun⟩, h⟩
      simpa using List.ne_nil_of_length_pos (Nat.zero_lt_of_lt hn)
    · rintro ⟨run, rest, rfl, ⟨hne, hrun⟩, h⟩
      obtain ⟨n, hn⟩ := Nat.exists_eq_succ_of_ne_zero (mt List.length_eq_zero_iff.mp hne)
      refine ⟨n, by simp only [List.length_append]; omega, ?_, ?_⟩
      · rwa [← Nat.succ_eq_add_one, ← hn, List.take_left]
      · rwa [← Nat.succ_eq_add_one, ← hn, List.drop_left]
  | star allowed =>
    simp only [accepts, List.any_eq_true, List.mem_range, Bool.and_eq_true, List.all_eq_true]
    constructor
    · rintro ⟨n, _, hrun, h⟩
      exact ⟨_, _, (List.take_append_drop n l).symm, hrun, h⟩
    · rintro ⟨run, rest, rfl, hrun, h⟩
      refine ⟨run.length, by simp only [List.length_append]; omega, ?_, ?_⟩
      · rwa [List.take_left]
      · rwa [List.drop_left]

theorem accepts_append (ts us : List (Token α)) (l : List α) :
    accepts (ts ++ us) l = true ↔
      ∃ front back, l = front ++ back ∧ accepts ts front = true ∧ accepts us back = true := by
  induction ts generalizing l with
  | nil =>
    simp only [List.nil_append, accepts, List.isEmpty_iff]
    exact ⟨fun h => ⟨[], l, rfl, rfl, h⟩, by rintro ⟨_, _, rfl, rfl, h⟩; exact h⟩
  | cons t ts ih =>
    simp only [List.cons_append, accepts_cons, ih]
    constructor
    · rintro ⟨run, _, rfl, hrun, front, back, rfl, hfront, hback⟩
      exact ⟨run ++ front, back, (List.append_assoc ..).symm, ⟨run, front, rfl, hrun, hfront⟩, hback⟩
    · rintro ⟨_, back, rfl, ⟨run, front, rfl, hrun, hfront⟩, hback⟩
      exact ⟨run, front ++ back, List.append_assoc .., hrun, front, back, rfl, hfront, hback⟩

/-- A pattern of such tokens takes no separator. -/
theorem not_mem_of_accepts {sep : α} {ts : List (Token α)} (hts : ∀ t ∈ ts, t.Within sep)
    {l : List α} (h : accepts ts l = true) : sep ∉ l := by
  induction ts generalizing l with
  | nil => simp [List.isEmpty_iff.mp h]
  | cons t ts ih =>
    obtain ⟨run, rest, rfl, hrun, hrest⟩ := (accepts_cons t ts l).mp h
    rw [List.mem_append, not_or]
    exact ⟨hts t List.mem_cons_self run hrun, ih (fun u hu => hts u (List.mem_cons_of_mem t hu)) hrest⟩

/-- The segments of the text are accepted one by one. -/
theorem accepts_segments {sep : α} {segments : List (List (Token α))} (hne : segments ≠ [])
    (hts : ∀ ts ∈ segments, ∀ t ∈ ts, t.Within sep) (l : List α) :
    accepts ([.lit sep].intercalate segments) l = true ↔
      List.Forall₂ (fun ts part => accepts ts part = true) segments (l.splitOn sep) := by
  induction segments generalizing l with
  | nil => exact absurd rfl hne
  | cons ts segments ih =>
    have hwithin := hts ts List.mem_cons_self
    cases segments with
    | nil =>
      rw [List.intercalate_singleton]
      constructor
      · intro h
        rw [List.splitOn_eq_singleton (not_mem_of_accepts hwithin h)]
        exact .cons h .nil
      · intro h
        generalize hparts : l.splitOn sep = parts at h
        cases h with
        | cons h hnil =>
          cases hnil
          have hjoin : [sep].intercalate (l.splitOn sep) = l := List.intercalate_splitOn sep
          rw [hparts, List.intercalate_singleton] at hjoin
          exact hjoin ▸ h
    | cons us segments =>
      have hrest := ih (List.cons_ne_nil _ _) fun vs hvs => hts vs (List.mem_cons_of_mem ts hvs)
      rw [List.intercalate_cons_cons, List.append_assoc, List.singleton_append, accepts_append]
      constructor
      · rintro ⟨front, back, rfl, hfront, hback⟩
        obtain ⟨_, rest, rfl, rfl, htail⟩ := (accepts_cons _ _ _).mp hback
        rw [List.singleton_append, List.splitOn_append_cons_self,
          List.splitOn_eq_singleton (not_mem_of_accepts hwithin hfront)]
        exact .cons hfront ((hrest rest).mp htail)
      · intro h
        -- without a separator there would be one part for two patterns
        by_cases hmem : sep ∈ l
        · obtain ⟨front, rest, rfl, hfree⟩ := List.eq_append_cons_of_mem hmem
          rw [List.splitOn_append_cons_self, List.splitOn_eq_singleton hfree] at h
          cases h with
          | cons hfront h =>
            exact ⟨front, sep :: rest, rfl, hfront,
              (accepts_cons _ _ _).mpr ⟨[sep], rest, rfl, rfl, (hrest rest).mpr h⟩⟩
        · rw [List.splitOn_eq_singleton hmem] at h
          cases h with
          | cons _ h => cases h

end Accepts

end Wildcard
