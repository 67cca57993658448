import MochadBridge.Lib.Text

/-!
# Topic filters

A subscription names topics by a filter: a list of levels, each a text, `+` for any one
level, or `#` for whatever follows. A broker delivers the topics that the filter accepts.

Results:
1. `accepts_texts`: a filter that starts with texts accepts what starts with them.
2. `accepts_one`: what a filter with one `+` accepts.
3. `accepts_below`: what a filter with a last `#` accepts.
-/

namespace TopicFilter

/-- One level of a filter. -/
inductive Level (α : Type) where
  | text (a : α)
  | one
  | rest

section Levels
variable {α : Type} [DecidableEq α]

/-- The filter accepts the levels of a topic. -/
def accepts : List (Level α) → List α → Bool
  | .rest :: _, _ => true
  | [], ts => ts.isEmpty
  | _ :: _, [] => false
  | .text a :: levels, t :: ts => a == t && accepts levels ts
  | .one :: levels, _ :: ts => accepts levels ts

theorem accepts_texts (as : List α) (levels : List (Level α)) (ts : List α) :
    accepts (as.map .text ++ levels) ts = true ↔
      ∃ ts', ts = as ++ ts' ∧ accepts levels ts' = true := by
  induction as generalizing ts with
  | nil => simp
  | cons a as ih =>
    cases ts with
    | nil => simp [accepts]
    | cons t ts =>
      rw [List.map_cons, List.cons_append, accepts, Bool.and_eq_true, beq_iff_eq, ih]
      constructor
      · rintro ⟨rfl, ts', rfl, h⟩
        exact ⟨ts', rfl, h⟩
      · rintro ⟨ts', hts, h⟩
        obtain ⟨rfl, rfl⟩ := List.cons.inj hts
        exact ⟨rfl, ts', rfl, h⟩

theorem accepts_one (as bs ts : List α) :
    accepts (as.map .text ++ .one :: bs.map .text) ts = true ↔ ∃ t, ts = as ++ t :: bs := by
  have hend : ∀ ts', accepts (bs.map .text) ts' = true ↔ ts' = bs := by
    intro ts'
    have h := accepts_texts bs [] ts'
    rw [List.append_nil] at h
    simp [h, accepts]
  rw [accepts_texts]
  constructor
  · rintro ⟨ts', rfl, h⟩
    cases ts' with
    | nil => exact Bool.noConfusion h
    | cons t ts' =>
      rw [(hend ts').mp h]
      exact ⟨t, rfl⟩
  · rintro ⟨t, rfl⟩
    exact ⟨t :: bs, rfl, (hend bs).mpr rfl⟩

theorem accepts_below (as ts : List α) :
    accepts (as.map .text ++ [.rest]) ts = true ↔ as <+: ts := by
  rw [accepts_texts]
  constructor
  · rintro ⟨ts', rfl, _⟩
    exact List.prefix_append _ _
  · rintro ⟨ts', rfl⟩
    exact ⟨ts', rfl, by simp [accepts]⟩

end Levels

/-! ## Filters as texts -/

open Py

/-- The level that a part of a filter stands for. -/
def level (part : String) : Level String :=
  if part = "+" then .one else if part = "#" then .rest else .text part

/-- The filter matches the topic. -/
def isMatch (filter topic : String) : Bool :=
  accepts ((split filter '/').map level) (split topic '/')

/-- The text has no wildcard. -/
def Plain (s : String) : Prop := '+' ∉ s.toList ∧ '#' ∉ s.toList

theorem level_of_plain {s : String} (h : Plain s) : level s = .text s := by
  rw [level, if_neg, if_neg]
  · rintro rfl
    exact h.2 (by decide)
  · rintro rfl
    exact h.1 (by decide)

theorem levels_of_plain {parts : List String} (h : ∀ p ∈ parts, Plain p) :
    parts.map level = parts.map .text :=
  List.map_congr_left fun p hp => level_of_plain (h p hp)

/-- The parts of a text without wildcards have none. -/
theorem plain_of_split {s : String} (h : Plain s) : ∀ p ∈ split s '/', Plain p := by
  intro p hp
  have hsub : ∀ c ∈ p.toList, c ∈ s.toList := by
    intro c hc
    rw [← intercalate_split s '/']
    exact mem_intercalate hp hc
  exact ⟨fun hc => h.1 (hsub _ hc), fun hc => h.2 (hsub _ hc)⟩

end TopicFilter
