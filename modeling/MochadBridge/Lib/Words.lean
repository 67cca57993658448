import Mathlib.Data.List.DropRight

/-!
# Words between separators

A text falls apart at its separators, and the empty parts between neighbouring
separators do not count.

Results: a separator cuts the words of a text in two (`wordsOn_append_cons`), so
separators at its ends make no difference (`wordsOn_pad`); a map of the characters
that respects the separators maps the words (`wordsOn_flatMap`).
-/

namespace Py

section Words
variable {α β : Type} {p : α → Bool}

/-- The parts of a list between separators that are not empty. -/
def wordsOn (p : α → Bool) (l : List α) : List (List α) :=
  (l.splitOnP p).filter (! ·.isEmpty)

@[simp] theorem wordsOn_nil : wordsOn p [] = [] := rfl

/-- A separator belongs to no word, and every word is before or after it. -/
theorem wordsOn_append_cons {c : α} (hc : p c = true) (l l' : List α) :
    wordsOn p (l ++ c :: l') = wordsOn p l ++ wordsOn p l' := by
  rw [wordsOn, List.splitOnP_append_cons l l' hc, List.filter_append]
  rfl

theorem wordsOn_cons {c : α} (hc : p c = true) (l : List α) :
    wordsOn p (c :: l) = wordsOn p l := by
  have h := wordsOn_append_cons hc [] l
  rwa [wordsOn_nil, List.nil_append, List.nil_append] at h

/-- Separators at the ends of a text do not count for its words. -/
theorem wordsOn_pad {a b : List α} (ha : ∀ c ∈ a, p c = true) (hb : ∀ c ∈ b, p c = true)
    (l : List α) : wordsOn p (a ++ l ++ b) = wordsOn p l := by
  have hright : wordsOn p (l ++ b) = wordsOn p l := by
    induction b generalizing l with
    | nil => rw [List.append_nil]
    | cons c b ih =>
      have hrest := ih (fun d hd => hb d (List.mem_cons_of_mem _ hd)) []
      rw [List.nil_append, wordsOn_nil] at hrest
      rw [wordsOn_append_cons (hb c List.mem_cons_self), hrest, List.append_nil]
  rw [List.append_assoc]
  induction a with
  | nil => exact hright
  | cons c a ih =>
    rw [List.cons_append, wordsOn_cons (ha c List.mem_cons_self)]
    exact ih fun d hd => ha d (List.mem_cons_of_mem _ hd)

/-- A part of a list is made of its elements other than separators. -/
theorem of_mem_splitOnP {l w : List α} (h : w ∈ l.splitOnP p) :
    ∀ c ∈ w, c ∈ l ∧ p c = false := by
  induction l generalizing w with
  | nil =>
    rw [List.splitOnP_nil, List.mem_singleton] at h
    simp [h]
  | cons x l ih =>
    have hlater : ∀ {w : List α} {c : α}, w ∈ l.splitOnP p → c ∈ w → c ∈ x :: l ∧ p c = false :=
      fun hw hc => (ih hw _ hc).imp_left (List.mem_cons_of_mem x)
    rw [List.splitOnP_cons_eq_if_modifyHead] at h
    split at h
    · rcases List.mem_cons.mp h with rfl | h
      · simp
      · exact fun c => hlater h
    · next hx =>
      obtain ⟨v, rest, hl⟩ := List.exists_cons_of_ne_nil (List.splitOnP_ne_nil p l)
      rw [hl, List.modifyHead_cons] at h
      rw [hl] at hlater
      intro c hc
      rcases List.mem_cons.mp h with rfl | h
      · rcases List.mem_cons.mp hc with rfl | hc
        · exact ⟨List.mem_cons_self, Bool.eq_false_iff.mpr hx⟩
        · exact hlater List.mem_cons_self hc
      · exact hlater (List.mem_cons_of_mem _ h) hc

/-- A word is not empty, and is made of characters other than separators. -/
theorem of_mem_wordsOn {l w : List α} (h : w ∈ wordsOn p l) :
    w ≠ [] ∧ ∀ c ∈ w, c ∈ l ∧ p c = false := by
  obtain ⟨hw, hne⟩ := List.mem_filter.mp h
  exact ⟨by simpa using hne, of_mem_splitOnP hw⟩

/-- What holds no separator is added to the first part. -/
theorem splitOnP_append {w : List α} (hw : ∀ c ∈ w, p c = false) (l : List α) :
    (w ++ l).splitOnP p = (l.splitOnP p).modifyHead (w ++ ·) := by
  obtain ⟨v, rest, hl⟩ := List.exists_cons_of_ne_nil (List.splitOnP_ne_nil p l)
  induction w with
  | nil => rw [List.nil_append, hl]; rfl
  | cons c w ih =>
    rw [List.cons_append, List.splitOnP_cons_eq_if_modifyHead,
      if_neg (Bool.eq_false_iff.mp (hw c List.mem_cons_self)),
      ih fun d hd => hw d (List.mem_cons_of_mem _ hd), hl]
    rfl

/-- A map of the characters under which separators stay and no other comes up maps
the parts. -/
theorem splitOnP_flatMap {q : β → Bool} {f : α → List β}
    (hsep : ∀ c, p c = true → ∃ d, f c = [d] ∧ q d = true)
    (hother : ∀ c, p c = false → ∀ d ∈ f c, q d = false) (l : List α) :
    (l.flatMap f).splitOnP q = (l.splitOnP p).map (·.flatMap f) := by
  induction l with
  | nil => rfl
  | cons c l ih =>
    rw [List.flatMap_cons, List.splitOnP_cons_eq_if_modifyHead]
    cases hc : p c with
    | true =>
      obtain ⟨d, hd, hq⟩ := hsep c hc
      rw [hd, List.singleton_append, List.splitOnP_cons_eq_if_modifyHead, if_pos hq, ih]
      rfl
    | false =>
      obtain ⟨v, rest, hl⟩ := List.exists_cons_of_ne_nil (List.splitOnP_ne_nil p l)
      rw [splitOnP_append (hother c hc), ih, hl]
      simp

/-- And so it maps the words, if it drops no character. -/
theorem wordsOn_flatMap {q : β → Bool} {f : α → List β}
    (hsep : ∀ c, p c = true → ∃ d, f c = [d] ∧ q d = true)
    (hother : ∀ c, p c = false → ∀ d ∈ f c, q d = false) (hne : ∀ c, f c ≠ []) (l : List α) :
    wordsOn q (l.flatMap f) = (wordsOn p l).map (·.flatMap f) := by
  have hempty : ∀ w : List α, (w.flatMap f).isEmpty = w.isEmpty := by
    intro w
    cases w with
    | nil => rfl
    | cons c w => simp [hne c]
  rw [wordsOn, wordsOn, splitOnP_flatMap hsep hother, List.filter_map]
  simp only [Function.comp_def, hempty]

end Words

end Py
