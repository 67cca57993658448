import Mathlib.Data.List.Basic
import Mathlib.Data.List.Count
import Mathlib.Data.List.Pairwise
import Mathlib.Order.Nat

/-!
# A ledger of jobs

Jobs are taken one after the other, and numbered. A job has parts. It is done at
once, or it waits in a queue; the queue drops its oldest job when it is full. A job
may stop after some of its parts, and a queued one then keeps its place.

Results:
1. `balanced_perform_iff`, `balanced_wait`, `balanced_resume_iff`: every job stays
   accounted for exactly if none stops with some of its parts done.
2. `Ordered.wait`, `Ordered.resume`, `ordered_perform_iff`: the parts stay in the
   order of the jobs exactly if no job goes ahead of a waiting one.
-/

/-- A part of a job, and how many parts the job has. -/
structure Ledger.Part where
  ticket : Nat
  index : Nat
  total : Nat
  deriving DecidableEq

/-- The jobs that were taken, those that wait, the parts that were done and the jobs
that were evicted. -/
structure Ledger where
  taken : Nat
  waiting : List Nat
  done : List Ledger.Part
  evicted : List Nat
  deriving DecidableEq

namespace Ledger

/-- The first parts of a job. -/
def parts (n total sent : Nat) : List Part := (List.range' 1 sent).map (Part.mk n · total)

/-- The parts of a job that were done. -/
def partsOf (l : Ledger) (n : Nat) : List Part := l.done.filter (·.ticket = n)

/-- Take a job and do its first parts. -/
def perform (l : Ledger) (sent total : Nat) : Ledger :=
  { l with taken := l.taken + 1, done := l.done ++ parts l.taken total sent }

/-- How many jobs have to leave the queue for another one. -/
def excess (l : Ledger) (cap : Nat) : Nat := if cap ≤ l.waiting.length then 1 else 0

/-- Take a job and let it wait. -/
def wait (l : Ledger) (cap : Nat) : Ledger :=
  { l with
    taken := l.taken + 1
    waiting := l.waiting.drop (l.excess cap) ++ [l.taken]
    evicted := l.evicted ++ l.waiting.take (l.excess cap) }

/-- Do the first parts of the oldest waiting job; it keeps its place unless all of
them were done. -/
def resume (l : Ledger) (sent total : Nat) : Ledger :=
  match l.waiting with
  | n :: rest =>
    { l with
      waiting := if sent < total then n :: rest else rest
      done := l.done ++ parts n total sent }
  | [] => l

/-- All parts of the job were done once, and it waits no more. -/
def Performed (l : Ledger) (n : Nat) : Prop :=
  (∃ total, 1 ≤ total ∧ l.partsOf n = parts n total total) ∧ n ∉ l.waiting ∧ n ∉ l.evicted

/-- The job waits, and no part of it was done. -/
def Waits (l : Ledger) (n : Nat) : Prop :=
  l.partsOf n = [] ∧ l.waiting.count n = 1 ∧ n ∉ l.evicted

/-- The job was evicted, and no part of it was done. -/
def Evicted (l : Ledger) (n : Nat) : Prop :=
  l.partsOf n = [] ∧ n ∉ l.waiting ∧ l.evicted.count n = 1

/-- Nothing is known of the jobs to come. -/
def Fresh (l : Ledger) : Prop :=
  ∀ n, l.taken ≤ n → l.partsOf n = [] ∧ n ∉ l.waiting ∧ n ∉ l.evicted

/-- Every job was performed, waits or was evicted. -/
def Balanced (l : Ledger) : Prop := ∀ n < l.taken, l.Performed n ∨ l.Waits n ∨ l.Evicted n

/-- The parts are done in the order of the jobs, and none is done while an older job
waits. -/
structure Ordered (l : Ledger) : Prop where
  done : l.done.Pairwise (·.ticket ≤ ·.ticket)
  waiting : l.waiting.Pairwise (· < ·)
  turn : ∀ x ∈ l.done, ∀ n ∈ l.waiting, x.ticket ≤ n
  taken : (∀ x ∈ l.done, x.ticket < l.taken) ∧ ∀ n ∈ l.waiting, n < l.taken

variable {l : Ledger} {n m sent total cap : Nat} {rest : List Nat}

/-! ## Parts -/

theorem mem_parts {x : Part} : x ∈ parts n total sent ↔
    ∃ index, 1 ≤ index ∧ index ≤ sent ∧ x = ⟨n, index, total⟩ := by
  simp only [parts, List.mem_map, List.mem_range'_1]
  constructor
  · rintro ⟨index, hindex, rfl⟩
    exact ⟨index, hindex.1, by omega, rfl⟩
  · rintro ⟨index, hone, hle, rfl⟩
    exact ⟨index, ⟨hone, by omega⟩, rfl⟩

theorem ticket_of_mem_parts {x : Part} (h : x ∈ parts n total sent) : x.ticket = n := by
  obtain ⟨_, _, _, rfl⟩ := mem_parts.mp h
  rfl

@[simp] theorem length_parts : (parts n total sent).length = sent := by
  simp [parts]

@[simp] theorem parts_eq_nil : parts n total sent = [] ↔ sent = 0 := by
  rw [← List.length_eq_zero_iff, length_parts]

theorem filter_parts : (parts n total sent).filter (·.ticket = m) =
    if n = m then parts n total sent else [] := by
  split
  · next h =>
    rw [List.filter_eq_self]
    intro x hx
    rw [ticket_of_mem_parts hx, h]
    exact decide_eq_true rfl
  · next h =>
    rw [List.filter_eq_nil_iff]
    intro x hx
    rw [ticket_of_mem_parts hx]
    simpa using h

theorem parts_complete {total' : Nat} (hsent : sent ≠ 0)
    (h : parts n total sent = parts n total' total') : sent = total := by
  have hlength := congrArg List.length h
  rw [length_parts, length_parts] at hlength
  have hfirst : (⟨n, 1, total⟩ : Part) ∈ parts n total' total' := by
    rw [← h]
    exact mem_parts.mpr ⟨1, le_rfl, Nat.one_le_iff_ne_zero.mpr hsent, rfl⟩
  obtain ⟨_, _, _, heq⟩ := mem_parts.mp hfirst
  rw [hlength]
  exact (congrArg Part.total heq).symm

/-! ## The three situations exclude each other -/

theorem Waits.mem (h : l.Waits n) : n ∈ l.waiting :=
  List.count_pos_iff.mp (by rw [h.2.1]; exact Nat.one_pos)

theorem Evicted.mem (h : l.Evicted n) : n ∈ l.evicted :=
  List.count_pos_iff.mp (by rw [h.2.2]; exact Nat.one_pos)

theorem Performed.not_waits (h : l.Performed n) : ¬ l.Waits n := fun hw => h.2.1 hw.mem

theorem Performed.not_evicted (h : l.Performed n) : ¬ l.Evicted n := fun he => h.2.2 he.mem

theorem Waits.not_evicted (h : l.Waits n) : ¬ l.Evicted n := fun he => he.2.1 h.mem

/-! ## Accounts -/

theorem partsOf_perform : (l.perform sent total).partsOf n =
    l.partsOf n ++ if l.taken = n then parts l.taken total sent else [] := by
  rw [partsOf, perform, List.filter_append, filter_parts]
  rfl

theorem Fresh.perform (h : l.Fresh) : (l.perform sent total).Fresh := by
  intro n hn
  have hlt : l.taken < n := hn
  obtain ⟨hparts, hwaiting, hevicted⟩ := h n hlt.le
  refine ⟨?_, hwaiting, hevicted⟩
  rw [partsOf_perform, hparts, if_neg hlt.ne]
  rfl

theorem Fresh.wait (h : l.Fresh) : (l.wait cap).Fresh := by
  intro n hn
  have hlt : l.taken < n := hn
  obtain ⟨hparts, hwaiting, hevicted⟩ := h n hlt.le
  refine ⟨hparts, fun hmem => ?_, fun hmem => ?_⟩
  · rcases List.mem_append.mp hmem with hmem | hmem
    · exact hwaiting (List.mem_of_mem_drop hmem)
    · exact hlt.ne (List.mem_singleton.mp hmem).symm
  · rcases List.mem_append.mp hmem with hmem | hmem
    · exact hevicted hmem
    · exact hwaiting (List.mem_of_mem_take hmem)

theorem partsOf_resume (h : l.waiting = m :: rest) : (l.resume sent total).partsOf n =
    l.partsOf n ++ if m = n then parts m total sent else [] := by
  simp only [partsOf, resume, h, List.filter_append, filter_parts]

theorem waiting_resume (h : l.waiting = m :: rest) :
    (l.resume sent total).waiting = if sent < total then l.waiting else rest := by
  simp only [resume, h]

theorem evicted_resume : (l.resume sent total).evicted = l.evicted := by
  unfold resume
  split <;> rfl

theorem taken_resume : (l.resume sent total).taken = l.taken := by
  unfold resume
  split <;> rfl

theorem Fresh.resume (h : l.Fresh) : (l.resume sent total).Fresh := by
  cases hw : l.waiting with
  | nil =>
    have hsame : l.resume sent total = l := by simp only [Ledger.resume, hw]
    rw [hsame]
    exact h
  | cons m rest =>
    intro n hn
    rw [taken_resume] at hn
    obtain ⟨hparts, hwaiting, hevicted⟩ := h n hn
    have hne : m ≠ n := by
      rintro rfl
      exact hwaiting (by rw [hw]; exact List.mem_cons_self)
    refine ⟨?_, fun hmem => hwaiting ?_, by rw [evicted_resume]; exact hevicted⟩
    · rw [partsOf_resume hw, hparts, if_neg hne]
      rfl
    · rw [waiting_resume hw] at hmem
      split at hmem
      · exact hmem
      · rw [hw]
        exact List.mem_cons_of_mem _ hmem

/-- A job that waits is accounted for. -/
theorem balanced_wait (hf : l.Fresh) (h : l.Balanced) : (l.wait cap).Balanced := by
  intro n hn
  rcases Nat.lt_succ_iff_lt_or_eq.mp hn with hlt | rfl
  · have hcount : (l.wait cap).waiting.count n = (l.waiting.drop (l.excess cap)).count n := by
      rw [wait, List.count_append, List.count_singleton, if_neg (by simpa using hlt.ne')]
      rfl
    have hmem : n ∈ (l.wait cap).waiting ↔ n ∈ l.waiting.drop (l.excess cap) := by
      rw [← List.count_pos_iff, hcount, List.count_pos_iff]
    have hsplit : (l.waiting.take (l.excess cap)).count n +
        (l.waiting.drop (l.excess cap)).count n = l.waiting.count n := by
      rw [← List.count_append, List.take_append_drop]
    rcases h n hlt with ⟨hparts, hwaiting, hevicted⟩ | ⟨hparts, hone, hevicted⟩ |
      ⟨hparts, hwaiting, hone⟩
    · refine .inl ⟨hparts, fun hn => hwaiting (List.mem_of_mem_drop (hmem.mp hn)), fun hn => ?_⟩
      rcases List.mem_append.mp hn with hn | hn
      · exact hevicted hn
      · exact hwaiting (List.mem_of_mem_take hn)
    · -- the job leaves the queue if it is the one that is dropped
      rw [hone] at hsplit
      by_cases hdropped : n ∈ l.waiting.take (l.excess cap)
      · have hpos := List.count_pos_iff.mpr hdropped
        refine .inr (.inr ⟨hparts, fun hn => ?_, ?_⟩)
        · have hkept := List.count_pos_iff.mpr (hmem.mp hn)
          omega
        · rw [wait, List.count_append, List.count_eq_zero_of_not_mem hevicted]
          omega
      · rw [List.count_eq_zero_of_not_mem hdropped] at hsplit
        refine .inr (.inl ⟨hparts, by omega, fun hn => ?_⟩)
        rcases List.mem_append.mp hn with hn | hn
        · exact hevicted hn
        · exact hdropped hn
    · refine .inr (.inr ⟨hparts, fun hn => hwaiting (List.mem_of_mem_drop (hmem.mp hn)), ?_⟩)
      have hnone : n ∉ l.waiting.take (l.excess cap) := fun hn =>
        hwaiting (List.mem_of_mem_take hn)
      rw [wait, List.count_append, hone, List.count_eq_zero_of_not_mem hnone]
  · obtain ⟨hparts, hwaiting, hevicted⟩ := hf l.taken le_rfl
    refine .inr (.inl ⟨hparts, ?_, fun hn => ?_⟩)
    · rw [wait, List.count_append,
        List.count_eq_zero_of_not_mem fun hn => hwaiting (List.mem_of_mem_drop hn)]
      simp
    · rcases List.mem_append.mp hn with hn | hn
      · exact hevicted hn
      · exact hwaiting (List.mem_of_mem_take hn)

/-- A job that is done at once is accounted for if all its parts are done. -/
theorem balanced_perform_iff (hf : l.Fresh) (h : l.Balanced) (htotal : 1 ≤ total) :
    (l.perform sent total).Balanced ↔ sent = total := by
  have hown : (l.perform sent total).partsOf l.taken = parts l.taken total sent := by
    rw [partsOf_perform, (hf l.taken le_rfl).1, if_pos rfl, List.nil_append]
  obtain ⟨_, hwaiting, hevicted⟩ := hf l.taken le_rfl
  constructor
  · intro hbalanced
    rcases hbalanced l.taken (Nat.lt_succ_self _) with ⟨⟨total', hpos, hparts⟩, _⟩ | hwaits | hev
    · rw [hown] at hparts
      refine parts_complete (fun hzero => ?_) hparts
      have hlength := congrArg List.length hparts
      rw [length_parts, length_parts] at hlength
      omega
    · exact absurd hwaits.mem hwaiting
    · exact absurd hev.mem hevicted
  · rintro rfl n hn
    rcases Nat.lt_succ_iff_lt_or_eq.mp hn with hlt | rfl
    · have hsame : (l.perform sent sent).partsOf n = l.partsOf n := by
        rw [partsOf_perform, if_neg hlt.ne', List.append_nil]
      have hold := h n hlt
      unfold Performed Waits Evicted at hold ⊢
      rw [hsame]
      exact hold
    · exact .inl ⟨⟨sent, htotal, hown⟩, hwaiting, hevicted⟩

/-- A waiting job stays accounted for if all its parts are done, or none. -/
theorem balanced_resume_iff (h : l.Balanced) (hf : l.Fresh) (hw : l.waiting = m :: rest)
    (htotal : 1 ≤ total) (hle : sent ≤ total) :
    (l.resume sent total).Balanced ↔ sent = 0 ∨ sent = total := by
  have hmem : m ∈ l.waiting := by
    rw [hw]
    exact List.mem_cons_self
  have hlt : m < l.taken := by
    by_contra hge
    exact (hf m (by omega)).2.1 hmem
  obtain ⟨hnone, hone, hevicted⟩ : l.Waits m := by
    rcases h m hlt with hp | hwaits | he
    · exact absurd hmem hp.2.1
    · exact hwaits
    · exact absurd hmem he.2.1
  have hown : (l.resume sent total).partsOf m = parts m total sent := by
    rw [partsOf_resume hw, hnone, if_pos rfl, List.nil_append]
  constructor
  · intro hbalanced
    rcases hbalanced m (by rw [taken_resume]; exact hlt) with ⟨⟨total', _, hparts⟩, _⟩ | hwaits |
      hev
    · by_cases hzero : sent = 0
      · exact .inl hzero
      · rw [hown] at hparts
        exact .inr (parts_complete hzero hparts)
    · exact .inl (parts_eq_nil.mp (hown.symm.trans hwaits.1))
    · exact .inl (parts_eq_nil.mp (hown.symm.trans hev.1))
  · intro hsent n hn
    rw [taken_resume] at hn
    by_cases hnm : m = n
    · subst hnm
      rcases hsent with rfl | rfl
      · refine .inr (.inl ⟨by rw [hown]; rfl, ?_, by rw [evicted_resume]; exact hevicted⟩)
        rw [waiting_resume hw, if_pos (by omega)]
        exact hone
      · refine .inl ⟨⟨sent, htotal, hown⟩, ?_, by rw [evicted_resume]; exact hevicted⟩
        rw [waiting_resume hw, if_neg (lt_irrefl _)]
        rw [hw, List.count_cons_self] at hone
        exact List.count_eq_zero.mp (by omega)
    · -- another job is where it was
      have hparts : (l.resume sent total).partsOf n = l.partsOf n := by
        rw [partsOf_resume hw, if_neg hnm, List.append_nil]
      have hcount : (l.resume sent total).waiting.count n = l.waiting.count n := by
        rw [waiting_resume hw]
        split
        · rfl
        · rw [hw, List.count_cons_of_ne hnm]
      have hwaiting : n ∈ (l.resume sent total).waiting ↔ n ∈ l.waiting := by
        rw [← List.count_pos_iff, hcount, List.count_pos_iff]
      have hold := h n hn
      unfold Performed Waits Evicted at hold ⊢
      rw [hparts, hcount, hwaiting, evicted_resume]
      exact hold

/-! ## Order -/

theorem pairwise_parts : (parts n total sent).Pairwise (·.ticket ≤ ·.ticket) :=
  List.pairwise_of_forall_mem_list fun x hx y hy => by
    rw [ticket_of_mem_parts hx, ticket_of_mem_parts hy]

theorem Ordered.wait (h : l.Ordered) : (l.wait cap).Ordered where
  done := h.done
  waiting := by
    refine List.pairwise_append.mpr ⟨h.waiting.sublist (List.drop_sublist _ _),
      List.pairwise_singleton _ _, fun n hn m hm => ?_⟩
    rw [List.mem_singleton.mp hm]
    exact h.taken.2 n (List.mem_of_mem_drop hn)
  turn x hx n hn := by
    rcases List.mem_append.mp hn with hn | hn
    · exact h.turn x hx n (List.mem_of_mem_drop hn)
    · rw [List.mem_singleton.mp hn]
      exact (h.taken.1 x hx).le
  taken := by
    refine ⟨fun x hx => (h.taken.1 x hx).trans (Nat.lt_succ_self _), fun n hn => ?_⟩
    rcases List.mem_append.mp hn with hn | hn
    · exact (h.taken.2 n (List.mem_of_mem_drop hn)).trans (Nat.lt_succ_self _)
    · rw [List.mem_singleton.mp hn]
      exact Nat.lt_succ_self _

theorem Ordered.resume (h : l.Ordered) : (l.resume sent total).Ordered := by
  cases hw : l.waiting with
  | nil =>
    have hsame : l.resume sent total = l := by simp only [Ledger.resume, hw]
    rw [hsame]
    exact h
  | cons m rest =>
    have hmem : m ∈ l.waiting := by
      rw [hw]
      exact List.mem_cons_self
    have hdone : (l.resume sent total).done = l.done ++ parts m total sent := by
      simp only [Ledger.resume, hw]
    have hkept : (l.resume sent total).waiting.Sublist l.waiting := by
      rw [waiting_resume hw]
      split
      · exact .refl _
      · rw [hw]
        exact List.sublist_cons_self _ _
    have hfirst : ∀ n ∈ l.waiting, m ≤ n := by
      intro n hn
      have hsorted := h.waiting
      rw [hw] at hn hsorted
      rcases List.mem_cons.mp hn with rfl | hn
      · exact le_rfl
      · exact ((List.pairwise_cons.mp hsorted).1 n hn).le
    refine ⟨?_, h.waiting.sublist hkept, fun x hx n hn => ?_, fun x hx => ?_, fun n hn => ?_⟩
    · rw [hdone]
      refine List.pairwise_append.mpr ⟨h.done, pairwise_parts, fun x hx y hy => ?_⟩
      rw [ticket_of_mem_parts hy]
      exact h.turn x hx m hmem
    · rw [hdone] at hx
      rcases List.mem_append.mp hx with hx | hx
      · exact h.turn x hx n (hkept.subset hn)
      · rw [ticket_of_mem_parts hx]
        exact hfirst n (hkept.subset hn)
    · rw [hdone] at hx
      rw [taken_resume]
      rcases List.mem_append.mp hx with hx | hx
      · exact h.taken.1 x hx
      · rw [ticket_of_mem_parts hx]
        exact h.taken.2 m hmem
    · rw [taken_resume]
      exact h.taken.2 n (hkept.subset hn)

/-- A job may be done at once if no job waits. -/
theorem ordered_perform_iff (h : l.Ordered) :
    (l.perform sent total).Ordered ↔ sent = 0 ∨ l.waiting = [] := by
  constructor
  · intro hordered
    refine or_iff_not_imp_left.mpr fun hsent => ?_
    refine List.eq_nil_iff_forall_not_mem.mpr fun n hn => ?_
    have hfirst : (⟨l.taken, 1, total⟩ : Part) ∈ (l.perform sent total).done :=
      List.mem_append_right _ (mem_parts.mpr ⟨1, le_rfl, by omega, rfl⟩)
    have hturn := hordered.turn _ hfirst n hn
    exact absurd (h.taken.2 n hn) (not_lt.mpr hturn)
  · intro hcase
    refine ⟨?_, h.waiting, fun x hx n hn => ?_, fun x hx => ?_, fun n hn => ?_⟩
    · refine List.pairwise_append.mpr ⟨h.done, pairwise_parts, fun x hx y hy => ?_⟩
      rw [ticket_of_mem_parts hy]
      exact (h.taken.1 x hx).le
    · rcases List.mem_append.mp hx with hx | hx
      · exact h.turn x hx n hn
      · rcases hcase with rfl | hempty
        · exact absurd hx List.not_mem_nil
        · have hn' : n ∈ l.waiting := hn
          rw [hempty] at hn'
          exact absurd hn' List.not_mem_nil
    · rcases List.mem_append.mp hx with hx | hx
      · exact (h.taken.1 x hx).trans (Nat.lt_succ_self _)
      · rw [ticket_of_mem_parts hx]
        exact Nat.lt_succ_self _
    · exact (h.taken.2 n hn).trans (Nat.lt_succ_self _)

end Ledger
