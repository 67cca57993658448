import Mathlib.Data.List.Nodup
import Mathlib.Data.List.Perm.Basic

/-!
# Bounded queues that drop their oldest item

`Fifo α cap` is a first-in first-out queue of at most `cap` items, with all that
ever entered it and how each item left: served from the front, or evicted from
the front by an item that found the queue full. The account of the items is a
field, so every queue has one.

Results:
1. `waiting_eq_filter`: the queue holds, in order, the items that entered and
   did not leave.
2. `evicted_push`: an item is evicted only from a full queue, and only the oldest.
-/

/-- A bounded queue with its history. -/
structure Fifo (α : Type*) (cap : Nat) where
  entered : List α
  evicted : List α
  served : List α
  waiting : List α
  bounded : waiting.length ≤ cap
  accounted : ∃ left, entered = left ++ waiting ∧ left.Perm (evicted ++ served)

namespace Fifo

variable {α β : Type*} {cap : Nat}

/-- A queue that nothing entered yet. -/
def empty : Fifo α cap where
  entered := []
  evicted := []
  served := []
  waiting := []
  bounded := Nat.zero_le cap
  accounted := ⟨[], rfl, .refl _⟩

/-- How many items have to leave for another one. -/
def excess (q : Fifo α cap) : Nat := if cap ≤ q.waiting.length then 1 else 0

/-- Append an item; a full queue drops its oldest one. -/
def push (q : Fifo α cap) (hcap : 0 < cap) (x : α) : Fifo α cap where
  entered := q.entered ++ [x]
  evicted := q.evicted ++ q.waiting.take q.excess
  served := q.served
  waiting := q.waiting.drop q.excess ++ [x]
  bounded := by
    have hbound := q.bounded
    rw [List.length_append, List.length_drop, excess, List.length_singleton]
    split <;> omega
  accounted := by
    obtain ⟨left, hentered, hperm⟩ := q.accounted
    refine ⟨left ++ q.waiting.take q.excess, ?_, ?_⟩
    · rw [hentered, List.append_assoc, List.append_assoc, ← List.append_assoc (q.waiting.take _),
        List.take_append_drop]
    · refine (hperm.append_right _).trans ?_
      rw [List.append_assoc, List.append_assoc]
      exact List.perm_append_comm.append_left _

/-- Serve the oldest items. -/
def serve (q : Fifo α cap) (n : Nat) : Fifo α cap where
  entered := q.entered
  evicted := q.evicted
  served := q.served ++ q.waiting.take n
  waiting := q.waiting.drop n
  bounded := by
    rw [List.length_drop]
    exact Nat.le_trans (Nat.sub_le _ _) q.bounded
  accounted := by
    obtain ⟨left, hentered, hperm⟩ := q.accounted
    refine ⟨left ++ q.waiting.take n, ?_, ?_⟩
    · rw [hentered, List.append_assoc, List.take_append_drop]
    · rw [← List.append_assoc]
      exact hperm.append_right _

/-- An item is evicted only by one that finds the queue full, and only the oldest. -/
theorem evicted_push (q : Fifo α cap) (hcap : 0 < cap) (x : α) : (q.push hcap x).evicted =
    q.evicted ++ if q.waiting.length = cap then q.waiting.head?.toList else [] := by
  have hbound := q.bounded
  show q.evicted ++ q.waiting.take q.excess = _
  rw [excess]
  split
  · rw [if_pos (by omega), List.take_one]
  · rw [if_neg (by omega), List.take_zero]

/-- The queue holds the items that entered and did not leave, in order. Items are
told apart by a key. -/
theorem waiting_eq_filter [DecidableEq β] (q : Fifo α cap) (key : α → β)
    (h : (q.entered.map key).Nodup) : q.waiting = q.entered.filter fun x =>
      key x ∉ q.evicted.map key ∧ key x ∉ q.served.map key := by
  obtain ⟨left, hentered, hperm⟩ := q.accounted
  have hkeys : ∀ x, (key x ∉ q.evicted.map key ∧ key x ∉ q.served.map key) ↔
      key x ∉ left.map key := by
    intro x
    rw [(hperm.map key).mem_iff, List.map_append, List.mem_append, not_or]
  rw [hentered, List.map_append] at h
  obtain ⟨_, _, hdisjoint⟩ := List.nodup_append.mp h
  rw [hentered, List.filter_append, List.filter_eq_nil_iff.mpr, List.nil_append,
    List.filter_eq_self.mpr]
  · intro x hx
    refine decide_eq_true ((hkeys x).mpr fun hleft => ?_)
    exact hdisjoint _ hleft _ (List.mem_map_of_mem hx) rfl
  · intro x hx
    rw [decide_eq_true_eq, hkeys]
    exact fun hnot => hnot (List.mem_map_of_mem hx)

end Fifo
