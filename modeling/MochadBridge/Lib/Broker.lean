import Mathlib.Logic.Function.Basic

/-!
# The retained messages of a broker

A broker keeps the last retained message of each topic and hands it to whoever subscribes
to the topic later. An empty one takes the kept message away.

Results:
1. `publishAll_of_forall`: what holds of the kept message of a topic and of all later
   ones there, holds after them.
2. `publishAll_of_mem`: the same of the later ones alone, if there is one.
-/

namespace Broker

variable {κ β : Type}

/-- A published message. -/
structure Message (κ β : Type) where
  topic : κ
  payload : List β
  retain : Bool
  deriving DecidableEq

/-- The kept message of each topic. -/
abbrev Store (κ β : Type) := κ → Option (List β)

/-- What is kept of a retained message. -/
def kept (payload : List β) : Option (List β) :=
  match payload with
  | [] => none
  | b :: bs => some (b :: bs)

theorem eq_of_kept {payload bytes : List β} (h : kept payload = some bytes) : payload = bytes := by
  cases payload with
  | nil => cases h
  | cons b bs => exact Option.some.inj h

/-- The message that takes away the one of its topic. -/
def clearing (topic : κ) : Message κ β := ⟨topic, [], true⟩

section Publishing
variable [DecidableEq κ]

def publish (s : Store κ β) (m : Message κ β) : Store κ β :=
  if m.retain then Function.update s m.topic (kept m.payload) else s

def publishAll (s : Store κ β) (ms : List (Message κ β)) : Store κ β := ms.foldl publish s

variable {s : Store κ β} {ms : List (Message κ β)} {topic : κ} {P : Option (List β) → Prop}

theorem publish_apply (s : Store κ β) (m : Message κ β) (topic : κ) : publish s m topic =
    if m.retain = true ∧ m.topic = topic then kept m.payload else s topic := by
  unfold publish
  by_cases hretain : m.retain = true
  · simp only [hretain, if_true, true_and, Function.update_apply, eq_comm]
  · simp only [hretain, if_false, false_and, Bool.false_eq_true]

theorem publishAll_append (s : Store κ β) (ms ms' : List (Message κ β)) :
    publishAll s (ms ++ ms') = publishAll (publishAll s ms) ms' := List.foldl_append

/-- What is kept of a topic is what was kept, or one of the messages. -/
theorem publishAll_of_forall (hold : P (s topic))
    (hnew : ∀ m ∈ ms, m.retain = true → m.topic = topic → P (kept m.payload)) :
    P (publishAll s ms topic) := by
  induction ms generalizing s with
  | nil => exact hold
  | cons m ms ih =>
    refine ih ?_ fun m' hm' => hnew m' (List.mem_cons_of_mem m hm')
    rw [publish_apply]
    split
    · next h => exact hnew m List.mem_cons_self h.1 h.2
    · exact hold

/-- Once there is a retained message on the topic, one of them is kept. -/
theorem publishAll_of_mem (hnew : ∀ m ∈ ms, m.retain = true → m.topic = topic → P (kept m.payload))
    {m : Message κ β} (hm : m ∈ ms) (hretain : m.retain = true) (htopic : m.topic = topic) :
    P (publishAll s ms topic) := by
  obtain ⟨before, after, rfl⟩ := List.append_of_mem hm
  rw [publishAll_append]
  show P (publishAll (publish (publishAll s before) m) after topic)
  refine publishAll_of_forall ?_ fun m' hm' => hnew m' (by simp [hm'])
  rw [publish_apply, if_pos ⟨hretain, htopic⟩]
  exact hnew m hm hretain htopic

end Publishing

end Broker
