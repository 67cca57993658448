import MochadBridge.BridgeEffects
import MochadBridge.Lib.Register

/-!
# What the broker keeps of a topic

The publishes of the bridge write a register file, whose value at a topic is the
last payload published there.

Results:
1. `retained_append`: more outputs write on.
2. `retained_of_forall`: what all later publishes on a topic have, and the value
   before them had, its value has.
3. `retained_of_mem`: the same where one of the later publishes is on the topic.
-/

namespace MochadBridge

open Py Register

/-- The publishes among the outputs. -/
def publishes (os : List Output) : List (String × Json) :=
  os.filterMap fun
    | .publish topic payload _ => some (topic, payload)
    | _ => none

/-- The last payload published on each topic. -/
def retained (os : List Output) : String → Option Json := writes (fun _ => none) (publishes os)

section Retained
variable {os os' : List Output} {topic : String} {payload : Json}

theorem mem_publishes : (topic, payload) ∈ publishes os ↔
    ∃ retain, .publish topic payload retain ∈ os := by
  rw [publishes, List.mem_filterMap]
  constructor
  · rintro ⟨o, ho, hmatch⟩
    split at hmatch
    · next t p r =>
      obtain ⟨rfl, rfl⟩ := Prod.mk.inj (Option.some.inj hmatch)
      exact ⟨r, ho⟩
    · cases hmatch
  · rintro ⟨retain, ho⟩
    exact ⟨_, ho, rfl⟩

theorem retained_append (os os' : List Output) :
    retained (os ++ os') = writes (retained os) (publishes os') := by
  rw [retained, publishes, List.filterMap_append, writes_append]
  rfl

/-- The value of a topic after more outputs is the old one or a new one. -/
theorem retained_of_forall {P : Json → Prop}
    (hnew : ∀ payload retain, .publish topic payload retain ∈ os' → P payload)
    (hold : ∃ payload, retained os topic = some payload ∧ P payload) :
    ∃ payload, retained (os ++ os') topic = some payload ∧ P payload := by
  rw [retained_append, writes_apply]
  cases hlast : (valuesTo topic (publishes os')).getLast? with
  | none => exact hold
  | some payload =>
    obtain ⟨⟨topic', payload'⟩, hw, hpayload⟩ :=
      List.mem_filterMap.mp (List.mem_of_getLast? hlast)
    split at hpayload
    · next htopic =>
      subst htopic
      obtain rfl := Option.some.inj hpayload
      obtain ⟨retain, hmem⟩ := mem_publishes.mp hw
      exact ⟨payload', rfl, hnew _ _ hmem⟩
    · cases hpayload

/-- One more publish is the value of its topic. -/
theorem retained_publish (os : List Output) (topic : String) (payload : Json) (retain : Bool) :
    retained (os ++ [.publish topic payload retain]) topic = some payload := by
  rw [retained_append]
  exact (write_apply (topic, payload) topic).trans (if_pos rfl)

/-- Once there is a publish on the topic, its value is one of the publishes there. -/
theorem retained_of_mem {P : Json → Prop}
    (hnew : ∀ payload retain, .publish topic payload retain ∈ os' → P payload) {retain : Bool}
    (hmem : .publish topic payload retain ∈ os') :
    ∃ payload, retained (os ++ os') topic = some payload ∧ P payload := by
  obtain ⟨before, after, rfl⟩ := List.append_of_mem hmem
  rw [← List.singleton_append, ← List.append_assoc, ← List.append_assoc]
  refine retained_of_forall (fun payload' retain' h => hnew payload' retain' ?_)
    ⟨payload, ?_, hnew payload retain hmem⟩
  · exact List.mem_append_right _ (List.mem_cons_of_mem _ h)
  · exact retained_publish _ _ _ _

end Retained

end MochadBridge
