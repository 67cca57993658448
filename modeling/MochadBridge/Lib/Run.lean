/-!
# Runs of a step function

A system is a state type with a step function `step : σ → ι → σ`; a run feeds
it a list of inputs. `Reaches step ok s₀ s` says that some run from `s₀` ends
in `s` and that every step of it met the condition `ok`, which may look at the
state the step starts from. The state after every prefix of a run is reached
too, so a statement about every reached state is one about every moment of
every run.

Rules: `Reaches.invariant` (an invariant kept by the steps that meet the
condition holds in every reached state), `Reaches.invariant_under` (an invariant may be
used to establish another one), `reaches_exec` (a concrete run) and `meets_iff`
(the runs all along which an invariant holds).
-/

namespace Run

variable {σ ι : Type}

/-- `s` is the end of a run from `s₀` whose steps all meet `ok`. -/
inductive Reaches (step : σ → ι → σ) (ok : σ → ι → Prop) (s₀ : σ) : σ → Prop
  | start : Reaches step ok s₀ s₀
  | next {s : σ} {i : ι} : Reaches step ok s₀ s → ok s i → Reaches step ok s₀ (step s i)

/-- The state after a list of inputs. -/
def exec (step : σ → ι → σ) (s : σ) (inputs : List ι) : σ := inputs.foldl step s

theorem exec_concat (step : σ → ι → σ) (s : σ) (inputs : List ι) (i : ι) :
    exec step s (inputs ++ [i]) = step (exec step s inputs) i := by
  rw [exec, List.foldl_append]
  rfl

/-- Every step of the run over `inputs` meets `ok`. -/
def Meets (step : σ → ι → σ) (ok : σ → ι → Prop) : σ → List ι → Prop
  | _, [] => True
  | s, i :: inputs => ok s i ∧ Meets step ok (step s i) inputs

variable {step : σ → ι → σ} {ok : σ → ι → Prop} {s₀ s : σ}

/-- The invariant rule. -/
theorem Reaches.invariant {I : σ → Prop} (h₀ : I s₀)
    (hstep : ∀ s i, I s → ok s i → I (step s i)) (h : Reaches step ok s₀ s) : I s := by
  induction h with
  | start => exact h₀
  | next _ hok ih => exact hstep _ _ ih hok

/-- The invariant rule where the steps start from states that satisfy another
invariant. -/
theorem Reaches.invariant_under {I B : σ → Prop} (hbase : ∀ {s}, Reaches step ok s₀ s → B s)
    (h₀ : I s₀) (hstep : ∀ s i, B s → I s → ok s i → I (step s i))
    (h : Reaches step ok s₀ s) : I s := by
  induction h with
  | start => exact h₀
  | next hr hok ih => exact hstep _ _ (hbase hr) ih hok

/-- A weaker condition allows more runs. -/
theorem Reaches.mono {ok' : σ → ι → Prop} (hok : ∀ s i, ok s i → ok' s i)
    (h : Reaches step ok s₀ s) : Reaches step ok' s₀ s := by
  induction h with
  | start => exact .start
  | next _ hi ih => exact .next ih (hok _ _ hi)

theorem Reaches.trans {s' : σ} (h : Reaches step ok s₀ s) (h' : Reaches step ok s s') :
    Reaches step ok s₀ s' := by
  induction h' with
  | start => exact h
  | next _ hi ih => exact .next ih hi

/-- The end of a concrete run is reached. -/
theorem reaches_exec {inputs : List ι} (h : Meets step ok s₀ inputs) :
    Reaches step ok s₀ (exec step s₀ inputs) := by
  induction inputs generalizing s₀ with
  | nil => exact .start
  | cons i inputs ih => exact (Reaches.next .start h.1).trans (ih h.2)

/-- Without a condition every run is one. -/
theorem meets_true (inputs : List ι) : Meets step (fun _ _ => True) s₀ inputs := by
  induction inputs generalizing s₀ with
  | nil => trivial
  | cons i inputs ih => exact ⟨trivial, ih⟩

theorem meets_concat {inputs : List ι} {i : ι} : Meets step ok s₀ (inputs ++ [i]) ↔
    Meets step ok s₀ inputs ∧ ok (exec step s₀ inputs) i := by
  induction inputs generalizing s₀ with
  | nil => simp [Meets, exec]
  | cons j inputs ih =>
    simp only [List.cons_append, Meets, ih, and_assoc]
    rfl

/-- Every reached state is the end of a run over a list of inputs. -/
theorem Reaches.exists_exec (h : Reaches step ok s₀ s) :
    ∃ inputs, Meets step ok s₀ inputs ∧ exec step s₀ inputs = s := by
  induction h with
  | start => exact ⟨[], trivial, rfl⟩
  | @next s i _ hi ih =>
    obtain ⟨inputs, hm, rfl⟩ := ih
    exact ⟨inputs ++ [i], meets_concat.mpr ⟨hm, hi⟩, exec_concat step s₀ inputs i⟩

/-- Where a step breaks an invariant exactly if it fails the condition, the
invariant holds all along a run exactly if every step meets the condition. -/
theorem meets_iff {I B : σ → Prop} (hbase : ∀ s i, B s → B (step s i))
    (hstep : ∀ s i, B s → I s → (I (step s i) ↔ ok s i)) (hb : B s₀) (h₀ : I s₀)
    (inputs : List ι) :
    (∀ pre, pre <+: inputs → I (exec step s₀ pre)) ↔ Meets step ok s₀ inputs := by
  induction inputs generalizing s₀ with
  | nil =>
    refine ⟨fun _ => trivial, fun _ pre hpre => ?_⟩
    rw [List.prefix_nil.mp hpre]
    exact h₀
  | cons i inputs ih =>
    constructor
    · intro h
      have hi : I (step s₀ i) := h [i] (by simp)
      refine ⟨(hstep s₀ i hb h₀).mp hi, (ih (hbase s₀ i hb) hi).mp fun pre hpre => ?_⟩
      exact h (i :: pre) (List.cons_prefix_cons.mpr ⟨rfl, hpre⟩)
    · rintro ⟨hi, hrest⟩ pre hpre
      have hnext := (hstep s₀ i hb h₀).mpr hi
      cases pre with
      | nil => exact h₀
      | cons j pre =>
        obtain ⟨rfl, htail⟩ := List.cons_prefix_cons.mp hpre
        exact (ih (hbase s₀ j hb) hnext).mpr hrest pre htail

end Run
