import Mathlib.Data.List.Forall2
import MochadBridge.Lib.Effect

/-!
# Two runs side by side

Two states that agree but for some parts. `Mask.other s m` is the state `s` with the
parts `m` in place of its own, so that everything else is shared by definition, and
`Mask.Related s m` says how the two sets of parts belong together.

`Alike M p q s m` says that `p`, run from `s`, and `q`, run from the other state, have the
same outcome, and that the states they leave are related again. Where `p` and `q` are
one program this is noninterference: nothing that an outcome shows, and nothing outside
the parts, depends on the parts.

Rules: `Alike.bind`, `Alike.get_bind`, `Alike.tryCatch`, `Alike.forM` and their kin compose
such pairs; `related_exec` is the rule for runs of a step function.
-/

namespace TwoRuns

open Effect

variable {ε σ μ ι α β : Type}

/-- Parts of a state that two states need not agree on. -/
structure Mask (σ μ : Type) where
  other : σ → μ → σ
  Related : σ → μ → Prop

/-- The same exception, or related values. -/
inductive Both (R : α → β → Prop) : Except ε α → Except ε β → Prop
  | error (e : ε) : Both R (.error e) (.error e)
  | ok {a : α} {b : β} (h : R a b) : Both R (.ok a) (.ok b)

namespace Both

variable {R : α → β → Prop}

theorem refl {R : α → α → Prop} (hR : ∀ a, R a a) (x : Except ε α) : Both R x x := by
  cases x with
  | error e => exact .error e
  | ok a => exact .ok (hR a)

theorem bind {γ δ : Type} {Q : γ → δ → Prop} {x : Except ε α} {y : Except ε β}
    {f : α → Except ε γ} {g : β → Except ε δ} (h : Both R x y)
    (hfg : ∀ a b, R a b → Both Q (f a) (g b)) : Both Q (x >>= f) (y >>= g) := by
  cases h with
  | error e => exact .error e
  | ok hab => exact hfg _ _ hab

/-- A loop that computes a list. -/
theorem mapM {γ δ : Type} {Q : γ → δ → Prop} {f : α → Except ε γ} {g : β → Except ε δ}
    (hfg : ∀ a b, R a b → Both Q (f a) (g b)) {xs : List α} {ys : List β}
    (h : List.Forall₂ R xs ys) : Both (List.Forall₂ Q) (xs.mapM f) (ys.mapM g) := by
  induction h with
  | nil => exact .ok .nil
  | cons hxy _ ih =>
    rw [List.mapM_cons, List.mapM_cons]
    exact (hfg _ _ hxy).bind fun _ _ hhead => ih.bind fun _ _ htail => .ok (.cons hhead htail)

end Both

/-- Run from `s` and from the other state, the two programs have the same outcome and
leave related states. -/
def Alike (M : Mask σ μ) (p q : Prog ε σ α) (s : σ) (m : μ) : Prop :=
  ∃ m', exec q (M.other s m) = ((exec p s).1, M.other (exec p s).2 m') ∧
    M.Related (exec p s).2 m'

namespace Alike

variable {M : Mask σ μ} {p q : Prog ε σ α} {s : σ} {m : μ}

theorem pure (h : M.Related s m) (a : α) :
    Alike M (Pure.pure a : Prog ε σ α) (Pure.pure a) s m :=
  ⟨m, rfl, h⟩

theorem throw (h : M.Related s m) (e : ε) :
    Alike M (MonadExcept.throw e : Prog ε σ α) (MonadExcept.throw e) s m :=
  ⟨m, rfl, h⟩

theorem ofExcept (h : M.Related s m) (x : Except ε α) :
    Alike M (MonadExcept.ofExcept x : Prog ε σ α) (MonadExcept.ofExcept x) s m :=
  ⟨m, by rw [exec_ofExcept, exec_ofExcept], by rw [exec_ofExcept]; exact h⟩

/-- An update of both states. -/
theorem update {f g : σ → σ} (m' : μ) (hfg : g (M.other s m) = M.other (f s) m')
    (h : M.Related (f s) m') : Alike M (modify f : Prog ε σ PUnit) (modify g) s m :=
  ⟨m', congrArg (Prod.mk (Except.ok PUnit.unit)) hfg, h⟩

theorem bind {f g : α → Prog ε σ β} (hp : Alike M p q s m)
    (hfg : ∀ a t m', exec p s = (.ok a, t) → M.Related t m' → Alike M (f a) (g a) t m') :
    Alike M (p >>= f) (q >>= g) s m := by
  obtain ⟨m', hq, hrelated⟩ := hp
  cases h : exec p s with
  | mk r t =>
    rw [h] at hq hrelated
    cases r with
    | error e => exact ⟨m', by rw [exec_bind_error _ _ _ h, exec_bind_error _ _ _ hq],
        by rw [exec_bind_error _ _ _ h]; exact hrelated⟩
    | ok a =>
      obtain ⟨m'', hg, hrelated'⟩ := hfg a t m' h hrelated
      exact ⟨m'', by rw [exec_bind_ok _ _ _ h, exec_bind_ok _ _ _ hq]; exact hg,
        by rw [exec_bind_ok _ _ _ h]; exact hrelated'⟩

theorem set {t t' : σ} {m' : μ} (ht : t' = M.other t m') (h : M.Related t m') :
    Alike M (set t : Prog ε σ PUnit) (MonadStateOf.set t') s m :=
  ⟨m', congrArg (Prod.mk (Except.ok PUnit.unit)) ht, h⟩

/-- Each program reads its own state. -/
theorem get_bind {f g : σ → Prog ε σ β} (h : Alike M (f s) (g (M.other s m)) s m) :
    Alike M (get >>= f : Prog ε σ β) (get >>= g) s m := h

/-- A value computed on the side, the same one on both sides. -/
theorem ofExcept_bind {x : Except ε α} {f g : α → Prog ε σ β} (hs : M.Related s m)
    (h : ∀ a, x = .ok a → Alike M (f a) (g a) s m) :
    Alike M ((MonadExcept.ofExcept x : Prog ε σ α) >>= f) (MonadExcept.ofExcept x >>= g) s m := by
  cases x with
  | error e => exact ⟨m, rfl, hs⟩
  | ok a => exact h a rfl

/-- Related values computed on the side. -/
theorem both_bind {ρ τ : Type} {R : ρ → τ → Prop} {x : Except ε ρ} {y : Except ε τ}
    {f : ρ → Prog ε σ β} {g : τ → Prog ε σ β} (hs : M.Related s m) (hxy : Both R x y)
    (h : ∀ a b, R a b → Alike M (f a) (g b) s m) :
    Alike M ((MonadExcept.ofExcept x : Prog ε σ ρ) >>= f) (MonadExcept.ofExcept y >>= g) s m := by
  cases hxy with
  | error e => exact ⟨m, rfl, hs⟩
  | ok hab => exact h _ _ hab

theorem tryCatch {f g : ε → Prog ε σ α} (hp : Alike M p q s m)
    (hfg : ∀ e t m', exec p s = (.error e, t) → M.Related t m' → Alike M (f e) (g e) t m') :
    Alike M (tryCatch p f) (tryCatch q g) s m := by
  obtain ⟨m', hq, hrelated⟩ := hp
  cases h : exec p s with
  | mk r t =>
    rw [h] at hq hrelated
    cases r with
    | ok a => exact ⟨m', by rw [exec_tryCatch, exec_tryCatch, h, hq],
        by rw [exec_tryCatch, h]; exact hrelated⟩
    | error e =>
      obtain ⟨m'', hg, hrelated'⟩ := hfg e t m' h hrelated
      exact ⟨m'', by rw [exec_tryCatch, exec_tryCatch, h, hq]; exact hg,
        by rw [exec_tryCatch, h]; exact hrelated'⟩

/-- A branch on a condition that both sides share. -/
theorem ite {c : Prop} {p' q' : Prog ε σ α} [Decidable c] (hc : c → Alike M p q s m)
    (hnc : ¬ c → Alike M p' q' s m) :
    Alike M (if c then p else p') (if c then q else q') s m := by
  split
  · next h => exact hc h
  · next h => exact hnc h

/-- The loop rule: the turns of the two loops are related one by one. -/
theorem forM {ρ τ : Type} {R : ρ → τ → Prop} {xs : List ρ} {ys : List τ}
    {f : ρ → Prog ε σ PUnit} {g : τ → Prog ε σ PUnit} (hxs : List.Forall₂ R xs ys)
    (hs : M.Related s m)
    (hturn : ∀ x y t m', R x y → M.Related t m' → Alike M (f x) (g y) t m') :
    Alike M (xs.forM f) (ys.forM g) s m := by
  induction hxs generalizing s m with
  | nil => exact .pure hs _
  | cons hxy _ ih =>
    exact .bind (hturn _ _ s m hxy hs) fun _ _ _ _ hrelated => ih hrelated

/-- A loop over one list. -/
theorem forM_same {ρ : Type} {xs : List ρ} {f g : ρ → Prog ε σ PUnit} (hs : M.Related s m)
    (hturn : ∀ x ∈ xs, ∀ t m', M.Related t m' → Alike M (f x) (g x) t m') :
    Alike M (xs.forM f) (xs.forM g) s m := by
  induction xs generalizing s m with
  | nil => exact .pure hs _
  | cons x xs ih =>
    exact .bind (hturn x List.mem_cons_self s m hs) fun _ _ _ _ hrelated =>
      ih hrelated fun y hy => hturn y (List.mem_cons_of_mem _ hy)

end Alike

/-- Runs of one step function over one list of inputs stay related. -/
theorem related_exec {M : Mask σ μ} {step : σ → ι → σ} {inputs : List ι}
    (hstep : ∀ i ∈ inputs, ∀ s m, M.Related s m → ∃ m',
      step (M.other s m) i = M.other (step s i) m' ∧ M.Related (step s i) m')
    {s : σ} {m : μ} (h : M.Related s m) :
    ∃ m', inputs.foldl step (M.other s m) = M.other (inputs.foldl step s) m' ∧
      M.Related (inputs.foldl step s) m' := by
  induction inputs generalizing s m with
  | nil => exact ⟨m, rfl, h⟩
  | cons i inputs ih =>
    obtain ⟨m', heq, hrelated⟩ := hstep i List.mem_cons_self s m h
    rw [List.foldl_cons, List.foldl_cons, heq]
    exact ih (fun j hj => hstep j (List.mem_cons_of_mem _ hj)) hrelated

end TwoRuns
