/-!
# Programs that raise exceptions and keep their state

A program updates a state and returns a value or raises an exception; what it
did to the state before the exception stays. `exec p s` is the outcome and the
state it leaves.

What a program does to its state is described by a labelled transition system:
a label has a guard and an effect, and `Path G K s t` says that `t` comes from
`s` by labels of the class `K` whose guards held when they were taken. `Takes`
says it of a program.

Rules: `exec_bind`, `exec_tryCatch` and their kin compute an outcome step by
step; `Takes.bind`, `Takes.tryCatch` and `Takes.forM` compose paths;
`Path.invariant` is the invariant rule. `Returns` says that a program raises
nothing; `Returns.bind` and `Returns.tryCatch` compose it. `Keeps` says that it keeps an
invariant; there is a rule for each way to build a program.
-/

namespace Effect

variable {ε σ α β κ : Type}

/-- A program over the state `σ` that may raise `ε`. -/
abbrev Prog (ε σ : Type) := ExceptT ε (StateM σ)

/-- The outcome of a program and the state it leaves. -/
def exec (p : Prog ε σ α) (s : σ) : Except ε α × σ := StateT.run (ExceptT.run p) s

/-! ## Outcomes -/

section Outcomes
variable (p : Prog ε σ α) (f : α → Prog ε σ β) (s : σ)

@[simp] theorem exec_pure (a : α) : exec (pure a : Prog ε σ α) s = (.ok a, s) := rfl

@[simp] theorem exec_throw (e : ε) : exec (throw e : Prog ε σ α) s = (.error e, s) := rfl

@[simp] theorem exec_get : exec (get : Prog ε σ σ) s = (.ok s, s) := rfl

@[simp] theorem exec_set (t : σ) : exec (set t : Prog ε σ PUnit) s = (.ok ⟨⟩, t) := rfl

@[simp] theorem exec_modify (g : σ → σ) : exec (modify g : Prog ε σ PUnit) s = (.ok ⟨⟩, g s) := rfl

theorem exec_bind : exec (p >>= f) s =
    match exec p s with
    | (.ok a, t) => exec (f a) t
    | (.error e, t) => (.error e, t) := by
  show (match exec p s with
    | (r, t) => StateT.run (ExceptT.bindCont (ε := ε) (fun a => f a) r) t) = _
  rcases exec p s with ⟨_ | a, t⟩ <;> rfl

theorem exec_bind_ok {a : α} {t : σ} (h : exec p s = (.ok a, t)) :
    exec (p >>= f) s = exec (f a) t := by
  rw [exec_bind, h]

theorem exec_bind_error {e : ε} {t : σ} (h : exec p s = (.error e, t)) :
    exec (p >>= f) s = (.error e, t) := by
  rw [exec_bind, h]

theorem exec_tryCatch (g : ε → Prog ε σ α) : exec (tryCatch p g) s =
    match exec p s with
    | (.ok a, t) => (.ok a, t)
    | (.error e, t) => exec (g e) t := by
  show (match exec p s with
    | (r, t) => StateT.run (match r with
      | .ok a => (pure (.ok a) : StateM σ (Except ε α))
      | .error e => ExceptT.run (g e)) t) = _
  rcases exec p s with ⟨_ | a, t⟩ <;> rfl

@[simp] theorem exec_ofExcept (x : Except ε α) :
    exec (MonadExcept.ofExcept x : Prog ε σ α) s = (x, s) := by
  cases x <;> rfl

end Outcomes

/-! ## Labelled paths -/

/-- A labelled transition system: when a label may be taken and what it does. -/
structure System (κ σ : Type) where
  guard : κ → σ → Prop
  apply : κ → σ → σ

/-- From `s` to `t` by labels of the class `K`. -/
inductive Path (G : System κ σ) (K : κ → Prop) (s : σ) : σ → Prop
  | refl : Path G K s s
  | tail {t : σ} {l : κ} : Path G K s t → K l → G.guard l t → Path G K s (G.apply l t)

namespace Path

variable {G : System κ σ} {K K' : κ → Prop} {s t u : σ}

theorem single {l : κ} (hK : K l) (hg : G.guard l s) : Path G K s (G.apply l s) :=
  .tail .refl hK hg

theorem trans (h : Path G K s t) (h' : Path G K t u) : Path G K s u := by
  induction h' with
  | refl => exact h
  | tail _ hK hg ih => exact .tail ih hK hg

theorem mono (hK : ∀ l, K l → K' l) (h : Path G K s t) : Path G K' s t := by
  induction h with
  | refl => exact .refl
  | tail _ hl hg ih => exact .tail ih (hK _ hl) hg

/-- The invariant rule: what every label of the class keeps, the path keeps. -/
theorem invariant {I : σ → Prop} (hstep : ∀ l s, K l → G.guard l s → I s → I (G.apply l s))
    (h : Path G K s t) (hs : I s) : I t := by
  induction h with
  | refl => exact hs
  | tail _ hK hg ih => exact hstep _ _ hK hg ih

/-- What no label of the class changes, the path does not change. -/
theorem frame {ρ : Type} (f : σ → ρ) (hstep : ∀ l s, K l → G.guard l s → f (G.apply l s) = f s)
    (h : Path G K s t) : f t = f s := by
  induction h with
  | refl => rfl
  | tail _ hK hg ih => exact (hstep _ _ hK hg).trans ih

end Path

/-! ## Paths of programs -/

/-- Run from `s`, the program takes a path of the class `K`. -/
def Takes (G : System κ σ) (K : κ → Prop) (p : Prog ε σ α) (s : σ) : Prop :=
  Path G K s (exec p s).2

namespace Takes

variable {G : System κ σ} {K K' : κ → Prop} {p : Prog ε σ α} {s : σ}

theorem nothing (h : (exec p s).2 = s) : Takes G K p s := by
  rw [Takes, h]
  exact .refl

theorem mono (hK : ∀ l, K l → K' l) (h : Takes G K p s) : Takes G K' p s := Path.mono hK h

/-- A program that does what one label does. -/
theorem label (l : κ) (h : (exec p s).2 = G.apply l s) (hK : K l) (hg : G.guard l s) :
    Takes G K p s := by
  rw [Takes, h]
  exact .single hK hg

theorem bind {f : α → Prog ε σ β} (hp : Takes G K p s)
    (hf : ∀ a t, exec p s = (.ok a, t) → Takes G K (f a) t) : Takes G K (p >>= f) s := by
  rw [Takes, exec_bind]
  match h : exec p s with
  | (.ok a, t) =>
    rw [Takes, h] at hp
    exact hp.trans (hf a t h)
  | (.error e, t) =>
    rw [Takes, h] at hp
    exact hp

/-- Reading the state takes no label. -/
theorem get_bind {f : σ → Prog ε σ β} (h : Takes G K (f s) s) :
    Takes G K (get >>= f : Prog ε σ β) s := h

/-- Neither does a value computed on the side. -/
theorem ofExcept_bind {x : Except ε α} {f : α → Prog ε σ β}
    (h : ∀ a, x = .ok a → Takes G K (f a) s) :
    Takes G K ((MonadExcept.ofExcept x : Prog ε σ α) >>= f) s := by
  cases x with
  | error e => exact .refl
  | ok a => exact h a rfl

theorem tryCatch {g : ε → Prog ε σ α} (hp : Takes G K p s)
    (hg : ∀ e t, exec p s = (.error e, t) → Takes G K (g e) t) :
    Takes G K (tryCatch p g) s := by
  rw [Takes, exec_tryCatch]
  match h : exec p s with
  | (.ok a, t) =>
    rw [Takes, h] at hp
    exact hp
  | (.error e, t) =>
    rw [Takes, h] at hp
    exact hp.trans (hg e t h)

/-- The loop rule, with an invariant for the states the turns start from. -/
theorem forM (I : σ → Prop) {xs : List β} {f : β → Prog ε σ PUnit} (hs : I s)
    (hf : ∀ x ∈ xs, ∀ t, I t → Takes G K (f x) t ∧ I (exec (f x) t).2) :
    Takes G K (xs.forM f) s := by
  induction xs generalizing s with
  | nil => exact .refl
  | cons x xs ih =>
    obtain ⟨hx, hinv⟩ := hf x List.mem_cons_self s hs
    show Takes G K (f x >>= fun _ => xs.forM f) s
    refine hx.bind fun _ t ht => ?_
    rw [ht] at hinv
    exact ih hinv fun y hy => hf y (List.mem_cons_of_mem _ hy)

end Takes

/-! ## Programs that return -/

/-- Run from `s`, the program raises nothing, and ends as `Q` says. -/
def Returns (Q : α → σ → Prop) (p : Prog ε σ α) (s : σ) : Prop :=
  ∃ a t, exec p s = (.ok a, t) ∧ Q a t

namespace Returns

variable {Q : α → σ → Prop} {R : β → σ → Prop} {p : Prog ε σ α} {s : σ}

theorem of_exec {a : α} {t : σ} (h : exec p s = (.ok a, t)) (hQ : Q a t) : Returns Q p s :=
  ⟨a, t, h, hQ⟩

theorem bind {f : α → Prog ε σ β} (hp : Returns Q p s)
    (hf : ∀ a t, Q a t → Returns R (f a) t) : Returns R (p >>= f) s := by
  obtain ⟨a, t, h, hQ⟩ := hp
  obtain ⟨b, u, hfa, hR⟩ := hf a t hQ
  exact ⟨b, u, by rw [exec_bind_ok p f s h, hfa], hR⟩

/-- Reading the state raises nothing. -/
theorem get_bind {f : σ → Prog ε σ β} (h : Returns R (f s) s) :
    Returns R (get >>= f : Prog ε σ β) s := h

/-- The handler returns from what the program raises. -/
theorem tryCatch {g : ε → Prog ε σ α} (h : Returns Q p s ∨
    ∃ e t, exec p s = (.error e, t) ∧ Returns Q (g e) t) : Returns Q (tryCatch p g) s := by
  rcases h with ⟨a, t, hex, hQ⟩ | ⟨e, t, hex, a, u, hg, hQ⟩
  · exact ⟨a, t, by rw [exec_tryCatch, hex], hQ⟩
  · exact ⟨a, u, by rw [exec_tryCatch, hex]; exact hg, hQ⟩

/-- A program that raises does not return. -/
theorem not_of_error {e : ε} (h : (exec p s).1 = .error e) : ¬ Returns Q p s := by
  rintro ⟨a, t, hex, _⟩
  rw [hex] at h
  cases h

end Returns

/-! ## Programs that keep an invariant -/

/-- From a state with the invariant, the program leaves one with it, also when it raises,
and returns nothing but values as `Q` says. -/
def Keeps (I : σ → Prop) (Q : α → Prop) (p : Prog ε σ α) : Prop :=
  ∀ s, I s → I (exec p s).2 ∧ ∀ a, (exec p s).1 = .ok a → Q a

namespace Keeps

variable {I : σ → Prop} {Q : α → Prop} {R : β → Prop} {p : Prog ε σ α}

theorem pure {a : α} (h : Q a) : Keeps I Q (Pure.pure a : Prog ε σ α) := fun _ hs =>
  ⟨hs, fun _ hb => Except.ok.inj hb ▸ h⟩

theorem throw (e : ε) : Keeps I Q (MonadExcept.throw e : Prog ε σ α) := fun _ hs =>
  ⟨hs, fun _ h => by cases h⟩

theorem ofExcept {x : Except ε α} (h : ∀ a, x = .ok a → Q a) :
    Keeps I Q (MonadExcept.ofExcept x : Prog ε σ α) := by
  intro s hs
  rw [exec_ofExcept]
  exact ⟨hs, h⟩

theorem modify {f : σ → σ} {Q : PUnit → Prop} (hQ : Q ⟨⟩) (h : ∀ s, I s → I (f s)) :
    Keeps I Q (modify f : Prog ε σ PUnit) := fun s hs =>
  ⟨h s hs, fun _ _ => hQ⟩

theorem set_bind {t : σ} {f : PUnit → Prog ε σ β} (ht : I t) (h : Keeps I R (f ⟨⟩)) :
    Keeps I R (set t >>= f : Prog ε σ β) := fun _ _ => h t ht

theorem bind {f : α → Prog ε σ β} (hp : Keeps I Q p) (hf : ∀ a, Q a → Keeps I R (f a)) :
    Keeps I R (p >>= f) := by
  intro s hs
  obtain ⟨ht, hQ⟩ := hp s hs
  cases h : exec p s with
  | mk r t =>
    rw [h] at ht hQ
    cases r with
    | error e =>
      rw [exec_bind_error _ _ _ h]
      exact ⟨ht, fun _ hb => by cases hb⟩
    | ok a =>
      rw [exec_bind_ok _ _ _ h]
      exact hf a (hQ a rfl) t ht

/-- What the program reads has the invariant. -/
theorem get_bind {f : σ → Prog ε σ β} (h : ∀ s, I s → Keeps I R (f s)) :
    Keeps I R (get >>= f : Prog ε σ β) := fun s hs => h s hs s hs

theorem ofExcept_bind {x : Except ε α} {f : α → Prog ε σ β}
    (h : ∀ a, x = .ok a → Keeps I R (f a)) :
    Keeps I R ((MonadExcept.ofExcept x : Prog ε σ α) >>= f) :=
  bind (Q := fun a => x = .ok a) (ofExcept fun _ ha => ha) h

theorem tryCatch {g : ε → Prog ε σ α} (hp : Keeps I Q p) (hg : ∀ e, Keeps I Q (g e)) :
    Keeps I Q (tryCatch p g) := by
  intro s hs
  obtain ⟨ht, hQ⟩ := hp s hs
  rw [exec_tryCatch]
  cases h : exec p s with
  | mk r t =>
    rw [h] at ht hQ
    cases r with
    | error e => exact hg e t ht
    | ok a => exact ⟨ht, hQ⟩

theorem ite {c : Prop} [Decidable c] {q : Prog ε σ α} (hp : c → Keeps I Q p)
    (hq : ¬ c → Keeps I Q q) : Keeps I Q (if c then p else q) := by
  split
  · exact hp ‹_›
  · exact hq ‹_›

theorem forM {xs : List β} {f : β → Prog ε σ PUnit} {Q : PUnit → Prop} (hQ : Q ⟨⟩)
    (h : ∀ x ∈ xs, Keeps I (fun _ => True) (f x)) : Keeps I Q (xs.forM f) := by
  induction xs with
  | nil => exact pure hQ
  | cons x xs ih =>
    exact bind (h x List.mem_cons_self) fun _ _ => ih fun y hy => h y (List.mem_cons_of_mem _ hy)

end Keeps

end Effect
