import Mathlib

/-!
# Runs of a guarded transition system

A concurrent program is given here by a partial step function
`step : σ → α → Option σ`: in a state, a label names one critical section (of
one of the program's threads, or of its environment), and `none` means that
section cannot run now.  This file is the part of the theory that does not
depend on the program.

* `Reach step ok s₀` are the states of the runs from `s₀` every step of which
  meets the condition `ok`, read in the state before the step.  `ok := Always`
  gives all the runs.
* `Reach.invariant` — what holds at the start and is kept by every step that
  meets the condition holds in every state such runs reach.
* `exists_rest` — a measure that steps lower brings a system to rest.
* `Reach.climb` — a system that can always take one more step of a kind takes any
  number of them.
* `exec` runs a list of labels.  It computes, so one particular interleaving can
  be replayed by evaluation (`exists_reach_of_exec`).  A measure that every step lowers
  bounds the length of the list (`length_exec_le`).
-/

namespace Machine

variable {σ α : Type}

/-- The condition every step meets. -/
def Always (_ : σ) (_ : α) : Prop := True

instance (s : σ) (a : α) : Decidable (Always s a) := inferInstanceAs (Decidable True)

/-- The states reached from `s₀` by steps that all meet `ok`. -/
inductive Reach (step : σ → α → Option σ) (ok : σ → α → Prop) (s₀ : σ) : σ → Prop
  | refl : Reach step ok s₀ s₀
  | tail {s s' : σ} {a : α} : Reach step ok s₀ s → ok s a → step s a = some s' →
      Reach step ok s₀ s'

variable {step : σ → α → Option σ} {ok : σ → α → Prop} {s₀ s s' : σ}

/-! ## Reachable states -/

/-- **Invariants.**  The induction behind every safety statement: a property of
the first state that each admissible step keeps is a property of every state
reached. -/
theorem Reach.invariant {P : σ → Prop} (h : Reach step ok s₀ s) (h₀ : P s₀)
    (hstep : ∀ s a s', P s → ok s a → step s a = some s' → P s') : P s := by
  induction h with
  | refl => exact h₀
  | tail _ hok hs ih => exact hstep _ _ _ ih hok hs

theorem Reach.trans (h : Reach step ok s₀ s) (h' : Reach step ok s s') : Reach step ok s₀ s' := by
  induction h' with
  | refl => exact h
  | tail _ hok hs ih => exact ih.tail hok hs

/-- A step in front of a run. -/
theorem Reach.head {a : α} (hok : ok s₀ a) (hs : step s₀ a = some s) (h : Reach step ok s s') :
    Reach step ok s₀ s' :=
  (Reach.refl.tail hok hs).trans h

/-- **Coming to rest.**  A system in which every state satisfying `P` is at rest, or has
a step that comes to rest or lowers a measure, can be run until it rests. -/
theorem exists_rest {P R : σ → Prop} (μ : σ → ℕ)
    (hstep : ∀ s, P s → R s ∨ ∃ a s', ok s a ∧ step s a = some s' ∧ P s' ∧
      (R s' ∨ μ s' < μ s)) : P s → ∃ s', Reach step ok s s' ∧ R s' := by
  induction hn : μ s using Nat.strong_induction_on generalizing s with
  | _ n ih =>
      intro hs
      rcases hstep s hs with hrest | ⟨a, s', hok, ha, hs', hrest | hlt⟩
      · exact ⟨s, .refl, hrest⟩
      · exact ⟨s', Reach.refl.tail hok ha, hrest⟩
      · obtain ⟨t, ht, hrest⟩ := ih (μ s') (hn ▸ hlt) rfl hs'
        exact ⟨t, ht.head hok ha, hrest⟩

/-- **Climbing.**  A system that can always go from the `n`-th of a family of properties to
the next one reaches all of them. -/
theorem Reach.climb {P : ℕ → σ → Prop} (h : Reach step ok s₀ s) (h₀ : P 0 s)
    (hstep : ∀ n s, P n s → ∃ a s', ok s a ∧ step s a = some s' ∧ P (n + 1) s') (n : ℕ) :
    ∃ s', Reach step ok s₀ s' ∧ P n s' := by
  induction n with
  | zero => exact ⟨s, h, h₀⟩
  | succ n ih =>
      obtain ⟨t, ht, hn⟩ := ih
      obtain ⟨a, t', hok, ha, hn'⟩ := hstep n t hn
      exact ⟨t', ht.tail hok ha, hn'⟩

/-! ## Executions -/

/-- Run a list of labels in order; `none` if one of them is not enabled or does
not meet the condition. -/
def exec (step : σ → α → Option σ) (ok : σ → α → Prop) [∀ s a, Decidable (ok s a)] :
    σ → List α → Option σ
  | s, [] => some s
  | s, a :: l => if ok s a then (step s a).bind (exec step ok · l) else none

/-- Without a condition, an execution is its steps one after the other. -/
theorem exec_always_cons (s : σ) (a : α) (l : List α) :
    exec step Always s (a :: l) = (step s a).bind (exec step Always · l) :=
  if_pos trivial

/-- What an execution reaches is reached by a run. -/
theorem reach_of_exec [∀ s a, Decidable (ok s a)] : ∀ {l : List α} {s : σ},
    exec step ok s l = some s' → Reach step ok s s' := by
  intro l
  induction l with
  | nil => intro s h; cases h; exact .refl
  | cons a l ih =>
      intro s h
      rw [exec] at h
      split_ifs at h with hok
      obtain ⟨t, ht, hl⟩ := Option.bind_eq_some_iff.1 h
      exact Reach.head hok ht (ih hl)

/-- **Termination.**  A measure that every admissible step lowers bounds the number of
steps. -/
theorem length_exec_le [∀ s a, Decidable (ok s a)] {P : σ → Prop} (μ : σ → ℕ)
    (hstep : ∀ s a s', P s → ok s a → step s a = some s' → P s' ∧ μ s' < μ s) :
    ∀ {l : List α} {s : σ}, P s → exec step ok s l = some s' → P s' ∧ l.length + μ s' ≤ μ s := by
  intro l
  induction l with
  | nil => intro s hs h; cases h; exact ⟨hs, by simp⟩
  | cons a l ih =>
      intro s hs h
      rw [exec] at h
      split_ifs at h with hok
      obtain ⟨t, ht, hl⟩ := Option.bind_eq_some_iff.1 h
      obtain ⟨hpt, hlt⟩ := hstep s a t hs hok ht
      obtain ⟨hp, hle⟩ := ih hpt hl
      refine ⟨hp, ?_⟩
      rw [List.length_cons]
      omega

/-- A trace that ends in a state with the decidable property `p` shows that such
a state is reachable; the premise is closed by evaluation. -/
theorem exists_reach_of_exec (step : σ → α → Option σ) (ok : σ → α → Prop)
    [∀ s a, Decidable (ok s a)] (s₀ : σ) (p : σ → Bool) (l : List α)
    (h : (exec step ok s₀ l).map p = some true) : ∃ s, Reach step ok s₀ s ∧ p s = true := by
  obtain ⟨s, hs, hp⟩ := Option.map_eq_some_iff.1 h
  exact ⟨s, reach_of_exec hs, hp⟩

end Machine
