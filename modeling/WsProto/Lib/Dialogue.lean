import Mathlib

/-!
# Programs that call a service

A program that calls a service and goes on by what it is answered, as a tree: a node
for each call, a child for each answer.  A service is a state and a function that
answers a call and moves the state.  The same program can be run against several
services; the calls it makes depend on the answers it gets.

* `run_fst` — the state a run leaves is that of the calls it made, one after the other;
* `run_sim` — against services that answer alike from related states, the program returns
  the same and leaves related states.
-/

/-- A program with calls `C`, answers `A c` to a call `c`, and results in `ρ`. -/
inductive Dialogue (C : Type) (A : C → Type) (ρ : Type) where
  | done (r : ρ)
  | call (c : C) (next : A c → Dialogue C A ρ)

namespace Dialogue

variable {C : Type} {A : C → Type} {ρ σ τ : Type}

section Run

variable (service : (c : C) → σ → σ × A c)

/-- The program run against a service: the state it leaves and its result. -/
def run : Dialogue C A ρ → σ → σ × ρ
  | done r, s => (s, r)
  | call c next, s => run (next (service c s).2) (service c s).1

/-- The calls the program makes. -/
def calls : Dialogue C A ρ → σ → List C
  | done _, _ => []
  | call c next, s => c :: calls (next (service c s).2) (service c s).1

/-- The state after some calls. -/
def after (s : σ) (cs : List C) : σ := cs.foldl (fun s c => (service c s).1) s

@[simp] theorem after_nil (s : σ) : after service s [] = s := rfl

@[simp] theorem after_cons (s : σ) (c : C) (cs : List C) :
    after service s (c :: cs) = after service (service c s).1 cs := rfl

/-- A run leaves the state its calls leave. -/
theorem run_fst (d : Dialogue C A ρ) (s : σ) :
    (d.run service s).1 = after service s (d.calls service s) := by
  induction d generalizing s with
  | done r => rfl
  | call c next ih => exact ih _ _

/-- A service that never moves its state leaves it to the end. -/
theorem run_fst_of_still (h : ∀ c s, (service c s).1 = s)
    (d : Dialogue C A ρ) (s : σ) : (d.run service s).1 = s := by
  induction d generalizing s with
  | done r => rfl
  | call c next ih =>
      rw [run, h]
      exact ih _ s

end Run

/-- Two services that answer alike from related states, and keep them related, cannot be
told apart by a program. -/
theorem run_sim {service : (c : C) → σ → σ × A c} {service' : (c : C) → τ → τ × A c}
    {R : σ → τ → Prop}
    (hsim : ∀ c s t, R s t → (service c s).2 = (service' c t).2 ∧
      R (service c s).1 (service' c t).1)
    (d : Dialogue C A ρ) {s : σ} {t : τ} (h : R s t) :
    (d.run service s).2 = (d.run service' t).2 ∧
      R (d.run service s).1 (d.run service' t).1 := by
  induction d generalizing s t with
  | done r => exact ⟨rfl, h⟩
  | call c next ih =>
      obtain ⟨hanswer, hnext⟩ := hsim c s t h
      simp only [run, hanswer]
      exact ih _ hnext

end Dialogue
