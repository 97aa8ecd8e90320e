import Mathlib

/-!
# Condition variables: no waiter is forgotten

Goroutines wait on a condition variable until one of several reasons to go on is
raised.  A goroutine looks for a reason, does not find it, and is then on its way
to the wait, or waiting, until it is woken; whoever raises the reason broadcasts
afterwards.  Only two things about the place `p : P` of a goroutine matter for
one reason (`Signal`): whether it has passed its look, and whether it still has a
broadcast to make.

`Safe` is the invariant of one reason: if it is raised and somebody has passed
the look, a broadcast is still to come.  The rules below say how it survives the
four kinds of step — a goroutine moves, a reason is raised, a broadcast by
somebody else, and the broadcast that was owed, which is the one that needs
nobody to be between the look and the wait.
-/

namespace CondVar

variable {ι P : Type}

/-- What one reason to go on makes of a goroutine's place. -/
structure Signal (P : Type) where
  /-- It has looked for the reason in vain, and waits or is about to. -/
  passed : P → Bool
  /-- It has raised the reason and its broadcast is still to come. -/
  wakes : P → Bool

/-- A raised reason owes a broadcast to whoever has passed. -/
def Safe (S : Signal P) (raised : Prop) (pc : ι → P) : Prop :=
  raised → ∀ i, S.passed (pc i) = true → ∃ j, S.wakes (pc j) = true

variable {S : Signal P} {raised raised' : Prop} {pc : ι → P}

theorem Safe.of_not (h : ¬ raised) : Safe S raised pc := fun hr => absurd hr h

theorem Safe.mono (h : Safe S raised pc) (hr : raised' → raised) : Safe S raised' pc :=
  fun hr' => h (hr hr')

/-- When no broadcast is to come, the reason of a goroutine that waits is not
raised. -/
theorem Safe.not_raised (h : Safe S raised pc) (hrest : ∀ j, S.wakes (pc j) = false) {i : ι}
    (hi : S.passed (pc i) = true) : ¬ raised := by
  intro hr
  obtain ⟨j, hj⟩ := h hr i hi
  simp [hrest j] at hj

/-- A change of all the places that lets nobody pass and makes nobody forget a
broadcast. -/
theorem Safe.comp (h : Safe S raised pc) {w : P → P}
    (hpass : ∀ p, S.passed (w p) = true → S.passed p = true)
    (hwake : ∀ p, S.wakes p = true → S.wakes (w p) = true) : Safe S raised fun i => w (pc i) := by
  intro hr i hi
  obtain ⟨j, hj⟩ := h hr i (hpass _ hi)
  exact ⟨j, hwake _ hj⟩

variable [DecidableEq ι] {i : ι} {q : P}

/-- A goroutine moves without passing and without forgetting a broadcast. -/
theorem Safe.move (h : Safe S raised pc) (hpass : S.passed q = true → S.passed (pc i) = true)
    (hwake : S.wakes (pc i) = true → S.wakes q = true) :
    Safe S raised (Function.update pc i q) := by
  intro hr k hk
  have hk' : ∃ k', S.passed (pc k') = true := by
    by_cases hki : k = i
    · subst hki
      rw [Function.update_self] at hk
      exact ⟨k, hpass hk⟩
    · rw [Function.update_of_ne hki] at hk
      exact ⟨k, hk⟩
  obtain ⟨k', hk'⟩ := hk'
  obtain ⟨j, hj⟩ := h hr k' hk'
  by_cases hji : j = i
  · subst hji
    exact ⟨j, by rw [Function.update_self]; exact hwake hj⟩
  · exact ⟨j, by rw [Function.update_of_ne hji]; exact hj⟩

/-- A goroutine raises the reason and will broadcast. -/
theorem Safe.raise (hq : S.wakes q = true) : Safe S raised (Function.update pc i q) :=
  fun _ _ _ => ⟨i, by rw [Function.update_self]; exact hq⟩

/-- The broadcast that was owed: if the reason is raised, it must find nobody
between the look and the wait. -/
theorem Safe.broadcast (hnone : raised → ∀ j, S.passed (pc j) = false) (hq : S.passed q = false) :
    Safe S raised (Function.update pc i q) := by
  intro hr k hk
  by_cases hki : k = i
  · subst hki
    rw [Function.update_self, hq] at hk
    cases hk
  · rw [Function.update_of_ne hki, hnone hr k] at hk
    cases hk

end CondVar
