import Mathlib

/-!
# Leaky accumulators

An accumulator takes amounts in, passes some of them on and holds the rest back; a step
may also lose something.  `Accumulator` has the balance of a step as a field, so that the
books of every instance are right.

* `balance_run` — over a whole run, what was passed on, what is held back and what was
  lost make up what was taken in;
* `conserves_iff` — where a loss is never negative, losses do not cancel: a run conserves
  what it takes in exactly if none of its steps loses anything (`Tight`);
* `tight_iff_forall` — that is, no step from any state along the run.
-/

/-- A machine that takes in an amount at each step. -/
structure Accumulator (σ ι α : Type*) [AddCommMonoid α] where
  step : σ → ι → σ
  taken : ι → α
  held : σ → α
  /-- What a step passes on. -/
  passed : σ → ι → α
  /-- What a step loses. -/
  lost : σ → ι → α
  balance : ∀ s i, passed s i + held (step s i) + lost s i = held s + taken i

namespace Accumulator

variable {σ ι α : Type*} [AddCommMonoid α] (a : Accumulator σ ι α) {s : σ} {l : List ι}

/-- The state after a run. -/
def run (s : σ) (l : List ι) : σ := l.foldl a.step s

/-- The sum of a quantity of the steps over a run. -/
def along (q : σ → ι → α) : σ → List ι → α
  | _, [] => 0
  | s, i :: l => q s i + along q (a.step s i) l

/-- No step of the run loses anything. -/
def Tight : σ → List ι → Prop
  | _, [] => True
  | s, i :: l => a.lost s i = 0 ∧ Tight (a.step s i) l

/-- **The books of a run.** -/
theorem balance_run (s : σ) (l : List ι) :
    a.along a.passed s l + a.held (a.run s l) + a.along a.lost s l =
      a.held s + (l.map a.taken).sum := by
  induction l generalizing s with
  | nil => simp [along, run]
  | cons i l ih =>
      have hrest := ih (a.step s i)
      have hrun : a.run s (i :: l) = a.run (a.step s i) l := rfl
      rw [along, along, hrun, List.map_cons, List.sum_cons]
      calc
        _ = a.passed s i + a.lost s i + (a.along a.passed (a.step s i) l +
              a.held (a.run (a.step s i) l) + a.along a.lost (a.step s i) l) := by abel
        _ = a.passed s i + a.held (a.step s i) + a.lost s i + (l.map a.taken).sum := by
              rw [hrest]; abel
        _ = _ := by rw [a.balance, add_assoc]

/-- A run without a loss, state by state. -/
theorem tight_iff_forall :
    a.Tight s l ↔ ∀ l' i, l' ++ [i] <+: l → a.lost (a.run s l') i = 0 := by
  induction l generalizing s with
  | nil =>
      refine iff_of_true trivial fun l' i h => ?_
      simp at h
  | cons j l ih =>
      rw [Tight, ih]
      constructor
      · rintro ⟨hj, hrest⟩ l' i h
        cases l' with
        | nil =>
            obtain ⟨rfl, -⟩ := List.cons_prefix_cons.1 h
            exact hj
        | cons k l' =>
            obtain ⟨rfl, hl⟩ := List.cons_prefix_cons.1 h
            exact hrest l' i hl
      · intro h
        refine ⟨h [] j (List.cons_prefix_cons.2 ⟨rfl, List.nil_prefix⟩), fun l' i hl => ?_⟩
        exact h (j :: l') i (List.cons_prefix_cons.2 ⟨rfl, hl⟩)

variable [PartialOrder α]

theorem along_lost_nonneg [IsOrderedAddMonoid α] (hpos : ∀ s i, 0 ≤ a.lost s i) (s : σ)
    (l : List ι) : 0 ≤ a.along a.lost s l := by
  induction l generalizing s with
  | nil => exact le_refl _
  | cons i l ih => exact add_nonneg (hpos s i) (ih _)

theorem along_lost_eq_zero_iff [IsOrderedAddMonoid α] (hpos : ∀ s i, 0 ≤ a.lost s i) :
    a.along a.lost s l = 0 ↔ a.Tight s l := by
  induction l generalizing s with
  | nil => exact iff_of_true rfl trivial
  | cons i l ih =>
      rw [along, Tight,
        add_eq_zero_iff_of_nonneg (hpos s i) (a.along_lost_nonneg hpos (a.step s i) l), ih]

/-- **Losses do not cancel.** -/
theorem conserves_iff [IsOrderedCancelAddMonoid α] (hpos : ∀ s i, 0 ≤ a.lost s i) :
    a.along a.passed s l + a.held (a.run s l) = a.held s + (l.map a.taken).sum ↔
      a.Tight s l := by
  rw [← a.along_lost_eq_zero_iff hpos, ← a.balance_run s l]
  exact left_eq_add

end Accumulator
