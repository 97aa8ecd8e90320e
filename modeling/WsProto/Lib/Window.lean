import Mathlib

/-!
# Credit windows

A sender may put a message of any size into flight whenever it still has some
credit; the message is charged against the credit, which may become negative.
The receiver gives the credit of a message back after it has consumed it.  This
file is about that discipline alone: messages are their sizes, and what happens
between the two ends is one queue of unconsumed messages and one amount of
credit on its way back.

* `Move` — sending, consuming and restoring; `total` is unchanged by all of
  them (`Move.total_eq`).
* `Lossy` — the moves together with the loss of credit on its way back, which
  can only shrink the total.
* `Disciplined W` — what a window of size `W` guarantees: the total never
  exceeds `W`, and **the messages in front of any unconsumed one weigh less
  than `W`** — whatever their number, and however large the last one is.  It is
  kept by every lossy move (`Disciplined.lossy`), because a message is only
  sent while the credit is positive.
-/

/-- One direction of a credit-controlled channel. -/
structure CreditWindow where
  /-- What the sender may still spend; it may be overdrawn. -/
  credit : ℤ
  /-- The sizes of the unconsumed messages, oldest first. -/
  queue : List ℕ
  /-- Credit of consumed messages that has not reached the sender. -/
  owed : ℤ

namespace CreditWindow

variable {w w' : CreditWindow} {W : ℤ}

/-- Credit, unconsumed bytes and credit on its way back. -/
def total (w : CreditWindow) : ℤ := w.credit + w.queue.sum + w.owed

/-- The moves of the two ends. -/
inductive Move : CreditWindow → CreditWindow → Prop
  /-- The sender has credit and sends a message of size `n`. -/
  | send {c : ℤ} {q : List ℕ} {o : ℤ} (n : ℕ) : 0 < c → Move ⟨c, q, o⟩ ⟨c - n, q ++ [n], o⟩
  /-- The receiver consumes the oldest message. -/
  | consume {c : ℤ} {n : ℕ} {q : List ℕ} {o : ℤ} : Move ⟨c, n :: q, o⟩ ⟨c, q, o + n⟩
  /-- Credit reaches the sender. -/
  | restore {c : ℤ} {q : List ℕ} {o : ℤ} (d : ℕ) : (d : ℤ) ≤ o → Move ⟨c, q, o⟩ ⟨c + d, q, o - d⟩

/-- What can happen at all: nothing, a move, or the loss of some credit on its
way back. -/
inductive Lossy : CreditWindow → CreditWindow → Prop
  | stay {w : CreditWindow} : Lossy w w
  | move {w w' : CreditWindow} : Move w w' → Lossy w w'
  | lose {c : ℤ} {q : List ℕ} {o : ℤ} (d : ℕ) : (d : ℤ) ≤ o → Lossy ⟨c, q, o⟩ ⟨c, q, o - d⟩

/-! ## Conservation -/

/-- **Conservation.**  No move creates or destroys credit. -/
theorem Move.total_eq (h : Move w w') : w'.total = w.total := by
  cases h with
  | send n _ => simp only [total, List.sum_append, List.sum_singleton, Nat.cast_add]; ring
  | consume => simp only [total, List.sum_cons, Nat.cast_add]; ring
  | restore d _ => simp only [total]; ring

theorem Lossy.total_le (h : Lossy w w') : w'.total ≤ w.total := by
  cases h with
  | stay => exact le_refl _
  | move hm => exact hm.total_eq.le
  | lose d _ => simp only [total]; omega

/-- The order of the unconsumed messages does not matter to the total. -/
theorem total_perm {c o : ℤ} {q q' : List ℕ} (h : q.Perm q') :
    total ⟨c, q', o⟩ = total ⟨c, q, o⟩ := by
  simp only [total, h.sum_eq]

/-! ## The discipline -/

/-- What holds of a window of size `W` at all times. -/
structure Disciplined (W : ℤ) (w : CreditWindow) : Prop where
  /-- No more than the window is outstanding or available. -/
  total_le : w.total ≤ W
  owed_nonneg : 0 ≤ w.owed
  /-- What is in front of an unconsumed message weighs less than the window. -/
  front_lt : ∀ l n r, w.queue = l ++ n :: r → (l.sum : ℤ) < W

/-- A fresh window. -/
theorem disciplined_new (W : ℤ) : Disciplined W ⟨W, [], 0⟩ where
  total_le := by simp [total]
  owed_nonneg := le_refl _
  front_lt := by intro l n r h; simp at h

/-- While the sender has credit, everything unconsumed weighs less than the
window. -/
theorem Disciplined.sum_lt (h : Disciplined W w) (hc : 0 < w.credit) :
    (w.queue.sum : ℤ) < W := by
  have ht := h.total_le
  have ho := h.owed_nonneg
  simp only [total] at ht
  omega

theorem Disciplined.move (h : Disciplined W w) (hm : Move w w') : Disciplined W w' := by
  refine ⟨hm.total_eq.le.trans h.total_le, ?_, ?_⟩
  · have ho := h.owed_nonneg
    cases hm with
    | send n _ => exact ho
    | consume => simp only at ho ⊢; omega
    | restore d hd => simp only; omega
  · cases hm with
    | @send c q o n hc =>
        -- the new message is last: either it is the one looked at, or an older one is
        intro l k r hq
        have hsum := h.sum_lt hc
        rcases List.append_eq_append_iff.1 hq with ⟨a, ha, hb⟩ | ⟨b, hb, hc'⟩
        · cases a with
          | nil =>
              have hl : l = q := by simpa using ha
              rw [hl]; exact hsum
          | cons x a => simp at hb
        · cases b with
          | nil =>
              have hl : l = q := by simpa using hb.symm
              rw [hl]; exact hsum
          | cons x b =>
              have hx : x = k := by simpa using (congrArg List.head? hc').symm
              exact h.front_lt l k b (by rw [← hx]; exact hb)
    | @consume c n q o =>
        intro l k r hq
        have hf := h.front_lt (n :: l) k r (congrArg (n :: ·) hq)
        simp only [List.sum_cons, Nat.cast_add] at hf
        omega
    | restore d _ => exact h.front_lt

/-- **The discipline is kept**, also when credit is lost on its way back. -/
theorem Disciplined.lossy (h : Disciplined W w) (hl : Lossy w w') : Disciplined W w' := by
  cases hl with
  | stay => exact h
  | move hm => exact h.move hm
  | lose d hd =>
      refine ⟨le_trans (Lossy.lose d hd).total_le h.total_le, ?_, h.front_lt⟩
      simp only; omega

end CreditWindow
