import Mathlib.Data.Nat.Log
import Mathlib.Tactic.Ring
import Mathlib.Tactic.NormNum

/-!
# Integers as doubles

The conversion of an integer to an IEEE 754 binary64 rounds to the nearest double, and to the
one with the even significand where two are equally near.  A double that is a natural number
is a multiple of its `ulp`; for those doubling is exact.

* `round_of_exact`, `exact_round` — doubles are their own rounding, and roundings are doubles;
* `exact_two_mul` — twice a double is one;
* `two_pow_le_round_iff` — which numbers below a power of two are rounded up to it.
-/

namespace Binary64

/-- The distance of two neighbouring doubles at `n`, or one where that is less. -/
def ulp (n : ℕ) : ℕ := 2 ^ (Nat.log2 n - 52)

/-- The double nearest to `n`. -/
def round (n : ℕ) : ℕ :=
  if n % ulp n * 2 < ulp n ∨ n % ulp n * 2 = ulp n ∧ n / ulp n % 2 = 0 then n / ulp n * ulp n
  else (n / ulp n + 1) * ulp n

/-- The number is a double. -/
def Exact (n : ℕ) : Prop := ulp n ∣ n

instance (n : ℕ) : Decidable (Exact n) := inferInstanceAs (Decidable (ulp n ∣ n))

theorem ulp_pos (n : ℕ) : 0 < ulp n := Nat.two_pow_pos _

theorem round_of_exact {n : ℕ} (h : Exact n) : round n = n := by
  have hmod : n % ulp n = 0 := Nat.mod_eq_zero_of_dvd h
  rw [round, hmod, if_pos (.inl (by rw [Nat.zero_mul]; exact ulp_pos n))]
  exact Nat.div_mul_cancel h

theorem ulp_of_lt {n : ℕ} (h : n < 2 ^ 53) : ulp n = 1 := by
  have hlog : Nat.log2 n ≤ 52 := by
    rcases Nat.eq_zero_or_pos n with rfl | hpos
    · decide
    · exact Nat.le_of_lt_succ ((Nat.log2_lt hpos.ne').2 h)
  rw [ulp, Nat.sub_eq_zero_of_le hlog, pow_zero]

theorem exact_of_lt {n : ℕ} (h : n < 2 ^ 53) : Exact n := by
  rw [Exact, ulp_of_lt h]
  exact one_dvd n

theorem exact_of_le {n : ℕ} (h : n ≤ 2 ^ 53) : Exact n := by
  rcases h.lt_or_eq with hlt | rfl
  · exact exact_of_lt hlt
  · decide

/-- The double nearest to an integer. -/
def roundInt : ℤ → ℤ
  | .ofNat n => round n
  | .negSucc n => -round (n + 1)

theorem roundInt_of_le {z : ℤ} (h : z.natAbs ≤ 2 ^ 53) : roundInt z = z := by
  cases z with
  | ofNat n => exact congrArg Int.ofNat (round_of_exact (exact_of_le h))
  | negSucc n =>
      have hn : n + 1 ≤ 2 ^ 53 := h
      rw [roundInt, round_of_exact (exact_of_le hn)]
      rfl

/-- The significand of a number that needs all its bits. -/
theorem div_ulp_bounds {n k : ℕ} (hk : Nat.log2 n = 52 + k) (hn : n ≠ 0) :
    ulp n = 2 ^ k ∧ 2 ^ 52 ≤ n / ulp n ∧ n / ulp n < 2 ^ 53 := by
  have hulp : ulp n = 2 ^ k := by rw [ulp, hk, Nat.add_sub_cancel_left]
  have hle : 2 ^ (52 + k) ≤ n := hk ▸ Nat.log2_self_le hn
  have hlt : n < 2 ^ (52 + k + 1) := hk ▸ Nat.lt_log2_self
  refine ⟨hulp, ?_, ?_⟩
  · rw [hulp, Nat.le_div_iff_mul_le (Nat.two_pow_pos k), ← pow_add]
    exact hle
  · rw [hulp, Nat.div_lt_iff_lt_mul (Nat.two_pow_pos k), ← pow_add]
    calc n < 2 ^ (52 + k + 1) := hlt
      _ = 2 ^ (53 + k) := by ring

/-- A significand of 53 bits, or the next power of two, times a power of two is a double. -/
theorem exact_mul_two_pow {q k : ℕ} (hq : 2 ^ 52 ≤ q) (hq' : q ≤ 2 ^ 53) : Exact (q * 2 ^ k) := by
  rcases hq'.lt_or_eq with hlt | rfl
  · have hlog : Nat.log2 (q * 2 ^ k) = 52 + k := by
      rw [Nat.log2_eq_iff (Nat.mul_ne_zero (by omega) (Nat.two_pow_pos k).ne')]
      constructor
      · rw [pow_add]
        exact Nat.mul_le_mul_right _ hq
      · calc q * 2 ^ k < 2 ^ 53 * 2 ^ k := Nat.mul_lt_mul_of_pos_right hlt (Nat.two_pow_pos k)
          _ = 2 ^ (52 + k + 1) := by ring
    rw [Exact, ulp, hlog, Nat.add_sub_cancel_left]
    exact Nat.dvd_mul_left _ _
  · rw [Exact, ulp, ← pow_add, Nat.log2_two_pow]
    exact pow_dvd_pow 2 (by omega)

theorem exact_round (n : ℕ) : Exact (round n) := by
  by_cases hn : n < 2 ^ 53
  · rw [round_of_exact (exact_of_lt hn)]
    exact exact_of_lt hn
  · have hne : n ≠ 0 := by omega
    have hlog : 53 ≤ Nat.log2 n := (Nat.le_log2 hne).2 (not_lt.1 hn)
    obtain ⟨k, hk⟩ := Nat.exists_eq_add_of_le (show 52 ≤ Nat.log2 n by omega)
    obtain ⟨hulp, hle, hlt⟩ := div_ulp_bounds hk hne
    unfold round
    split_ifs
    · rw [hulp] at *
      exact exact_mul_two_pow hle hlt.le
    · rw [hulp] at *
      exact exact_mul_two_pow (hle.trans (Nat.le_succ _)) hlt

theorem exact_two_mul {n : ℕ} (h : Exact n) : Exact (2 * n) := by
  rcases Nat.eq_zero_or_pos n with rfl | hpos
  · exact h
  · have hlog : Nat.log2 (2 * n) = Nat.log2 n + 1 := Nat.log2_two_mul hpos.ne'
    rw [Exact, ulp, hlog]
    by_cases hle : 52 ≤ Nat.log2 n
    · rw [Nat.succ_sub hle, pow_succ, Nat.mul_comm 2 n]
      exact Nat.mul_dvd_mul_right h 2
    · rw [Nat.sub_eq_zero_of_le (by omega), pow_zero]
      exact one_dvd _

theorem exact_mul_pow {n : ℕ} (h : Exact n) (k : ℕ) : Exact (n * 2 ^ k) := by
  induction k with
  | zero => rwa [pow_zero, Nat.mul_one]
  | succ k ih =>
      rw [pow_succ, ← Nat.mul_assoc, Nat.mul_comm _ 2]
      exact exact_two_mul ih

theorem round_le (n : ℕ) : round n ≤ (n / ulp n + 1) * ulp n := by
  unfold round
  split_ifs
  · exact Nat.mul_le_mul_right _ (Nat.le_succ _)
  · exact le_rfl

/-- What needs more than 53 bits is not rounded below that. -/
theorem two_pow_le_round {n : ℕ} (hn : 2 ^ 53 ≤ n) : 2 ^ 53 ≤ round n := by
  have hne : n ≠ 0 := by omega
  have hlog : 53 ≤ Nat.log2 n := (Nat.le_log2 hne).2 hn
  obtain ⟨k, hk⟩ := Nat.exists_eq_add_of_le (show 52 ≤ Nat.log2 n by omega)
  obtain ⟨hulp, hq, -⟩ := div_ulp_bounds hk hne
  have htwo : 2 ^ 1 ≤ ulp n := by
    rw [hulp]
    exact Nat.pow_le_pow_right (by decide) (by omega)
  have hdown : n / ulp n * ulp n ≤ round n := by
    unfold round
    split_ifs
    · exact le_rfl
    · exact Nat.mul_le_mul_right _ (Nat.le_succ _)
  calc 2 ^ 53 = 2 ^ 52 * 2 ^ 1 := by norm_num
    _ ≤ n / ulp n * ulp n := Nat.mul_le_mul hq htwo
    _ ≤ round n := hdown

/-- Rounding does not pass a power of two. -/
theorem round_le_two_pow {n k : ℕ} (hn : n < 2 ^ (53 + k)) : round n ≤ 2 ^ (53 + k) := by
  by_cases hsmall : n < 2 ^ 53
  · rw [round_of_exact (exact_of_lt hsmall)]
    exact hn.le
  · have hne : n ≠ 0 := by omega
    have hlog : 53 ≤ Nat.log2 n := (Nat.le_log2 hne).2 (not_lt.1 hsmall)
    have hlt : Nat.log2 n < 53 + k := (Nat.log2_lt hne).2 hn
    obtain ⟨j, hj⟩ := Nat.exists_eq_add_of_le (show 52 ≤ Nat.log2 n by omega)
    obtain ⟨hulp, -, hq⟩ := div_ulp_bounds hj hne
    calc round n ≤ (n / ulp n + 1) * ulp n := round_le n
      _ ≤ 2 ^ 53 * 2 ^ j := by
        rw [hulp] at hq ⊢
        exact Nat.mul_le_mul_right _ hq
      _ = 2 ^ (53 + j) := (pow_add 2 53 j).symm
      _ ≤ 2 ^ (53 + k) := Nat.pow_le_pow_right (by decide) (by omega)

/-- **What is rounded up to a power of two**: the numbers within half an ulp of it. -/
theorem two_pow_le_round_iff {n k : ℕ} (hn : n < 2 ^ (54 + k)) :
    2 ^ (54 + k) ≤ round n ↔ 2 ^ (54 + k) - 2 ^ k ≤ n := by
  have hpow : 2 ^ (54 + k) = 2 ^ 54 * 2 ^ k := pow_add 2 54 k
  have hhalf : 2 ^ (53 + k) = 2 ^ 53 * 2 ^ k := pow_add 2 53 k
  have hpos : 0 < 2 ^ k := Nat.two_pow_pos k
  by_cases hlow : n < 2 ^ (53 + k)
  · have hround := round_le_two_pow hlow
    omega
  · have hne : n ≠ 0 := by omega
    have hlog : Nat.log2 n = 52 + (k + 1) := by
      rw [Nat.log2_eq_iff hne]
      exact ⟨by rw [show 52 + (k + 1) = 53 + k by omega]; exact not_lt.1 hlow,
        by rw [show 52 + (k + 1) + 1 = 54 + k by omega]; exact hn⟩
    obtain ⟨hulp, -, hq⟩ := div_ulp_bounds hlog hne
    have hulp' : ulp n = 2 * 2 ^ k := by rw [hulp, pow_succ, Nat.mul_comm]
    have hsplit := Nat.div_add_mod n (ulp n)
    have hmod := Nat.mod_lt n (ulp_pos n)
    rcases (Nat.le_sub_one_of_lt hq).lt_or_eq with hless | htop
    · -- a double lies strictly between the two
      have hup : (n / ulp n + 1) * ulp n ≤ (2 ^ 53 - 1) * ulp n :=
        Nat.mul_le_mul_right _ hless
      norm_num at hup
      have hround := round_le n
      rw [Nat.add_mul, Nat.one_mul, Nat.mul_comm] at hup
      rw [Nat.add_mul, Nat.one_mul, Nat.mul_comm] at hround
      omega
    · -- the last significand is odd, so that a tie goes up
      norm_num at htop
      have hodd : ¬n / ulp n % 2 = 0 := by
        rw [htop]
        decide
      unfold round
      simp only [hodd, and_false, or_false]
      rw [htop] at hsplit ⊢
      split_ifs
      · omega
      · omega

end Binary64
