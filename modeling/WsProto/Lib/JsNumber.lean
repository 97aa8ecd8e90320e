import WsProto.Lib.Decimal

/-!
# Positive numbers of ECMAScript and their text

A positive finite `Number` is a double.  `Number::toString` prints the shortest
decimal that reads back as the same double, in one of four layouts that depend on
where the decimal point falls.  Which of the texts are plain decimal integers, and
which integers they are, is what the other end of a wire needs to know:

* `parse_toBytes_of_nat` — an integer below `2 ^ 53` is printed digit by digit;
* `value_of_parse_toBytes` — a text that reads as an integer below `2 ^ 53` was
  printed by that integer, and one that reads as a larger integer by a number that is
  at least `2 ^ 53`.
-/

/-- A nonnegative finite IEEE 754 binary64 number. -/
def IsDouble (q : ℚ) : Prop :=
  ∃ (m : ℕ) (e : ℤ), m < 2 ^ 53 ∧ -1074 ≤ e ∧ e ≤ 971 ∧ q = m * 2 ^ e

/-- Every integer up to `2 ^ 53` is a double. -/
theorem isDouble_natCast {n : ℕ} (h : n ≤ 2 ^ 53) : IsDouble n := by
  rcases h.lt_or_eq with h | rfl
  · exact ⟨n, 0, h, by norm_num, by norm_num, by simp⟩
  · exact ⟨2 ^ 52, 1, by norm_num, by norm_num, by norm_num, by norm_num⟩

/-- A positive finite `Number`, with the decimal `digits * 10 ^ exp` that
`Number::toString` prints. -/
structure JsNumber where
  value : ℚ
  digits : ℕ
  exp : ℤ
  isDouble : IsDouble value
  pos : 0 < value
  reduced : ¬ 10 ∣ digits
  /-- The decimal reads back as the number. -/
  reads : ∀ y, IsDouble y → |value - digits * 10 ^ exp| ≤ |y - digits * 10 ^ exp|
  /-- No decimal that reads back as the number has fewer digits. -/
  shortest : ∀ (d : ℕ) (e : ℤ),
    (∀ y, IsDouble y → y ≠ value → |value - d * 10 ^ e| < |y - d * 10 ^ e|) →
    (Decimal.format digits).length ≤ (Decimal.format d).length

namespace JsNumber

/-- `Number::toString`, base ten. -/
def toBytes (x : JsNumber) : List UInt8 :=
  let ds := Decimal.format x.digits
  let k : ℤ := ds.length
  let n : ℤ := k + x.exp
  if k ≤ n ∧ n ≤ 21 then ds ++ List.replicate (n - k).toNat (Decimal.digit 0)
  else if 0 < n ∧ n ≤ 21 then ds.take n.toNat ++ '.'.toUInt8 :: ds.drop n.toNat
  else if -6 < n ∧ n ≤ 0 then
    Decimal.digit 0 :: '.'.toUInt8 :: (List.replicate (-n).toNat (Decimal.digit 0) ++ ds)
  else
    (if k = 1 then ds else ds.take 1 ++ '.'.toUInt8 :: ds.drop 1) ++
      'e'.toUInt8 :: (if 0 ≤ n - 1 then '+' else '-').toUInt8 ::
        Decimal.format (n - 1).natAbs

variable (x : JsNumber)

/-- The decimal the number is printed as. -/
def dec : ℚ := x.digits * 10 ^ x.exp

/-! ## The layouts -/

/-- The decimal point and the exponent mark are no digits. -/
theorem parse_dot {l : List UInt8} (h : '.'.toUInt8 ∈ l) : Decimal.parse l = none :=
  Decimal.parse_eq_none h (by decide)

theorem parse_mark {l : List UInt8} (h : 'e'.toUInt8 ∈ l) : Decimal.parse l = none :=
  Decimal.parse_eq_none h (by decide)

/-- Only a decimal without a fraction is printed as digits alone. -/
theorem parse_toBytes :
    Decimal.parse x.toBytes =
      if 0 ≤ x.exp ∧ (Decimal.format x.digits).length + x.exp ≤ 21 then
        some (x.digits * 10 ^ x.exp.toNat) else none := by
  have hexp : ((Decimal.format x.digits).length + x.exp
      - (Decimal.format x.digits).length : ℤ) = x.exp := by ring
  have hcond : ((Decimal.format x.digits).length : ℤ) ≤ (Decimal.format x.digits).length + x.exp ↔
      0 ≤ x.exp := by omega
  simp only [toBytes, hexp, hcond]
  by_cases hint : 0 ≤ x.exp ∧ (Decimal.format x.digits).length + x.exp ≤ 21
  · rw [if_pos hint, if_pos hint]
    exact Decimal.parse_format_zeros _ _
  · rw [if_neg hint, if_neg hint]
    split
    · exact parse_dot (List.mem_append_right _ List.mem_cons_self)
    · split
      · exact parse_dot (List.mem_cons_of_mem _ List.mem_cons_self)
      · exact parse_mark (List.mem_append_right _ List.mem_cons_self)

/-- The text begins with a digit. -/
theorem head_toBytes : ∃ b l, x.toBytes = b :: l ∧ Decimal.isDigit b = true := by
  obtain ⟨b, l, hbl⟩ := List.exists_cons_of_ne_nil (Decimal.format_ne_nil x.digits)
  have hb : Decimal.isDigit b = true :=
    Decimal.isDigit_of_mem_format (n := x.digits) (hbl ▸ List.mem_cons_self)
  simp only [toBytes, hbl]
  split
  · exact ⟨b, _, rfl, hb⟩
  · split
    · rename_i hn
      -- the point stands after at least one digit
      obtain ⟨j, hj⟩ : ∃ j, (((b :: l).length : ℤ) + x.exp).toNat = j + 1 :=
        ⟨(((b :: l).length : ℤ) + x.exp).toNat - 1, by omega⟩
      rw [hj, List.take_succ_cons]
      exact ⟨b, _, rfl, hb⟩
    · split
      · exact ⟨Decimal.digit 0, _, rfl, by decide⟩
      · split
        · exact ⟨b, _, rfl, hb⟩
        · exact ⟨b, _, rfl, hb⟩

/-! ## Numbers and their decimals -/

theorem digits_ne_zero : x.digits ≠ 0 := by
  intro h
  apply x.reduced
  rw [h]
  exact dvd_zero 10

/-- A decimal that is an integer a double can hold is the number itself. -/
theorem value_eq_of_dec {n : ℕ} (hn : n ≤ 2 ^ 53) (hd : x.dec = n) : x.value = n := by
  have h := x.reads n (isDouble_natCast hn)
  rw [← dec, hd, sub_self, abs_zero] at h
  exact sub_eq_zero.1 (abs_eq_zero.1 (le_antisymm h (abs_nonneg _)))

/-- A larger decimal is of a number that is not below `2 ^ 53`. -/
theorem le_value_of_dec (hd : 2 ^ 53 ≤ x.dec) : 2 ^ 53 ≤ x.value := by
  have h := x.reads (2 ^ 53 : ℕ) (isDouble_natCast le_rfl)
  rw [← dec] at h
  have hright : |((2 ^ 53 : ℕ) : ℚ) - x.dec| = x.dec - 2 ^ 53 := by
    rw [abs_sub_comm]
    push_cast
    exact abs_of_nonneg (sub_nonneg.2 hd)
  rw [hright] at h
  have := (abs_le.1 h).1
  linarith

/-- A decimal with a fraction is at most a tenth of its digits. -/
theorem ten_mul_dec_le (h : x.exp < 0) : 10 * x.dec ≤ x.digits := by
  have hpow : (10 : ℚ) ^ x.exp ≤ 10 ^ (-1 : ℤ) := zpow_le_zpow_right₀ (by norm_num) (by omega)
  have hle : x.dec ≤ x.digits * 10 ^ (-1 : ℤ) :=
    mul_le_mul_of_nonneg_left hpow (Nat.cast_nonneg _)
  rw [zpow_neg_one] at hle
  linarith

/-- No double lies between a decimal and a number above it. -/
theorem value_le_of_dec_le {y : ℚ} (hy : IsDouble y) (hd : x.dec ≤ y) : x.value ≤ y := by
  have h := x.reads y hy
  rw [← dec, abs_of_nonneg (sub_nonneg.2 hd)] at h
  have := (abs_le.1 h).2
  linarith

/-- The decimal of an integer below `2 ^ 53` has no fraction: as a fraction it would
need more digits than the integer itself. -/
theorem exp_nonneg_of_nat {n : ℕ} (hn : n < 2 ^ 53) (hv : x.value = n) : 0 ≤ x.exp := by
  by_contra hneg
  have hn0 : n ≠ 0 := by
    rintro rfl
    have := x.pos
    simp [hv] at this
  obtain ⟨j, d, hd, hnd⟩ := Nat.exists_eq_pow_mul_and_not_dvd hn0 10 (by norm_num)
  have hd0 : d ≠ 0 := by
    rintro rfl
    exact hd (dvd_zero 10)
  -- the printed decimal is no longer than the integer without its zeros
  have hlen : (Decimal.format x.digits).length ≤ (Decimal.format d).length := by
    apply x.shortest d j
    intro y _ hy
    have hval : x.value = d * 10 ^ (j : ℤ) := by
      rw [hv, hnd]
      push_cast
      rw [zpow_natCast, mul_comm]
    rw [hval] at hy ⊢
    rw [sub_self, abs_zero]
    exact abs_pos.2 (sub_ne_zero.2 hy)
  set k := (Decimal.format x.digits).length with hk
  have hk1 : 0 < k := List.length_pos_of_ne_nil (Decimal.format_ne_nil _)
  have hpd : 10 ^ (k - 1) ≤ d :=
    (Nat.pow_le_pow_right (by norm_num) (by omega)).trans (Decimal.pow_length_format_le hd0)
  have hdn : d ≤ n := by
    rw [hnd]
    exact Nat.le_mul_of_pos_left d (by positivity)
  -- so the decimal is below the power of ten the integer reaches
  have hlt : x.digits < 10 * 10 ^ (k - 1) := by
    rw [← pow_succ', Nat.sub_add_cancel hk1]
    exact Decimal.lt_pow_length_format x.digits_ne_zero
  have hdec := x.ten_mul_dec_le (by omega)
  have hnp : n ≤ 10 ^ (k - 1) := by
    have hle : x.dec ≤ ((10 ^ (k - 1) : ℕ) : ℚ) := by
      have : (x.digits : ℚ) ≤ ((10 * 10 ^ (k - 1) : ℕ) : ℚ) := by exact_mod_cast hlt.le
      push_cast at this ⊢
      linarith
    have := x.value_le_of_dec_le (isDouble_natCast (by omega)) hle
    rw [hv] at this
    exact_mod_cast this
  -- and the integer is that power, hence one, where a fraction is nearer to zero
  have hk0 : k - 1 = 0 := by
    by_contra h
    apply hd
    rw [show d = 10 ^ (k - 1) by omega]
    exact dvd_pow_self 10 h
  rw [hk0, pow_zero] at hlt hnp
  have hbelow : IsDouble (1 - 1 / 2 ^ 53) :=
    ⟨2 ^ 53 - 1, -53, by norm_num, by norm_num, by norm_num, by norm_num⟩
  have hle : x.dec ≤ 1 - 1 / 2 ^ 53 := by
    have : (x.digits : ℚ) ≤ 9 := by exact_mod_cast (by omega : x.digits ≤ 9)
    linarith
  have := x.value_le_of_dec_le hbelow hle
  rw [hv, show n = 1 by omega] at this
  norm_num at this

/-! ## Reading the text -/

theorem dec_eq_natCast (h : 0 ≤ x.exp) : x.dec = ((x.digits * 10 ^ x.exp.toNat : ℕ) : ℚ) := by
  have hexp : x.exp = (x.exp.toNat : ℤ) := (Int.toNat_of_nonneg h).symm
  rw [dec, hexp, zpow_natCast, Int.toNat_natCast]
  push_cast
  rfl

/-- **A text that reads as an integer was printed by it**, when the integer is below
`2 ^ 53`; a larger one was printed by a number that is at least `2 ^ 53`. -/
theorem value_of_parse_toBytes {n : ℕ} (h : Decimal.parse x.toBytes = some n) :
    (n < 2 ^ 53 → x.value = n) ∧ (2 ^ 53 ≤ n → 2 ^ 53 ≤ x.value) := by
  rw [parse_toBytes] at h
  split at h
  · rename_i hint
    have hd : x.dec = n := by rw [x.dec_eq_natCast hint.1, Option.some.inj h]
    constructor
    · intro hn
      exact x.value_eq_of_dec hn.le hd
    · intro hn
      apply x.le_value_of_dec
      rw [hd]
      exact_mod_cast hn
  · cases h

/-- **An integer below `2 ^ 53` is printed digit by digit.** -/
theorem parse_toBytes_of_nat {n : ℕ} (hn : n < 2 ^ 53) (hv : x.value = n) :
    Decimal.parse x.toBytes = some n := by
  have hexp := x.exp_nonneg_of_nat hn hv
  set m := x.digits * 10 ^ x.exp.toNat with hm
  have hd : x.dec = m := x.dec_eq_natCast hexp
  have hmn : m = n := by
    by_cases hlt : m ≤ 2 ^ 53
    · have := x.value_eq_of_dec hlt hd
      rw [hv] at this
      exact_mod_cast this.symm
    · have : (2 : ℚ) ^ 53 ≤ n := by
        rw [← hv]
        apply x.le_value_of_dec
        rw [hd]
        exact_mod_cast (by omega : 2 ^ 53 ≤ m)
      have : 2 ^ 53 ≤ n := by exact_mod_cast this
      omega
  -- sixteen digits are within the twenty-one of the integer layout
  have hlen : 10 ^ ((Decimal.format x.digits).length - 1 + x.exp.toNat) < 10 ^ 16 := by
    calc 10 ^ ((Decimal.format x.digits).length - 1 + x.exp.toNat)
        = 10 ^ ((Decimal.format x.digits).length - 1) * 10 ^ x.exp.toNat := pow_add _ _ _
      _ ≤ m := Nat.mul_le_mul_right _ (Decimal.pow_length_format_le x.digits_ne_zero)
      _ < 2 ^ 53 := by omega
      _ < 10 ^ 16 := by norm_num
  have hlen' := (Nat.pow_lt_pow_iff_right (by norm_num)).1 hlen
  rw [parse_toBytes, if_pos ⟨hexp, by omega⟩, ← hm, hmn]

end JsNumber
