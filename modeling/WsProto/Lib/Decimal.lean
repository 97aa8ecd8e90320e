import Mathlib

/-!
# Decimal numerals

Numbers written in decimal as ASCII bytes, most significant digit first, and read
back.  Leading zeros are read, signs and separators are not: a program that allows
them deals with them before it comes here.

* `parse_format` — what is written is read back;
* `parse_format_zeros` — zeros at the end multiply by a power of ten;
* `parse_eq_none` — a byte that is no digit spoils the numeral.
-/

namespace Decimal

/-- The ASCII byte of a digit. -/
def digit (d : ℕ) : UInt8 := UInt8.ofNat (48 + d)

/-- `'0'` to `'9'`. -/
def isDigit (b : UInt8) : Bool := decide (48 ≤ b.toNat ∧ b.toNat ≤ 57)

/-- The numeral of a number. -/
def format (n : ℕ) : List UInt8 :=
  if n = 0 then [digit 0] else (Nat.digits 10 n).reverse.map digit

/-- The number a list of digits stands for. -/
def value (l : List UInt8) : ℕ := l.foldl (fun acc b => 10 * acc + (b.toNat - 48)) 0

/-- Read a numeral. -/
def parse (l : List UInt8) : Option ℕ :=
  if l ≠ [] ∧ l.all isDigit = true then some (value l) else none

theorem toNat_digit {d : ℕ} (h : d < 10) : (digit d).toNat = 48 + d := by
  rw [digit, UInt8.toNat_ofNat']
  exact Nat.mod_eq_of_lt (by omega)

theorem isDigit_digit {d : ℕ} (h : d < 10) : isDigit (digit d) = true := by
  rw [isDigit, toNat_digit h, decide_eq_true_eq]
  omega

theorem format_ne_nil (n : ℕ) : format n ≠ [] := by
  unfold format
  split
  · simp
  · rename_i hn
    simpa [Nat.digits_eq_nil_iff_eq_zero] using hn

theorem isDigit_of_mem_format {n : ℕ} {b : UInt8} (h : b ∈ format n) : isDigit b = true := by
  unfold format at h
  split at h
  · rw [List.mem_singleton.1 h]
    decide
  · obtain ⟨d, hd, rfl⟩ := List.mem_map.1 h
    apply isDigit_digit
    exact Nat.digits_lt_base (by norm_num) (List.mem_reverse.1 hd)

/-! ## Lengths -/

theorem length_format {n : ℕ} (hn : n ≠ 0) : (format n).length = (Nat.digits 10 n).length := by
  rw [format, if_neg hn, List.length_map, List.length_reverse]

/-- A numeral of `k` digits stands for a number below `10 ^ k`. -/
theorem lt_pow_length_format {n : ℕ} (hn : n ≠ 0) : n < 10 ^ (format n).length := by
  rw [length_format hn]
  exact Nat.lt_base_pow_length_digits (by norm_num)

/-- Its first digit is not zero. -/
theorem pow_length_format_le {n : ℕ} (hn : n ≠ 0) : 10 ^ ((format n).length - 1) ≤ n := by
  have hpos : 0 < (format n).length := List.length_pos_of_ne_nil (format_ne_nil n)
  have hle : 10 ^ (format n).length ≤ 10 * n := by
    rw [length_format hn]
    exact Nat.base_pow_length_digits_le 10 n (by norm_num) hn
  have hsplit : 10 ^ (format n).length = 10 * 10 ^ ((format n).length - 1) := by
    rw [← pow_succ', Nat.sub_add_cancel hpos]
  omega

/-! ## Values -/

/-- Reading the digits of a number gives the number. -/
theorem value_map_digit (l : List ℕ) (hl : ∀ d ∈ l, d < 10) :
    value (l.reverse.map digit) = Nat.ofDigits 10 l := by
  induction l with
  | nil => rfl
  | cons d l ih =>
      have hd : d < 10 := hl d List.mem_cons_self
      have ih' := ih fun d' hd' => hl d' (List.mem_cons_of_mem _ hd')
      rw [value] at ih' ⊢
      rw [List.reverse_cons, List.map_append, List.foldl_append, ih', Nat.ofDigits_cons]
      simp only [List.map_cons, List.map_nil, List.foldl_cons, List.foldl_nil, toNat_digit hd]
      omega

theorem value_format (n : ℕ) : value (format n) = n := by
  unfold format
  split
  · rename_i hn
    subst hn
    decide
  · rw [value_map_digit _ fun d hd => Nat.digits_lt_base (by norm_num) hd]
    exact Nat.ofDigits_digits 10 n

theorem value_zeros (l : List UInt8) (k : ℕ) :
    value (l ++ List.replicate k (digit 0)) = value l * 10 ^ k := by
  induction k with
  | zero => simp
  | succ k ih =>
      rw [List.replicate_succ', ← List.append_assoc]
      rw [value] at ih ⊢
      rw [List.foldl_append, ih, pow_succ]
      simp only [List.foldl_cons, List.foldl_nil, toNat_digit (show 0 < 10 by norm_num)]
      ring_nf

/-! ## Reading -/

theorem parse_eq_some {l : List UInt8} (hne : l ≠ []) (hl : ∀ b ∈ l, isDigit b = true) :
    parse l = some (value l) :=
  if_pos ⟨hne, List.all_eq_true.2 hl⟩

/-- A byte that is no digit spoils the numeral. -/
theorem parse_eq_none {l : List UInt8} {b : UInt8} (hb : b ∈ l) (hd : isDigit b = false) :
    parse l = none := by
  apply if_neg
  rintro ⟨-, hall⟩
  rw [List.all_eq_true.1 hall b hb] at hd
  cases hd

/-- A numeral with zeros at its end. -/
theorem parse_format_zeros (n k : ℕ) :
    parse (format n ++ List.replicate k (digit 0)) = some (n * 10 ^ k) := by
  rw [parse_eq_some, value_zeros, value_format]
  · simp [format_ne_nil]
  · intro b hb
    rcases List.mem_append.1 hb with hb | hb
    · exact isDigit_of_mem_format hb
    · rw [List.eq_of_mem_replicate hb]
      decide

/-- **What is written is read back.** -/
theorem parse_format (n : ℕ) : parse (format n) = some n := by
  have h := parse_format_zeros n 0
  simpa using h

end Decimal
