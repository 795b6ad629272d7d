import ObsExport.Number.Binary
import Mathlib

/-!
# Exact values

A finite double is a rational number (`Binary.value`, `Number.value?`), and the three questions that
are asked of it in integer arithmetic are questions about that number: `Binary.floor` is its floor
(`floor_eq`), `Binary.whole?` is the natural number it is (`whole?_eq_some_iff`), and `Binary.round`
is the integer nearest to it, of two equally near ones the one farther from zero
(`nearest_iff_eq_round`).
-/

namespace ObsExport

/-- An integer is the nearest to a number, and of two equally near ones the one farther from zero. -/
structure Nearest (v : ℚ) (i : ℤ) : Prop where
  near : 2 * |v - i| ≤ 1
  away : 2 * |v - i| = 1 → |v| < |(i : ℚ)|

namespace Binary

/-- The rational number. -/
def value (b : Binary) : ℚ := (if b.negative then -1 else 1) * b.mantissa * 2 ^ b.exponent

variable {b : Binary} {v : ℚ} {i j : ℤ}

theorem denominator_pos (b : Binary) : 0 < b.denominator := by
  rw [denominator, Nat.one_shiftLeft]
  exact Nat.two_pow_pos _

/-- The magnitude as a fraction of integers. -/
theorem magnitude_eq (b : Binary) :
    (b.mantissa : ℚ) * 2 ^ b.exponent = b.numerator / b.denominator := by
  rw [numerator, denominator, Nat.shiftLeft_eq, Nat.one_shiftLeft]
  push_cast
  -- One of the two shifts is by nothing, as the exponent has one sign.
  have hsplit : b.exponent = (b.exponent.toNat : ℤ) - ((-b.exponent).toNat : ℤ) := by omega
  conv_lhs => rw [hsplit, zpow_sub₀ (by norm_num), zpow_natCast, zpow_natCast]
  rw [mul_div_assoc]

/-- The number as a fraction of integers. -/
theorem value_eq (b : Binary) : b.value = (b.signed b.numerator : ℚ) / b.denominator := by
  rw [value, mul_assoc, magnitude_eq, signed]
  split
  · push_cast
    ring
  · push_cast
    ring

/-- The floor in integer arithmetic is the floor of the number. -/
theorem floor_eq (b : Binary) : b.floor = ⌊b.value⌋ := by
  rw [value_eq, floor, ← Rat.floor_intCast_div_natCast]

/-- The natural number in integer arithmetic is the number, if it is natural. -/
theorem whole?_eq_some_iff {n : ℕ} : b.whole? = some n ↔ b.value = n := by
  have hd : (0 : ℚ) < b.denominator := by exact_mod_cast b.denominator_pos
  have hzero : b.numerator = 0 ↔ b.mantissa = 0 := by
    rw [numerator, Nat.shiftLeft_eq, Nat.mul_eq_zero]
    simp
  -- The sign is looked at first, and a negative zero is still the number zero.
  unfold whole?
  by_cases hneg : b.negative = true ∧ b.mantissa ≠ 0
  · -- A negative number is no natural number.
    have hlt : b.value < 0 := by
      have hm : (0 : ℚ) < b.numerator := by
        exact_mod_cast Nat.pos_of_ne_zero (hzero.not.2 hneg.2)
      rw [value_eq, signed, if_pos hneg.1]
      push_cast
      exact div_neg_of_neg_of_pos (neg_neg_of_pos hm) hd
    have hn : (0 : ℚ) ≤ n := Nat.cast_nonneg n
    have hcond : (b.negative && b.mantissa != 0) = true := by simpa using hneg
    rw [if_pos hcond]
    simp only [reduceCtorEq, false_iff]
    intro h
    rw [h] at hlt
    exact absurd hlt (not_lt.2 hn)
  · -- The others are natural if the denominator goes into the numerator.
    have hvalue : b.value = (b.numerator : ℚ) / b.denominator := by
      rw [value_eq, signed]
      split
      next hsign =>
        have hm : b.numerator = 0 := hzero.2 (by simpa [hsign] using hneg)
        simp [hm]
      next => push_cast; rfl
    have hcond : ¬ (b.negative && b.mantissa != 0) = true := by simpa using hneg
    rw [if_neg hcond, hvalue, div_eq_iff hd.ne']
    -- From here on both sides are about natural numbers.
    have hiff : (b.numerator : ℚ) = n * b.denominator ↔ b.numerator = n * b.denominator := by
      exact_mod_cast Iff.rfl
    rw [hiff]
    have hpos := b.denominator_pos
    constructor
    · intro h
      split at h
      next hmod =>
        rw [← Option.some.inj h]
        exact (Nat.div_mul_cancel (Nat.dvd_of_mod_eq_zero hmod)).symm
      next => contradiction
    · intro h
      rw [h, Nat.mul_mod_left, if_pos rfl, Nat.mul_div_cancel _ hpos]

end Binary

/-! ### The nearest integer -/

namespace Nearest

variable {v : ℚ} {i j : ℤ}

/-- The nearest integer of the negation is the negation of the nearest integer. -/
theorem neg (h : Nearest v i) : Nearest (-v) (-i) := by
  have hdist : |-v - ((-i : ℤ) : ℚ)| = |v - i| := by
    rw [← abs_neg]
    congr 1
    push_cast
    ring
  refine ⟨by rw [hdist]; exact h.near, fun heq => ?_⟩
  rw [hdist] at heq
  rw [abs_neg, Int.cast_neg, abs_neg]
  exact h.away heq

/-- Of two neighbours only one is nearest: halfway between them, it is the one farther from zero. -/
theorem not_succ (h : Nearest v i) (h' : Nearest v (i + 1)) : False := by
  have hnear := abs_le.1 (show |2 * (v - i)| ≤ 1 by rw [abs_mul, abs_two]; exact h.near)
  have hnear' := abs_le.1
    (show |2 * (v - (i + 1 : ℤ))| ≤ 1 by rw [abs_mul, abs_two]; exact h'.near)
  push_cast at hnear'
  -- The number is one half away from both, so each would have to be the one farther from zero.
  have hv : v = i + 1 / 2 := by linarith [hnear.2, hnear'.1]
  have hhalf : 2 * |v - i| = 1 := by
    rw [hv, add_sub_cancel_left, abs_of_pos (by norm_num)]
    norm_num
  have hhalf' : 2 * |v - (i + 1 : ℤ)| = 1 := by
    have hdist : v - (i + 1 : ℤ) = -(1 / 2) := by
      rw [hv]
      push_cast
      ring
    rw [hdist, abs_neg, abs_of_pos (by norm_num)]
    norm_num
  rcases le_or_gt 0 i with hi | hi
  · have hpos : (0 : ℚ) ≤ i := by exact_mod_cast hi
    have haway := h.away hhalf
    rw [hv, abs_of_nonneg (by linarith), abs_of_nonneg hpos] at haway
    linarith
  · have hneg : (i : ℚ) + 1 ≤ 0 := by exact_mod_cast hi
    have haway := h'.away hhalf'
    push_cast at haway
    rw [hv, abs_of_nonpos (by linarith), abs_of_nonpos hneg] at haway
    linarith

/-- There is one nearest integer. -/
theorem unique (h : Nearest v i) (h' : Nearest v j) : i = j := by
  -- Both are within one half of the number, so they are equal or neighbours.
  have hdist : |(i : ℚ) - j| ≤ 1 := by
    have htriangle := abs_sub_le (i : ℚ) v j
    rw [abs_sub_comm (i : ℚ) v] at htriangle
    linarith [h.near, h'.near]
  have hle : |i - j| ≤ 1 := by exact_mod_cast hdist
  rcases Int.lt_trichotomy i j with hlt | heq | hlt
  · obtain rfl : j = i + 1 := by
      have := abs_le.1 hle
      omega
    exact (h.not_succ h').elim
  · exact heq
  · obtain rfl : i = j + 1 := by
      have := abs_le.1 hle
      omega
    exact (h'.not_succ h).elim

/-- The nearest integer to a fraction, in integer arithmetic. -/
theorem div (n : ℕ) {d : ℕ} (hd : 0 < d) :
    Nearest ((n : ℚ) / d) (((2 * n + d) / (2 * d) : ℕ) : ℤ) := by
  have hdq : (0 : ℚ) < d := by exact_mod_cast hd
  obtain ⟨q, hq⟩ : ∃ q, (2 * n + d) / (2 * d) = q := ⟨_, rfl⟩
  have hlower : q * (2 * d) ≤ 2 * n + d := hq ▸ Nat.div_mul_le_self _ _
  have hupper : 2 * n + d < (q + 1) * (2 * d) := by
    rw [Nat.mul_comm (q + 1), ← hq]
    exact Nat.lt_mul_div_succ _ (by omega)
  -- The quotient is the floor of the fraction and one half.
  have hle : (q : ℚ) ≤ n / d + 1 / 2 := by
    rw [div_add_div _ _ hdq.ne' two_ne_zero, le_div_iff₀ (by positivity)]
    have : (q : ℚ) * (2 * d) ≤ 2 * n + d := by exact_mod_cast hlower
    linarith
  have hlt : (n : ℚ) / d + 1 / 2 < q + 1 := by
    rw [div_add_div _ _ hdq.ne' two_ne_zero, div_lt_iff₀ (by positivity)]
    have : (2 : ℚ) * n + d < (q + 1) * (2 * d) := by exact_mod_cast hupper
    linarith
  have hnonneg : (0 : ℚ) ≤ n / d := by positivity
  rw [hq]
  constructor <;> rw [Int.cast_natCast]
  · rw [← abs_two, ← abs_mul, abs_le]
    constructor <;> linarith
  · intro hhalf
    -- The distance is one half only below the integer.
    have hbelow : (n : ℚ) / d < q := by
      by_contra hge
      rw [abs_of_nonneg (by linarith)] at hhalf
      linarith
    rw [abs_of_nonneg hnonneg, abs_of_nonneg (by linarith)]
    exact hbelow

end Nearest

namespace Binary

variable {b : Binary} {i : ℤ}

/-- Rounding in integer arithmetic gives a nearest integer. -/
theorem nearest_round (b : Binary) : Nearest b.value b.round := by
  have h := Nearest.div b.numerator b.denominator_pos
  rw [value_eq, Binary.round, signed, signed]
  -- The magnitude is rounded, and the sign put on after.
  split
  · have hneg := h.neg
    rwa [← neg_div, ← Int.cast_natCast (R := ℚ) b.numerator, ← Int.cast_neg] at hneg
  · rwa [← Int.cast_natCast (R := ℚ) b.numerator] at h

/-- Rounding in integer arithmetic gives the nearest integer. -/
theorem nearest_iff_eq_round : Nearest b.value i ↔ i = b.round :=
  ⟨fun h => h.unique b.nearest_round, fun h => h ▸ b.nearest_round⟩

end Binary

/-! ### Doubles -/

namespace Number

/-- The number that a finite double is. -/
def value? (x : Float) : Option ℚ := (Binary.ofFloat? x).map Binary.value

variable {x : Float} {v : ℚ}

theorem value?_eq_some_iff : value? x = some v ↔ ∃ b, Binary.ofFloat? x = some b ∧ b.value = v := by
  simp [value?]

end Number

end ObsExport
