import ObsExport.Number.Binary
import Mathlib

/-!
# Rounding does not pass a double

A double other than zero is a mantissa of at most fifty-three bits with an exponent, in one form
only (`Canonical`), so that doubles of one sign are ordered by exponent first and mantissa second
(`AtMost`). Rounding a number to the nearest double gives such a form, and it never passes a double:
what is at most a double rounds to at most that double, and what is at least one rounds to at least
that one (`round_spec`).

The argument is about integers. Bits are rounded away by halving a mantissa while two bits remember
what was lost (`shiftRight_exact`); what is left is the quotient or its successor, and the quotient
itself if nothing was lost (`rounded_le`, `le_rounded`).
-/

namespace ObsExport.Number

open Float.Model UnpackedFloat

/-! ### Forms of doubles -/

/-- The mantissa and the exponent of a double. Only the least exponent goes with mantissas that
start with a zero. -/
structure Canonical (m : Nat) (e : Int) : Prop where
  mantissa_lt : m < 2 ^ 53
  exponent_ge : -1074 ≤ e
  leading : e = -1074 ∨ 2 ^ 52 ≤ m

/-- The order of doubles of one sign by their forms. -/
def AtMost (m : Nat) (e : Int) (n : Nat) (f : Int) : Prop := e < f ∨ e = f ∧ m ≤ n

/-- A number is the double with a sign and a form, which is a zero for the mantissa zero. -/
inductive HasForm (s : Sign) (m : Nat) (e : Int) : UnpackedFloat → Prop
  | zero : m = 0 → HasForm s m e (.zero s)
  | finite (h : 0 < m) : HasForm s m e (.finite s m e h)

variable {m n k : Nat} {e f : Int} {s : Sign}

/-! ### Rounding bits away -/

/-- After `k` bits are shifted out, the quotient is left, and the two extra bits say whether there
was a remainder. -/
theorem shiftRight_exact (m k : Nat) :
    ∃ r t, ExtendedMantissa.ofMantissaAndAccuracy m .exact >>> k = ⟨m / 2 ^ k, r, t⟩ ∧
      ((r || t) = false ↔ m % 2 ^ k = 0) := by
  induction k with
  | zero => exact ⟨false, false, by simp [HShiftRight.hShiftRight, Nat.repeat,
      ExtendedMantissa.ofMantissaAndAccuracy], by simp [Nat.mod_one]⟩
  | succ k ih =>
    obtain ⟨r, t, hshift, hlost⟩ := ih
    refine ⟨m / 2 ^ k % 2 != 0, r || t, ?_, ?_⟩
    · show ExtendedMantissa.shiftRightOne
        (ExtendedMantissa.ofMantissaAndAccuracy m .exact >>> k) = _
      rw [hshift, ExtendedMantissa.shiftRightOne, Nat.div_div_eq_div_mul, ← Nat.pow_succ]
    · -- The remainder of the next power is the bit that goes now and the remainder so far.
      have hpos : 0 < 2 ^ k := Nat.two_pow_pos k
      rw [Bool.or_eq_false_iff, hlost, Nat.mod_pow_succ, Nat.add_eq_zero_iff, Nat.mul_eq_zero]
      simp only [bne_eq_false_iff_eq]
      omega

/-- A mantissa with `k` bits rounded away. -/
def rounded (m k : Nat) : Nat :=
  (ExtendedMantissa.ofMantissaAndAccuracy m .exact >>> k).roundedMantissa

/-- Rounding gives the quotient or its successor, and the quotient itself where it is exact. -/
theorem rounded_bounds (m k : Nat) :
    m / 2 ^ k ≤ rounded m k ∧ rounded m k ≤ m / 2 ^ k + 1 ∧
      (m % 2 ^ k = 0 → rounded m k = m / 2 ^ k) := by
  obtain ⟨r, t, hshift, hlost⟩ := shiftRight_exact m k
  rw [← hlost, rounded, hshift]
  cases r <;> cases t <;>
    simp [ExtendedMantissa.roundedMantissa, ExtendedMantissa.accuracy, Accuracy.roundToNearestEven]
  omega

/-- Rounding does not go above an integer that bounds the quotient. -/
theorem rounded_le (h : m ≤ n * 2 ^ k) : rounded m k ≤ n := by
  obtain ⟨-, hle, hexact⟩ := rounded_bounds m k
  have hpos : 0 < 2 ^ k := Nat.two_pow_pos k
  by_cases hmod : m % 2 ^ k = 0
  · rw [hexact hmod]
    exact Nat.div_le_of_le_mul (by rwa [Nat.mul_comm])
  · -- With a remainder the quotient is strictly smaller.
    have hlt : m < n * 2 ^ k := by
      refine Nat.lt_of_le_of_ne h fun heq => hmod ?_
      rw [heq, Nat.mul_mod_left]
    have := (Nat.div_lt_iff_lt_mul hpos).2 hlt
    omega

/-- Rounding does not go below an integer that bounds the quotient. -/
theorem le_rounded (h : n * 2 ^ k ≤ m) : n ≤ rounded m k := by
  have := (Nat.le_div_iff_mul_le (Nat.two_pow_pos k)).2 h
  exact Nat.le_trans this (rounded_bounds m k).1

/-! ### Rounding to a form -/

/-- The exponent that a number has as a double. -/
def target (m : Nat) (e : Int) : Int := max (m.log2 + 1 + e - 53) (-1074)

theorem targetExponent_eq (m : Nat) (e : Int) :
    Format.binary64.targetExponent (totalExponent m e) = target m e := rfl

/-- A mantissa that fits is not shifted to the right. -/
theorem target_le (hm : m < 2 ^ 53) (he : -1074 ≤ e) : target m e ≤ e := by
  have hlog : m.log2 < 53 := by
    by_cases h0 : m = 0
    · simp [h0]
    · exact (Nat.log2_lt h0).2 hm
  unfold target
  omega

/-- Nothing is shifted out of a mantissa that has no more bits than a double. -/
theorem shiftToTargetExponent_of_lt (hm : m < 2 ^ 53) (he : -1074 ≤ e) :
    shiftToTargetExponent .binary64 m e .exact = (⟨m, false, false⟩, e) := by
  have hzero : (target m e - e).toNat = 0 := by
    have := target_le hm he
    omega
  simp [shiftToTargetExponent, shiftToExponent, targetExponent_eq, hzero,
    HShiftRight.hShiftRight, Nat.repeat, ExtendedMantissa.ofMantissaAndAccuracy]

/-- A mantissa that rounding has carried to the next power of two is halved exactly. -/
theorem shiftToTargetExponent_of_eq (he : -1074 ≤ e) :
    shiftToTargetExponent .binary64 (2 ^ 53) e .exact = (⟨2 ^ 52, false, false⟩, e + 1) := by
  have hone : (target (2 ^ 53) e - e).toNat = 1 := by
    rw [target, Nat.log2_two_pow]
    omega
  simp only [shiftToTargetExponent, shiftToExponent, targetExponent_eq, hone]
  rfl

/-- What rounding makes of a number is what its two shifts make of it. -/
theorem hasForm_of_shifts {em em' : ExtendedMantissa} {e' : Int}
    (h : shiftToTargetExponent .binary64 m e .exact = (em, e'))
    (h' : shiftToTargetExponent .binary64 em.roundedMantissa e' .exact = (em', f)) :
    HasForm s em'.mantissa f (roundWithAccuracy .binary64 s m e .exact) := by
  simp only [roundWithAccuracy, h, h']
  split
  next hzero => exact .zero hzero
  next hpos => exact .finite _

/-- Rounding at an exponent that is not too large gives the rounded mantissa, or the next exponent
if it has one bit too many. -/
theorem hasForm_roundWithAccuracy (s : Sign) (he : e ≤ target m e)
    (hm : rounded m (target m e - e).toNat ≤ 2 ^ 53) :
    ∃ n f, HasForm s n f (roundWithAccuracy .binary64 s m e .exact) ∧
      (n = rounded m (target m e - e).toNat ∧ f = target m e ∧ n < 2 ^ 53 ∨
        n = 2 ^ 52 ∧ f = target m e + 1 ∧ rounded m (target m e - e).toNat = 2 ^ 53) := by
  have hge : -1074 ≤ target m e := Int.le_max_right _ _
  have hfirst : shiftToTargetExponent .binary64 m e .exact =
      (ExtendedMantissa.ofMantissaAndAccuracy m .exact >>> (target m e - e).toNat,
        target m e) := by
    rw [shiftToTargetExponent, shiftToExponent, targetExponent_eq, Prod.mk.injEq]
    exact ⟨rfl, by omega⟩
  rcases Nat.lt_or_eq_of_le hm with hlt | heq
  · exact ⟨_, _, hasForm_of_shifts hfirst (shiftToTargetExponent_of_lt hlt hge),
      .inl ⟨rfl, rfl, hlt⟩⟩
  · have hsecond : shiftToTargetExponent .binary64
        (rounded m (target m e - e).toNat) (target m e) .exact =
          (⟨2 ^ 52, false, false⟩, target m e + 1) := by
      rw [heq, shiftToTargetExponent_of_eq hge]
    exact ⟨_, _, hasForm_of_shifts hfirst hsecond, .inr ⟨rfl, rfl, heq⟩⟩

/-- The exponent of a number as a double bounds the number, from below if it is not the least. -/
theorem target_bounds (hm : 0 < m) (he : e ≤ target m e) :
    m < 2 ^ (53 + (target m e - e).toNat) ∧
      (target m e = -1074 ∨ 2 ^ (52 + (target m e - e).toNat) ≤ m) := by
  have hlt : m < 2 ^ (m.log2 + 1) := Nat.lt_log2_self
  have hle : 2 ^ m.log2 ≤ m := Nat.log2_self_le (by omega)
  constructor
  · refine Nat.lt_of_lt_of_le hlt (Nat.pow_le_pow_right (by omega) ?_)
    unfold target at *
    omega
  · by_cases hleast : target m e = -1074
    · exact .inl hleast
    · refine .inr (Nat.le_trans (Nat.pow_le_pow_right (by omega) ?_) hle)
      unfold target at *
      omega

/-- A double that is at least a number has at least the exponent of the number. -/
theorem target_le_of_le (hm : 0 < m) (he : e ≤ target m e) (hn : Canonical n f) (hf : e ≤ f)
    (hle : m ≤ n * 2 ^ (f - e).toNat) : target m e ≤ f := by
  obtain ⟨-, hleast | hlower⟩ := target_bounds hm he
  · have := hn.exponent_ge
    omega
  · refine Int.not_lt.1 fun hlt => ?_
    -- Otherwise the double would lie below the least number of that exponent.
    have hpow : 2 ^ (53 + (f - e).toNat) ≤ 2 ^ (52 + (target m e - e).toNat) :=
      Nat.pow_le_pow_right (by omega) (by omega)
    have hmul : n * 2 ^ (f - e).toNat < 2 ^ 53 * 2 ^ (f - e).toNat :=
      Nat.mul_lt_mul_of_pos_right hn.mantissa_lt (Nat.two_pow_pos _)
    rw [← Nat.pow_add] at hmul
    omega

/-- A double that is at most a number has at most the exponent of the number. -/
theorem le_target_of_le (hm : 0 < m) (he : e ≤ target m e) (hn : Canonical n f) (hf : e ≤ f)
    (hle : n * 2 ^ (f - e).toNat ≤ m) : f ≤ target m e := by
  obtain ⟨hupper, -⟩ := target_bounds hm he
  rcases hn.leading with hleast | hlead
  · rw [hleast]
    exact Int.le_max_right _ _
  · refine Int.not_lt.1 fun hlt => ?_
    have hpow : 2 ^ (53 + (target m e - e).toNat) ≤ 2 ^ (52 + (f - e).toNat) :=
      Nat.pow_le_pow_right (by omega) (by omega)
    have hmul : 2 ^ 52 * 2 ^ (f - e).toNat ≤ n * 2 ^ (f - e).toNat :=
      Nat.mul_le_mul_right _ hlead
    rw [← Nat.pow_add] at hmul
    omega

/-- Rounding at an exponent that is not too large gives the form of a double, and passes no
double. -/
theorem roundWithAccuracy_spec (s : Sign) (hm : 0 < m) (he : e ≤ target m e) :
    ∃ n' f', HasForm s n' f' (roundWithAccuracy .binary64 s m e .exact) ∧ Canonical n' f' ∧
      ∀ n f, Canonical n f → e ≤ f →
        (m ≤ n * 2 ^ (f - e).toNat → AtMost n' f' n f) ∧
        (n * 2 ^ (f - e).toNat ≤ m → AtMost n f n' f') := by
  have hge : -1074 ≤ target m e := Int.le_max_right _ _
  obtain ⟨hupper, hlower⟩ := target_bounds hm he
  generalize hk : (target m e - e).toNat = k at hupper hlower
  have hbits : rounded m k ≤ 2 ^ 53 := by
    refine rounded_le ?_
    rw [← Nat.pow_add]
    exact Nat.le_of_lt hupper
  have hlead : target m e = -1074 ∨ 2 ^ 52 ≤ rounded m k := by
    refine hlower.imp_right fun h => le_rounded ?_
    rwa [← Nat.pow_add]
  obtain ⟨n', f', hform, hcases⟩ := hasForm_roundWithAccuracy s he (hk ▸ hbits)
  rw [hk] at hcases
  refine ⟨n', f', hform, ?_, fun n f hn hf => ⟨fun hle => ?_, fun hle => ?_⟩⟩
  · rcases hcases with ⟨rfl, rfl, hlt⟩ | ⟨rfl, rfl, -⟩
    · exact ⟨hlt, hge, hlead⟩
    · exact ⟨by omega, by omega, .inr (Nat.le_refl _)⟩
  · have htarget := target_le_of_le hm he hn hf hle
    -- At the same exponent the rounded mantissas decide, at a larger one the leading bit does.
    have hsame : target m e = f → rounded m k ≤ n := by
      rintro rfl
      exact rounded_le (hk ▸ hle)
    have := hn.leading
    have := hn.mantissa_lt
    unfold AtMost
    omega
  · have htarget := le_target_of_le hm he hn hf hle
    have hsame : target m e = f → n ≤ rounded m k := by
      rintro rfl
      exact le_rounded (hk ▸ hle)
    unfold AtMost
    omega

theorem target_shift (hm : 0 < m) (e : Int) (d : Nat) :
    target (m * 2 ^ d) (e - d) = target m e := by
  have hpos : 0 < 2 ^ d := Nat.two_pow_pos d
  have hlog : (m * 2 ^ d).log2 = m.log2 + d := by
    rw [Nat.log2_eq_iff (Nat.ne_of_gt (Nat.mul_pos hm hpos)), Nat.add_right_comm, Nat.pow_add,
      Nat.pow_add]
    exact ⟨Nat.mul_le_mul_right _ (Nat.log2_self_le (by omega)),
      Nat.mul_lt_mul_of_pos_right Nat.lt_log2_self hpos⟩
  rw [target, target, hlog]
  omega

/-- **Rounding passes no double.** A positive number is rounded to the form of a double. If it is at
most a double then so is the result, and if it is at least a double then so is the result. -/
theorem round_spec (s : Sign) (hm : 0 < m) (e : Int) :
    ∃ n' f', HasForm s n' f' (UnpackedFloat.round .binary64 s m e) ∧ Canonical n' f' ∧
      ∀ n f, Canonical n f → e ≤ f →
        (m ≤ n * 2 ^ (f - e).toNat → AtMost n' f' n f) ∧
        (n * 2 ^ (f - e).toNat ≤ m → AtMost n f n' f') := by
  -- The number is written with the exponent of its double first, if that is smaller.
  obtain ⟨d, hd⟩ : ∃ d, (e - target m e).toNat = d := ⟨_, rfl⟩
  have hpos : 0 < 2 ^ d := Nat.two_pow_pos d
  have hround : UnpackedFloat.round .binary64 s m e =
      roundWithAccuracy .binary64 s (m * 2 ^ d) (e - d) .exact := by
    simp only [UnpackedFloat.round, decreaseExponent, targetExponent_eq, hd, Nat.shiftLeft_eq]
  have hle : e - d ≤ target (m * 2 ^ d) (e - d) := by
    rw [target_shift hm]
    omega
  obtain ⟨n', f', hform, hcanonical, hpass⟩ :=
    roundWithAccuracy_spec s (Nat.mul_pos hm hpos) hle
  refine ⟨n', f', hround ▸ hform, hcanonical, fun n f hn hf => ?_⟩
  have hexp : (f - (e - d)).toNat = (f - e).toNat + d := by omega
  obtain ⟨hupper, hlower⟩ := hpass n f hn (by omega)
  rw [hexp, Nat.pow_add, ← Nat.mul_assoc] at hupper hlower
  exact ⟨fun h => hupper (Nat.mul_le_mul_right _ h), fun h => hlower (Nat.mul_le_mul_right _ h)⟩

end ObsExport.Number
