import ObsExport.Proofs.Number.Exact
import ObsExport.Proofs.Number.Packing

/-!
# Small integers are doubles

The number that a double is can be read off its bits or off its unpacked form (`value?_eq`). What has
the form of a double is not changed by rounding, whatever zeros are put behind its mantissa
(`hasForm_scaled`), so an integer of at most fifty-three bits becomes the double that is this integer
(`value?_ofInt`).
-/

namespace ObsExport.Number

open Float.Model UnpackedFloat

variable {m n : Nat} {e f : Int} {s : Sign} {u : UnpackedFloat}

/-! ### The number of an unpacked double -/

/-- The number that an unpacked double is, if it is finite. -/
def unpackedValue : UnpackedFloat → Option ℚ
  | .notANumber => none
  | .infinity _ => none
  | .zero _ => some 0
  | .finite s m e _ => some ((s.apply m : ℤ) * (2 : ℚ) ^ e)

/-- The number that has a form. -/
theorem unpackedValue_of_hasForm (h : HasForm s m e u) :
    unpackedValue u = some ((s.apply m : ℤ) * (2 : ℚ) ^ e) := by
  cases h with
  | zero h0 => cases s <;> simp [h0, unpackedValue, Sign.apply]
  | finite hpos => rfl

/-- Negation changes the sign of a form. -/
theorem HasForm.neg (h : HasForm s m e u) : HasForm (-s) m e u.neg := by
  cases h with
  | zero h0 => exact .zero h0
  | finite hpos => exact .finite hpos

/-- The number of a double is that of its unpacked form. -/
theorem value?_eq (x : Float) : value? x = unpackedValue x.toModel.unpack := by
  cases h : Binary.ofFloat? x with
  | some b =>
    rw [unpackedValue_of_hasForm (hasForm_unpack h), value?, h, Option.map_some, Binary.value]
    cases b.negative <;> simp [Sign.apply]
  | none =>
    -- The infinities and NaN have the largest exponent.
    have hbits : x.toBits.toNat / 0x10000000000000 % 0x800 = 2047 := by
      by_contra hne
      unfold Binary.ofFloat? at h
      dsimp only at h
      rw [if_neg hne] at h
      split at h <;> contradiction
    have hones : @unpackExponent .binary64 x.toBits.toBitVec = (-1#_) :=
      BitVec.eq_of_toNat_eq ((toNat_unpackExponent x).trans hbits)
    show value? x = unpackedValue (UnpackedFloat.unpack .binary64 x.toBits.toBitVec)
    unfold UnpackedFloat.unpack
    dsimp only
    rw [value?, h, if_pos hones]
    split <;> rfl

/-! ### Rounding what is a double -/

/-- A form that is not zero has the exponent that its number has as a double. -/
theorem target_eq (h : Canonical n f) (hn : 0 < n) : target n f = f := by
  have hle : n.log2 < 53 := (Nat.log2_lt (by omega)).2 h.mantissa_lt
  have hge := h.exponent_ge
  rcases h.leading with hleast | hlead
  · unfold target
    omega
  · have hlog : n.log2 = 52 := (Nat.log2_eq_iff (by omega)).2 ⟨hlead, h.mantissa_lt⟩
    unfold target
    omega

/-- Zeros behind the mantissa of a form are rounded away, and nothing else is. -/
theorem hasForm_scaled (s : Sign) (h : Canonical n f) (hn : 0 < n) (k : Nat) :
    HasForm s n f (roundWithAccuracy .binary64 s (n * 2 ^ k) (f - k) .exact) := by
  have htarget : target (n * 2 ^ k) (f - k) = f := by rw [target_shift hn, target_eq h hn]
  have hrounded : rounded (n * 2 ^ k) k = n := by
    have hexact := (rounded_bounds (n * 2 ^ k) k).2.2 (Nat.mul_mod_left _ _)
    rw [hexact, Nat.mul_div_cancel _ (Nat.two_pow_pos k)]
  have hshift : (f - (f - (k : Int))).toNat = k := by omega
  have hlt := h.mantissa_lt
  obtain ⟨n', f', hform, hcases⟩ := hasForm_roundWithAccuracy (m := n * 2 ^ k) (e := f - k) s
    (by rw [htarget]; omega) (by rw [htarget, hshift, hrounded]; omega)
  rw [htarget, hshift, hrounded] at hcases
  rcases hcases with ⟨rfl, rfl, -⟩ | ⟨-, -, h53⟩
  · exact hform
  · omega

/-- A number with zeros behind it that has the form of a double is rounded to that form. -/
theorem hasForm_round (s : Sign) (hm : 0 < m) (k : Nat) (h : Canonical (m * 2 ^ k) (e - k)) :
    HasForm s (m * 2 ^ k) (e - k) (UnpackedFloat.round .binary64 s m e) := by
  have hpos : 0 < m * 2 ^ k := Nat.mul_pos hm (Nat.two_pow_pos k)
  have htarget : target m e = e - k := by rw [← target_shift hm, target_eq h hpos]
  have hk : (e - target m e).toNat = k := by omega
  have hround : UnpackedFloat.round .binary64 s m e =
      roundWithAccuracy .binary64 s (m * 2 ^ k) (e - k) .exact := by
    simp only [UnpackedFloat.round, decreaseExponent, targetExponent_eq, hk, Nat.shiftLeft_eq]
  have hform := hasForm_scaled s h hpos 0
  rwa [Nat.pow_zero, Nat.mul_one, Int.natCast_zero, Int.sub_zero, ← hround] at hform

/-- Multiplying a double by one does not change it. -/
theorem HasForm.mul_one (hone : 0 < 2 ^ 52) (h : HasForm s m e u) (hm : Canonical m e) :
    HasForm s m e (UnpackedFloat.mul .binary64 u (.finite .positive (2 ^ 52) (-52) hone)) := by
  have hsign : s * .positive = s := by cases s <;> rfl
  cases h with
  | zero h0 =>
    show HasForm s m e (.zero (s * .positive))
    rw [hsign]
    exact .zero h0
  | finite hpos =>
    show HasForm s m e (roundWithAccuracy .binary64 (s * .positive) (m * 2 ^ 52) (e - 52) .exact)
    rw [hsign]
    exact hasForm_scaled s hm hpos 52

/-! ### Integers -/

/-- A number of at most fifty-three bits has fifty-three with zeros behind it. -/
theorem canonical_of_lt (hn : 0 < n) (h : n < 2 ^ 53) :
    Canonical (n * 2 ^ (52 - n.log2)) (0 - (52 - n.log2 : Nat)) := by
  -- The leading bit is moved to its place, and the bounds of the number move with it.
  have hlog : n.log2 < 53 := (Nat.log2_lt (by omega)).2 h
  have hupper : n < 2 ^ (n.log2 + 1) := Nat.lt_log2_self
  have hlower : 2 ^ n.log2 ≤ n := Nat.log2_self_le (by omega)
  refine ⟨?_, by omega, .inr ?_⟩
  · calc n * 2 ^ (52 - n.log2) < 2 ^ (n.log2 + 1) * 2 ^ (52 - n.log2) :=
          Nat.mul_lt_mul_of_pos_right hupper (Nat.two_pow_pos _)
      _ = 2 ^ 53 := by
        rw [← Nat.pow_add]
        congr 1
        omega
  · calc 2 ^ 52 = 2 ^ n.log2 * 2 ^ (52 - n.log2) := by
          rw [← Nat.pow_add]
          congr 1
          omega
      _ ≤ n * 2 ^ (52 - n.log2) := Nat.mul_le_mul_right _ hlower

/-- A natural number of at most 53 binary digits has the form that it is shifted to. -/
theorem hasForm_ofNat (hn : 0 < n) (h : n < 2 ^ 53) :
    HasForm .positive (n * 2 ^ (52 - n.log2)) (0 - (52 - n.log2 : Nat))
      (Float.ofNat n).toModel.unpack := by
  have hcanonical := canonical_of_lt hn h
  have hle : (0 : Int) - (52 - n.log2 : Nat) ≤ 971 := by omega
  have hword : UnpackedFloat.ofInt .binary64 n.toUInt64.toNat =
      UnpackedFloat.round .binary64 .positive n 0 := by
    have hgt : compare (n : Int) 0 = .gt := Int.compare_eq_gt.2 (by omega)
    rw [UInt64.toNat_ofNat', Nat.mod_eq_of_lt (by omega), UnpackedFloat.ofInt,
      UnpackedFloat.normalize, hgt]
    rfl
  have hone : (Float.ofBits 0x3FF0000000000000).toModel.unpack =
      .finite .positive (2 ^ 52) (-52) (by decide) := rfl
  -- A number of fifty-three bits is made a double as a word, which then is multiplied by one.
  show HasForm _ _ _ (Float.ofScientific n false 0).toModel.unpack
  unfold Float.ofScientific
  rw [dif_pos ⟨h, by decide⟩]
  show HasForm _ _ _ (UnpackedFloat.unpack .binary64 (UnpackedFloat.pack .binary64
    (UnpackedFloat.mul .binary64
      (UnpackedFloat.unpack .binary64 (UnpackedFloat.pack .binary64
        (UnpackedFloat.ofInt .binary64 n.toUInt64.toNat)))
      (Float.ofBits 0x3FF0000000000000).toModel.unpack)))
  have hform := hasForm_round .positive hn (52 - n.log2) hcanonical
  have hproduct := hform.mul_one (by decide) hcanonical
  rw [hword, hone, unpack_pack_form hform hcanonical hle, unpack_pack_form hproduct hcanonical hle]
  exact hproduct

/-- The form of a number with zeros behind it is that of the number. -/
theorem apply_scaled (s : Sign) (n k : Nat) :
    ((s.apply ((n * 2 ^ k : Nat) : ℤ) : ℤ) : ℚ) * 2 ^ (0 - (k : ℤ)) = (s.apply n : ℤ) := by
  have hcancel : (n : ℚ) * 2 ^ k * 2 ^ (0 - (k : ℤ)) = n := by
    rw [zero_sub, zpow_neg, zpow_natCast, mul_assoc, mul_inv_cancel₀ (by positivity), mul_one]
  cases s with
  | positive =>
    unfold Sign.apply
    push_cast
    exact hcancel
  | negative =>
    unfold Sign.apply
    push_cast
    rw [neg_mul, hcancel]

/-- An integer of at most fifty-three bits is a double exactly. -/
theorem value?_ofInt {i : ℤ} (h : i.natAbs < 2 ^ 53) : value? (Float.ofInt i) = some (i : ℚ) := by
  cases i with
  | ofNat n =>
    rcases Nat.eq_zero_or_pos n with rfl | hn
    · have hzero : (Float.ofInt (.ofNat 0)).toModel.unpack = .zero .positive := rfl
      rw [value?_eq, hzero]
      simp [unpackedValue]
    · rw [value?_eq]
      show unpackedValue (Float.ofNat n).toModel.unpack = _
      rw [unpackedValue_of_hasForm (hasForm_ofNat hn h), apply_scaled]
      rfl
  | negSucc n =>
    -- The double of the magnitude gets the other sign.
    have hlt : n + 1 < 2 ^ 53 := h
    have hcanonical := canonical_of_lt (Nat.succ_pos n) hlt
    have hform := (hasForm_ofNat (Nat.succ_pos n) hlt).neg
    rw [value?_eq]
    show unpackedValue (UnpackedFloat.unpack .binary64 (UnpackedFloat.pack .binary64
      (Float.ofNat (n + 1)).toModel.unpack.neg)) = _
    rw [unpack_pack_form hform hcanonical (by omega), unpackedValue_of_hasForm hform, apply_scaled]
    rfl

end ObsExport.Number
