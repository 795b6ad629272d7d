import ObsExport.Proofs.Number.NotNaN
import ObsExport.Proofs.Number.Rounding

/-!
# Doubles have forms

Every finite number is a zero or has the form of a double (`form_of_isFinite`), and what has such a
form is found again after it was packed into bits (`unpack_pack_form`). A form whose exponent is too
large is packed as an infinity of the same sign (`unpack_pack_of_large`).
-/

namespace ObsExport.Number

open Float.Model UnpackedFloat

variable {m n : Nat} {e f : Int} {s s' : Sign} {u v : UnpackedFloat}

theorem toNat_leadingOne {w : Nat} (b : BitVec w) : (1#1 ++ b).toNat = 2 ^ w + b.toNat := by
  rw [BitVec.toNat_append, ← Nat.shiftLeft_add_eq_or_of_lt b.isLt, Nat.shiftLeft_eq]
  simp

/-! ### From bits to forms -/

/-- The mantissa is the last bit group of a double. -/
theorem toNat_unpackMantissa (x : Float) :
    (@unpackMantissa .binary64 x.toBits.toBitVec).toNat = x.toBits.toNat % 0x10000000000000 := by
  simp only [unpackMantissa]
  -- The group starts at bit zero, so it is a remainder and nothing is shifted.
  rw [BitVec.toNat_cast, BitVec.extractLsb_toNat, Nat.shiftRight_eq_div_pow, Nat.pow_zero,
    Nat.div_one]
  rfl

/-- The sign is the first bit of a double. -/
theorem ofBitVec_unpackSign (x : Float) :
    Sign.ofBitVec (@unpackSign .binary64 x.toBits.toBitVec) =
      if decide (0x8000000000000000 ≤ x.toBits.toNat) then .negative else .positive := by
  have hbit : (@unpackSign .binary64 x.toBits.toBitVec).toNat =
      x.toBits.toNat / 0x8000000000000000 % 2 := by
    simp only [unpackSign]
    rw [BitVec.toNat_cast, BitVec.extractLsb_toNat, Nat.shiftRight_eq_div_pow]
    rfl
  have hlt : x.toBits.toNat < 0x10000000000000000 := x.toBits.toBitVec.isLt
  -- One bit is zero or one, so the quotient decides it.
  have hzero : @unpackSign .binary64 x.toBits.toBitVec = 0#1 ↔
      x.toBits.toNat < 0x8000000000000000 := by
    rw [← BitVec.toNat_inj, hbit]
    show x.toBits.toNat / 0x8000000000000000 % 2 = 0 ↔ _
    omega
  unfold Sign.ofBitVec
  split
  next h => rw [if_neg (by simpa using hzero.1 h)]
  next h => rw [if_pos (by simpa using mt hzero.2 h)]

theorem HasForm.of_eq {h : 0 < n} (hm : n = m) (he : f = e) :
    HasForm s m e (UnpackedFloat.finite s n f h) := by
  subst hm he
  exact .finite h

/-- The bit groups of a finite number are those of its form. -/
theorem hasForm_unpack {x : Float} {b : Binary} (h : Binary.ofFloat? x = some b) :
    HasForm (if b.negative then .negative else .positive) b.mantissa b.exponent
      x.toModel.unpack := by
  have hexp := toNat_unpackExponent x
  have hmantissa := toNat_unpackMantissa x
  have hones := unpackExponent_of_isFinite (x := x) (by rw [Binary.isFinite, h]; rfl)
  show HasForm _ _ _ (UnpackedFloat.unpack .binary64 x.toBits.toBitVec)
  -- Both readings split on the exponent bits: all set, none set, any other.
  unfold UnpackedFloat.unpack
  unfold Binary.ofFloat? at h
  dsimp only at h ⊢
  rw [if_neg hones, ofBitVec_unpackSign]
  split at h
  next => contradiction
  next =>
    split at h
    next hzero =>
      obtain rfl := Option.some.inj h
      rw [hzero] at hexp
      rw [if_pos (BitVec.eq_of_toNat_eq (y := 0#_) hexp)]
      by_cases h0 : @unpackMantissa .binary64 x.toBits.toBitVec = 0#_
      · rw [dif_pos h0]
        rw [h0] at hmantissa
        exact .zero hmantissa.symm
      · -- A subnormal has the least exponent.
        rw [dif_neg h0]
        refine .of_eq hmantissa ?_
        rw [hexp]
        rfl
    next hnormal =>
      obtain rfl := Option.some.inj h
      -- A normal number gets the leading one that its bits leave out.
      have hne : @unpackExponent .binary64 x.toBits.toBitVec ≠ 0#_ := by
        intro h0
        rw [h0] at hexp
        exact hnormal hexp.symm
      rw [if_neg hne]
      refine .of_eq ?_ ?_
      · rw [toNat_leadingOne, hmantissa]
        rfl
      · rw [hexp]
        rfl

/-- The mantissa and exponent of a finite number are canonical, and the exponent is that of a
double. -/
theorem canonical_of_ofFloat? {x : Float} {b : Binary} (h : Binary.ofFloat? x = some b) :
    Canonical b.mantissa b.exponent ∧ b.exponent ≤ 971 := by
  unfold Binary.ofFloat? at h
  dsimp only at h
  split at h
  next => contradiction
  next =>
    split at h
    · -- The exponent of a subnormal is the least one, whatever the mantissa.
      obtain rfl := Option.some.inj h
      exact ⟨⟨by dsimp only; omega, Int.le_refl _, .inl rfl⟩, by dsimp only; omega⟩
    · obtain rfl := Option.some.inj h
      -- With the leading one put back, the mantissa has 53 digits.
      refine ⟨⟨?_, ?_, .inr ?_⟩, ?_⟩ <;> dsimp only <;> omega

/-- A finite number has the form of a double. -/
theorem form_of_isFinite {x : Float} (h : Binary.isFinite x = true) :
    ∃ s m e, HasForm s m e x.toModel.unpack ∧ Canonical m e ∧ e ≤ 971 := by
  obtain ⟨b, hb⟩ := Option.isSome_iff_exists.1 h
  exact ⟨_, b.mantissa, b.exponent, hasForm_unpack hb, canonical_of_ofFloat? hb⟩

/-! ### From forms to bits and back -/

theorem unpack_pack_zero (s : Sign) :
    UnpackedFloat.unpack .binary64 (UnpackedFloat.pack .binary64 (.zero s)) = .zero s :=
  unpack_packedZero

/-- The bits of a form, with the numbers of the format put in. -/
theorem pack_finite (s : Sign) (h : 0 < m) :
    UnpackedFloat.pack .binary64 (.finite s m e h) =
      if 2 ^ 11 ≤ (e + 1075).toNat + 1 then packedInfinity .binary64 s
      else if m.log2 + 1 = 53 then
        packComponents .binary64 s (BitVec.ofNat 11 (e + 1075).toNat) (BitVec.ofNat 52 m)
      else packComponents .binary64 s 0#11 (BitVec.ofNat 52 m) := by
  have hbias : (e + 1075).toNat = (e + 1023 + 52).toNat := by omega
  rw [hbias]
  rfl

/-- A form with a larger exponent than doubles have is packed as infinity. -/
theorem unpack_pack_of_large (s : Sign) (h : 0 < m) (he : 971 < e) :
    UnpackedFloat.unpack .binary64 (UnpackedFloat.pack .binary64 (.finite s m e h)) =
      .infinity s := by
  have hlarge : 2 ^ 11 ≤ (e + 1075).toNat + 1 := by omega
  rw [pack_finite, if_pos hlarge]
  simp [UnpackedFloat.unpack, packedInfinity]

/-- A canonical form other than zero is found again in its bits: with the leading one left out if it
is normal, and as it stands if it is subnormal. -/
theorem unpack_pack_finite (s : Sign) (h : 0 < m) (hm : Canonical m e) (he : e ≤ 971) :
    UnpackedFloat.unpack .binary64 (UnpackedFloat.pack .binary64 (.finite s m e h)) =
      .finite s m e h := by
  -- Both sides split on whether the mantissa has a leading one.
  have hge := hm.exponent_ge
  have hlt := hm.mantissa_lt
  have hsmall : ¬ 2 ^ 11 ≤ (e + 1075).toNat + 1 := by omega
  rw [pack_finite, if_neg hsmall]
  by_cases hnormal : 2 ^ 52 ≤ m
  · -- The leading one is left out of the bits and put back.
    have hlog : m.log2 + 1 = 53 := by rw [(Nat.log2_eq_iff (by omega)).2 ⟨hnormal, hlt⟩]
    have hexp : (BitVec.ofNat 11 (e + 1075).toNat).toNat = (e + 1075).toNat := by
      rw [BitVec.toNat_ofNat, Nat.mod_eq_of_lt (by omega)]
    have hmantissa : (1#1 ++ BitVec.ofNat 52 m).toNat = m := by
      rw [toNat_leadingOne, BitVec.toNat_ofNat]
      omega
    have hzero : BitVec.ofNat 11 (e + 1075).toNat ≠ 0#_ := by
      intro h0
      rw [h0] at hexp
      simp at hexp
      omega
    -- The exponent bits are not all ones, as the exponent is at most 971.
    have hones : BitVec.ofNat 11 (e + 1075).toNat ≠ (-1#_) := by
      intro h0
      rw [h0] at hexp
      simp at hexp
      omega
    rw [if_pos hlog]
    simp only [UnpackedFloat.unpack, unpackExponent_packComponents, unpackMantissa_packComponents,
      unpackSign_packComponents, Sign.ofBitVec_toBitVec]
    rw [if_neg hones, if_neg hzero]
    congr 1
    rw [hexp]
    -- Only the bias is left: it was added to be packed and is taken off again.
    show _ - ((1023 : Int) + 52) = e
    omega
  · -- Without a leading one the exponent is the least, and its bits are zero.
    have hleast : e = -1074 := hm.leading.resolve_right hnormal
    have hlog : ¬ m.log2 + 1 = 53 := by
      have := (Nat.log2_lt (by omega : m ≠ 0)).2 (Nat.lt_of_not_le hnormal)
      omega
    have hmantissa : (BitVec.ofNat 52 m).toNat = m := by
      rw [BitVec.toNat_ofNat]
      omega
    have hzero : BitVec.ofNat 52 m ≠ 0#_ := by
      intro h0
      rw [h0] at hmantissa
      simp at hmantissa
      omega
    rw [if_neg hlog]
    simp only [UnpackedFloat.unpack, unpackExponent_packComponents, unpackMantissa_packComponents,
      unpackSign_packComponents, Sign.ofBitVec_toBitVec]
    rw [if_neg (by decide), if_pos trivial, dif_neg hzero]
    congr 1
    exact hleast.symm

/-- What has the form of a double is found again in its bits. -/
theorem unpack_pack_form (hu : HasForm s m e u) (hm : Canonical m e) (he : e ≤ 971) :
    UnpackedFloat.unpack .binary64 (UnpackedFloat.pack .binary64 u) = u := by
  cases hu with
  | zero h => exact unpack_pack_zero s
  | finite h => exact unpack_pack_finite s h hm he

end ObsExport.Number
