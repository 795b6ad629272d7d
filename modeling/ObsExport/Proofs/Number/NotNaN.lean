import ObsExport.Number.Binary
import Mathlib

/-!
# Numbers that are numbers

A number is equal to itself unless it is NaN (`beq_self_of_not_isNaN`), and NaN is equal to nothing
and below nothing (`not_beq_of_isNaN`, `not_lt_of_isNaN`). Finite numbers are not NaN
(`isNaN_of_isFinite`), and neither is the number nearest to an integer (`isNaN_ofInt`), which is
infinite for a large one.
-/

namespace ObsExport.Number

open Float.Model

/-- What is a number equals itself. -/
theorem beq_self_of_not_isNaN {x : Float} (h : x.isNaN = false) : (x == x) = true :=
  Float.beq_self_iff.2 (by simpa using h)

/-- What is no number equals nothing, itself included. -/
theorem not_beq_of_isNaN {x : Float} (h : x.isNaN = true) (y : Float) : (x == y) = false := by
  obtain rfl : x = Float.nan := by simpa using h
  exact Float.nan_beq_eq_false y

/-- The order of doubles is read off their unpacked forms. -/
theorem lt_iff_unpack {x y : Float} :
    x < y ↔ x.toModel.unpack.lt y.toModel.unpack = true := by
  show Float.lt x y = true ↔ _
  exact decide_eq_true_iff

/-- What is no number is below nothing. -/
theorem not_lt_of_isNaN {x : Float} (h : x.isNaN = true) (y : Float) : ¬ x < y := by
  have hunpack : x.toModel.unpack = .notANumber := UnpackedFloat.isNaN_iff.1 h
  rw [lt_iff_unpack, hunpack]
  simp [UnpackedFloat.lt, UnpackedFloat.compare]

/-! ### Bit patterns -/

/-- Bits are a number unless all bits of the exponent are set and some of the mantissa. -/
theorem isNaN_unpack {spec : Format} {bits : BitVec spec.numBits}
    (h : UnpackedFloat.unpackExponent bits = (-1#_) → UnpackedFloat.unpackMantissa bits = 0#_) :
    (UnpackedFloat.unpack spec bits).isNaN = false := by
  unfold UnpackedFloat.unpack
  dsimp only
  split
  next he =>
    rw [if_pos (h he)]
    rfl
  next he =>
    split
    · split <;> rfl
    · rfl

/-- The exponent is the second bit group of a double. -/
theorem toNat_unpackExponent (x : Float) :
    (@UnpackedFloat.unpackExponent .binary64 x.toBits.toBitVec).toNat =
      x.toBits.toNat / 0x10000000000000 % 0x800 := by
  simp only [UnpackedFloat.unpackExponent]
  rw [BitVec.toNat_cast, BitVec.extractLsb_toNat, Nat.shiftRight_eq_div_pow]
  rfl

/-- The largest exponent is not that of a finite number. -/
theorem unpackExponent_of_isFinite {x : Float} (h : Binary.isFinite x = true) :
    @UnpackedFloat.unpackExponent .binary64 x.toBits.toBitVec ≠ (-1#_) := by
  intro he
  have hbits : x.toBits.toNat / 0x10000000000000 % 0x800 = 2047 := by
    rw [← toNat_unpackExponent, he]
    rfl
  simp [Binary.isFinite, Binary.ofFloat?, hbits] at h

theorem isNaN_of_isFinite {x : Float} (h : Binary.isFinite x = true) : x.isNaN = false :=
  isNaN_unpack fun he => absurd he (unpackExponent_of_isFinite h)

/-- Packing a number into bits does not make it NaN. -/
theorem isNaN_unpack_pack {spec : Format} {f : UnpackedFloat} (h : f.isNaN = false) :
    (UnpackedFloat.unpack spec (UnpackedFloat.pack spec f)).isNaN = false := by
  refine isNaN_unpack ?_
  fun_cases UnpackedFloat.pack with
  | case1 => simp [UnpackedFloat.isNaN] at h
  | case2 s => simp [UnpackedFloat.packedInfinity]
  | case3 s => simp [UnpackedFloat.packedZero]
  | case4 s m e hm biasedExponent hlarge => simp [UnpackedFloat.packedInfinity]
  | case5 s m e hm bits biasedExponent hlarge hnormal =>
    -- The largest exponent is taken by the infinities.
    have hlt : biasedExponent < 2 ^ spec.exponentBits - 1 := by omega
    have hne : biasedExponent % 2 ^ spec.exponentBits ≠ 2 ^ spec.exponentBits - 1 := by
      rw [Nat.mod_eq_of_lt (by omega)]
      omega
    simp [BitVec.neg_one_eq_allOnes, ← BitVec.toNat_inj, hne]
  | case6 s m e hm bits biasedExponent hlarge hnormal =>
    simp [Nat.pos_iff_ne_zero.1 spec.he]

/-- Packing a number gives a number. -/
theorem isNaN_pack {f : UnpackedFloat} (h : f.isNaN = false) :
    (Float.ofModel (pack f)).isNaN = false :=
  isNaN_unpack_pack h

/-! ### Operations on integers -/

theorem isNaN_roundWithAccuracy {spec : Format} {s : UnpackedFloat.Sign} {m : Nat} {e : Int}
    {a : UnpackedFloat.Accuracy} :
    (UnpackedFloat.roundWithAccuracy spec s m e a).isNaN = false := by
  unfold UnpackedFloat.roundWithAccuracy
  dsimp only
  split <;> rfl

/-- A product with a number that is finite and not zero. -/
theorem isNaN_mul {spec : Format} {f : UnpackedFloat} {s : UnpackedFloat.Sign} {m : Nat} {e : Int}
    {hm : 0 < m} (h : f.isNaN = false) :
    (UnpackedFloat.mul spec f (.finite s m e hm)).isNaN = false := by
  cases f with
  | notANumber => simp [UnpackedFloat.isNaN] at h
  | infinity s => rfl
  | zero s => rfl
  | finite s m e hm => exact isNaN_roundWithAccuracy

theorem isNaN_unpackedInt {spec : Format} {i : Int} :
    (UnpackedFloat.ofInt spec i).isNaN = false := by
  unfold UnpackedFloat.ofInt UnpackedFloat.normalize
  split
  · exact isNaN_roundWithAccuracy
  · rfl
  · exact isNaN_roundWithAccuracy

theorem isNaN_ofNat (n : Nat) : (Float.ofNat n).isNaN = false := by
  show (Float.ofScientific n false 0).isNaN = false
  unfold Float.ofScientific
  split
  next h =>
    -- A small number is multiplied by one.
    have hone : (Float.ofBits 0x3FF0000000000000).toModel.unpack =
        .finite .positive 0x10000000000000 (-52) (by decide) := rfl
    show (Float.ofModel (pack (UnpackedFloat.mul Format.binary64
      (pack (UnpackedFloat.ofInt Format.binary64 n.toUInt64.toNat)).unpack
      (Float.ofBits 0x3FF0000000000000).toModel.unpack))).isNaN = false
    rw [hone]
    exact isNaN_pack (isNaN_mul (isNaN_unpack_pack isNaN_unpackedInt))
  next h =>
    refine isNaN_pack ?_
    fun_cases UnpackedFloat.ofScientific with
    | case1 => rfl
    | case2 => rfl
    | case3 => rfl
    | case4 => exact isNaN_mul rfl
    | case5 hm h₁ h₂ h₃ => simp at h₃

theorem isNaN_ofInt (i : Int) : (Float.ofInt i).isNaN = false := by
  cases i with
  | ofNat n => exact isNaN_ofNat n
  | negSucc n =>
    have hnan : (Float.ofNat (n + 1)).toModel.unpack.isNaN = false := isNaN_ofNat (n + 1)
    refine isNaN_pack ?_
    show (Float.ofNat (n + 1)).toModel.unpack.neg.isNaN = false
    cases hx : (Float.ofNat (n + 1)).toModel.unpack with
    | notANumber => simp [hx, UnpackedFloat.isNaN] at hnan
    | infinity s => rfl
    | zero s => rfl
    | finite s m e hm => rfl

end ObsExport.Number
