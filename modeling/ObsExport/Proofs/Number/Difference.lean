import ObsExport.Proofs.Number.Packing

/-!
# Taking away does not increase

A finite number is never below itself less a finite amount that is not negative
(`not_lt_sub`): the exact difference is at most the number, and rounding does not pass the number,
which is a double. Where the difference leaves the range of doubles it is minus infinity, and
nothing is below that.
-/

namespace ObsExport.Number

open Float.Model UnpackedFloat

variable {m n : Nat} {e f : Int} {s : Sign} {u v : UnpackedFloat}

/-! ### Comparing forms -/

/-- A number that is not NaN has a sign. -/
inductive HasSign (s : Sign) : UnpackedFloat → Prop
  | infinity : HasSign s (.infinity s)
  | zero : HasSign s (.zero s)
  | finite (m : Nat) (e : Int) (h : 0 < m) : HasSign s (.finite s m e h)

/-- What has a form has its sign. -/
theorem HasForm.hasSign (h : HasForm s m e u) : HasSign s u := by
  cases h with
  | zero => exact .zero
  | finite h => exact .finite m e h

theorem not_lt_self (u : UnpackedFloat) : u.lt u = false := by
  unfold UnpackedFloat.lt
  cases u with
  | notANumber => rfl
  | infinity s => cases s <;> rfl
  | zero s => rfl
  | finite s m e h => cases s <;> simp [UnpackedFloat.compare]

theorem not_lt_of_hasSign (hu : HasSign .positive u) (hv : HasSign .negative v) :
    u.lt v = false := by
  cases hu <;> cases hv <;> rfl

theorem not_lt_negativeInfinity (hu : HasSign .negative u) :
    u.lt (.infinity .negative) = false := by
  cases hu <;> rfl

/-- Positive numbers in canonical form are ordered by exponent, then by mantissa. -/
theorem lt_positive_iff {hm : 0 < m} {hn : 0 < n} :
    (finite .positive m e hm).lt (finite .positive n f hn) = true ↔
      e < f ∨ e = f ∧ m < n := by
  simp [UnpackedFloat.lt, UnpackedFloat.compare, Ordering.then_eq_lt, Int.compare_eq_lt,
    Nat.compare_eq_lt]

/-- Negative numbers in canonical form are ordered the other way around. -/
theorem lt_negative_iff {hm : 0 < m} {hn : 0 < n} :
    (finite .negative m e hm).lt (finite .negative n f hn) = true ↔
      f < e ∨ e = f ∧ n < m := by
  simp [UnpackedFloat.lt, UnpackedFloat.compare, Ordering.then_eq_gt, Int.compare_eq_gt,
    Nat.compare_eq_gt]

/-- A zero form is at least only zero forms. -/
theorem eq_zero_of_atMost (hm : Canonical 0 e) (hn : Canonical n f) (h : AtMost n f 0 e) :
    n = 0 := by
  have := hm.leading
  have := hn.exponent_ge
  unfold AtMost at h
  omega

/-- Of two positive forms, the greater one is not below the other. -/
theorem not_lt_of_positive (hu : HasForm .positive m e u) (hv : HasForm .positive n f v)
    (hm : Canonical m e) (hn : Canonical n f) (h : AtMost n f m e) : u.lt v = false := by
  cases hu with
  | zero h0 =>
    subst h0
    cases hv with
    | zero => rfl
    | finite hpos =>
      -- What is at most zero is zero.
      have := eq_zero_of_atMost hm hn h
      omega
  | finite hpos =>
    cases hv with
    | zero => rfl
    | finite hpos' =>
      rw [Bool.eq_false_iff, Ne, lt_positive_iff]
      unfold AtMost at h
      omega

/-- Of two negative forms, the one of smaller magnitude is not below the other. -/
theorem not_lt_of_negative (hu : HasForm .negative m e u) (hv : HasForm .negative n f v)
    (hm : Canonical m e) (hn : Canonical n f) (h : AtMost m e n f) : u.lt v = false := by
  cases hv with
  | zero h0 =>
    subst h0
    cases hu with
    | zero => rfl
    | finite hpos =>
      have := eq_zero_of_atMost hn hm h
      omega
  | finite hpos =>
    cases hu with
    | zero => rfl
    | finite hpos' =>
      rw [Bool.eq_false_iff, Ne, lt_negative_iff]
      unfold AtMost at h
      omega

/-! ### Differences -/

/-- What is read of a number after it was packed into bits. -/
def stored (u : UnpackedFloat) : UnpackedFloat :=
  UnpackedFloat.unpack .binary64 (UnpackedFloat.pack .binary64 u)

/-- A canonical form is stored as it is, unless its exponent is too large for a double. -/
theorem stored_cases (hu : HasForm s m e u) (hm : Canonical m e) :
    stored u = u ∨ 971 < e ∧ stored u = .infinity s := by
  by_cases he : e ≤ 971
  · exact .inl (unpack_pack_form hu hm he)
  · cases hu with
    | zero => exact .inl (unpack_pack_zero s)
    | finite h => exact .inr ⟨by omega, unpack_pack_of_large s h (by omega)⟩

/-- Storing a canonical form keeps its sign. -/
theorem hasSign_stored (hu : HasForm s m e u) (hm : Canonical m e) : HasSign s (stored u) := by
  rcases stored_cases hu hm with h | ⟨-, h⟩
  · rw [h]
    exact hu.hasSign
  · rw [h]
    exact .infinity

theorem normalize_of_pos {i : Int} (h : 0 < i) (e : Int) (z : Sign) :
    UnpackedFloat.normalize .binary64 i e z =
      UnpackedFloat.round .binary64 .positive i.toNat e := by
  rw [UnpackedFloat.normalize, Int.compare_eq_gt.2 h]

theorem normalize_of_neg {i : Int} (h : i < 0) (e : Int) (z : Sign) :
    UnpackedFloat.normalize .binary64 i e z =
      UnpackedFloat.round .binary64 .negative (-i).toNat e := by
  rw [UnpackedFloat.normalize, Int.compare_eq_lt.2 h]

/-- The exact difference, in units of the smaller exponent, which is then rounded. -/
theorem sub_finite (s : Sign) (hm : 0 < m) (hn : 0 < n) {k : Int} (hk : min e f = k) :
    UnpackedFloat.sub .binary64 (.finite s m e hm) (.finite .positive n f hn) =
      UnpackedFloat.normalize .binary64
        (s.apply (m * 2 ^ (e - k).toNat : Nat) - (n * 2 ^ (f - k).toNat : Nat)) k .positive := by
  simp only [UnpackedFloat.sub, decreaseExponent, Nat.shiftLeft_eq, hk]
  rfl

/-- Of two positive numbers, the first is not below the difference. -/
theorem not_lt_sub_of_positive (hm : 0 < m) (hn : 0 < n) (hcanonical : Canonical m e)
    (he : e ≤ 971) :
    (finite .positive m e hm).lt (stored (UnpackedFloat.sub .binary64 (.finite .positive m e hm)
      (.finite .positive n f hn))) = false := by
  have hform : HasForm .positive m e (.finite .positive m e hm) := .finite hm
  obtain ⟨k, hk⟩ : ∃ k, min e f = k := ⟨_, rfl⟩
  rw [sub_finite _ hm hn hk]
  simp only [Sign.apply]
  -- Both on the smaller exponent, so that their mantissas are subtracted.
  generalize hM : m * 2 ^ (e - k).toNat = M
  generalize n * 2 ^ (f - k).toNat = N at *
  rcases Int.lt_trichotomy ((M : Int) - N) 0 with hlt | heq | hgt
  · -- Of signs that differ, the positive number is not the smaller one.
    rw [normalize_of_neg hlt]
    obtain ⟨m', e', hform', hcanonical', -⟩ := round_spec .negative
      (by omega : 0 < (-((M : Int) - N)).toNat) k
    exact not_lt_of_hasSign hform.hasSign (hasSign_stored hform' hcanonical')
  · rw [heq]
    show UnpackedFloat.lt _ (stored (.zero .positive)) = false
    rw [stored, unpack_pack_zero]
    rfl
  · -- What is left is at most the number, and so is what it is rounded to.
    rw [normalize_of_pos hgt]
    obtain ⟨m', e', hform', hcanonical', hpass⟩ := round_spec .positive
      (by omega : 0 < ((M : Int) - N).toNat) k
    have hle : AtMost m' e' m e := (hpass m e hcanonical (by omega)).1 (by omega)
    rcases stored_cases hform' hcanonical' with h | ⟨hlarge, -⟩
    · rw [h]
      exact not_lt_of_positive hform hform' hcanonical hcanonical' hle
    · unfold AtMost at hle
      omega

/-- A negative number is not below its difference with a positive one. -/
theorem not_lt_sub_of_negative (hm : 0 < m) (hn : 0 < n) (hcanonical : Canonical m e) :
    (finite .negative m e hm).lt (stored (UnpackedFloat.sub .binary64 (.finite .negative m e hm)
      (.finite .positive n f hn))) = false := by
  have hform : HasForm .negative m e (.finite .negative m e hm) := .finite hm
  obtain ⟨k, hk⟩ : ∃ k, min e f = k := ⟨_, rfl⟩
  rw [sub_finite _ hm hn hk]
  simp only [Sign.apply]
  have hpos : 0 < m * 2 ^ (e - k).toNat := Nat.mul_pos hm (Nat.two_pow_pos _)
  generalize hM : m * 2 ^ (e - k).toNat = M at *
  generalize n * 2 ^ (f - k).toNat = N
  -- The magnitude grows, and what it is rounded to is at least the magnitude of the number.
  rw [normalize_of_neg (by omega)]
  obtain ⟨m', e', hform', hcanonical', hpass⟩ := round_spec .negative
    (by omega : 0 < (-(-(M : Int) - N)).toNat) k
  have hle : AtMost m e m' e' := (hpass m e hcanonical (by omega)).2 (by omega)
  rcases stored_cases hform' hcanonical' with h | ⟨-, h⟩
  · rw [h]
    exact not_lt_of_negative hform hform' hcanonical hcanonical' hle
  · rw [h]
    exact not_lt_negativeInfinity hform.hasSign

/-- **Taking away does not increase.** A finite number is not below itself less a finite amount that
is not negative. -/
theorem not_lt_sub {x y : Float} (hx : Binary.isFinite x = true) (hy : Binary.isFinite y = true)
    (hnonneg : 0 ≤ y) : ¬ x < x - y := by
  rw [lt_iff_unpack, Bool.not_eq_true]
  show x.toModel.unpack.lt (stored (UnpackedFloat.sub .binary64 x.toModel.unpack
    y.toModel.unpack)) = false
  have hnonneg : (UnpackedFloat.zero .positive).le y.toModel.unpack = true :=
    of_decide_eq_true (p := ((0 : Float).toModel ≤ y.toModel)) hnonneg
  obtain ⟨s, m, e, hform, hcanonical, he⟩ := form_of_isFinite hx
  obtain ⟨s', n, f, hform', hcanonical', hf⟩ := form_of_isFinite hy
  -- From here on only the forms matter, and no double is unpacked.
  generalize x.toModel.unpack = u at *
  generalize y.toModel.unpack = v at *
  cases hform' with
  | zero =>
    -- Nothing is taken away, up to the sign of a zero.
    cases hform with
    | zero =>
      obtain ⟨t, ht⟩ : ∃ t, UnpackedFloat.sub .binary64 (.zero s) (.zero s') = .zero t := by
        cases s <;> cases s' <;> exact ⟨_, rfl⟩
      rw [ht, stored, unpack_pack_zero]
      rfl
    | finite hm =>
      show UnpackedFloat.lt _ (stored (.finite s m e hm)) = false
      rw [stored, unpack_pack_finite s hm hcanonical he]
      exact not_lt_self _
  | finite hn =>
    cases s' with
    -- A negative amount is below zero.
    | negative => contradiction
    | positive =>
      cases hform with
      | zero =>
        show UnpackedFloat.lt _ (stored (.finite .negative n f hn)) = false
        rw [stored, unpack_pack_finite _ hn hcanonical' hf]
        rfl
      | finite hm =>
        cases s with
        | negative => exact not_lt_sub_of_negative hm hn hcanonical
        | positive => exact not_lt_sub_of_positive hm hn hcanonical he

end ObsExport.Number
