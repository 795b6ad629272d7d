import ObsExport.Proofs.Number.Integers

/-!
# Doubles are ordered as numbers

Comparing two finite doubles is comparing the numbers that they are (`lt_iff_value`,
`le_iff_value`). Doubles of one sign are compared by exponent first and mantissa second, which is
the order of the numbers because only the least exponent goes with a small mantissa
(`magnitude_lt`). What lies between two finite doubles is finite too (`between_iff_value`): the
infinities are beyond every number, and NaN is nowhere.

So the doubles whose floor is a word can be told by two comparisons, although the greatest word is
no double: it is rounded to the number after it, and what is below that has a floor that is a word
(`between_words_iff`).
-/

namespace ObsExport.Number

open Float.Model UnpackedFloat

variable {m n : Nat} {e f : Int} {s s' : Sign} {u v : UnpackedFloat}

/-! ### Magnitudes -/

/-- A form with a larger exponent has a larger magnitude, for its mantissa starts with a one. -/
theorem magnitude_lt (hm : Canonical m e) (hn : Canonical n f) (h : e < f) :
    (m : ℚ) * 2 ^ e < n * 2 ^ f := by
  have hlead : 2 ^ 52 ≤ n := hn.leading.resolve_left (by have := hm.exponent_ge; omega)
  have hupper : (m : ℚ) < 2 ^ 53 := by exact_mod_cast hm.mantissa_lt
  have hlower : (2 : ℚ) ^ 52 ≤ n := by exact_mod_cast hlead
  calc (m : ℚ) * 2 ^ e
      < 2 ^ 53 * 2 ^ e := by gcongr
    _ = 2 ^ 52 * 2 ^ (e + 1) := by rw [zpow_add_one₀ (by norm_num)]; ring
    _ ≤ 2 ^ 52 * 2 ^ f := by gcongr <;> norm_num; omega
    _ ≤ n * 2 ^ f := by gcongr

/-- Magnitudes are compared by exponent first and mantissa second. -/
theorem compare_magnitude (hm : Canonical m e) (hn : Canonical n f) :
    compare ((m : ℚ) * 2 ^ e) (n * 2 ^ f) = (compare e f).then (compare m n) := by
  rcases Int.lt_trichotomy e f with hlt | rfl | hgt
  · rw [compare_lt_iff_lt.2 (magnitude_lt hm hn hlt), compare_lt_iff_lt.2 hlt]
    rfl
  · -- With one exponent the mantissas decide.
    have hpos : (0 : ℚ) < 2 ^ e := by positivity
    rw [compare_eq_iff_eq.2 rfl, Ordering.eq_then]
    rcases Nat.lt_trichotomy m n with hlt | rfl | hgt
    · rw [compare_lt_iff_lt.2 hlt, compare_lt_iff_lt]
      have : (m : ℚ) < n := by exact_mod_cast hlt
      gcongr
    · rw [compare_eq_iff_eq.2 rfl, compare_eq_iff_eq.2 rfl]
    · rw [compare_gt_iff_gt.2 hgt, compare_gt_iff_gt]
      have : (n : ℚ) < m := by exact_mod_cast hgt
      show (n : ℚ) * 2 ^ e < m * 2 ^ e
      gcongr
  · rw [compare_gt_iff_gt.2 (magnitude_lt hn hm hgt), compare_gt_iff_gt.2 hgt]
    rfl

/-! ### Numbers -/

theorem unpackedValue_positive {h : 0 < m} :
    unpackedValue (.finite .positive m e h) = some ((m : ℚ) * 2 ^ e) := rfl

theorem unpackedValue_negative {h : 0 < m} :
    unpackedValue (.finite .negative m e h) = some (-((m : ℚ) * 2 ^ e)) := by
  simp [unpackedValue, Sign.apply]

theorem compare_neg_neg (a b : ℚ) : compare (-a) (-b) = (compare a b).swap := by
  rcases lt_trichotomy a b with hlt | rfl | hgt
  · rw [compare_gt_iff_gt.2 (neg_lt_neg hlt), compare_lt_iff_lt.2 hlt]
    rfl
  · rw [compare_eq_iff_eq.2 rfl, compare_eq_iff_eq.2 rfl]
    rfl
  · rw [compare_lt_iff_lt.2 (neg_lt_neg hgt), compare_gt_iff_gt.2 hgt]
    rfl

/-- Forms of doubles are compared as the numbers that they are. -/
theorem compare_eq {a b : ℚ} (hu : HasForm s m e u) (hv : HasForm s' n f v) (hm : Canonical m e)
    (hn : Canonical n f) (ha : unpackedValue u = some a) (hb : unpackedValue v = some b) :
    u.compare v = some (compare a b) := by
  have hpos : ∀ {k : Nat} (g : Int), 0 < k → (0 : ℚ) < k * 2 ^ g := by
    intro k g hk
    positivity
  -- A zero has no sign in the comparison; otherwise the signs decide, unless they are the same.
  cases hu with
  | zero =>
    obtain rfl : 0 = a := Option.some.inj ha
    cases hv with
    | zero =>
      obtain rfl : 0 = b := Option.some.inj hb
      rw [compare_eq_iff_eq.2 rfl]
      rfl
    | finite hn0 =>
      cases s' with
      | positive =>
        obtain rfl := Option.some.inj (unpackedValue_positive.symm.trans hb)
        rw [compare_lt_iff_lt.2 (hpos f hn0)]
        rfl
      | negative =>
        obtain rfl := Option.some.inj (unpackedValue_negative.symm.trans hb)
        rw [compare_gt_iff_gt.2 (neg_neg_of_pos (hpos f hn0))]
        rfl
  | finite hm0 =>
    cases s with
    | positive =>
      obtain rfl := Option.some.inj (unpackedValue_positive.symm.trans ha)
      cases hv with
      | zero =>
        obtain rfl : 0 = b := Option.some.inj hb
        rw [compare_gt_iff_gt.2 (hpos e hm0)]
        rfl
      | finite hn0 =>
        cases s' with
        | positive =>
          obtain rfl := Option.some.inj (unpackedValue_positive.symm.trans hb)
          rw [compare_magnitude hm hn]
          rfl
        | negative =>
          obtain rfl := Option.some.inj (unpackedValue_negative.symm.trans hb)
          rw [compare_gt_iff_gt.2 ((neg_neg_of_pos (hpos f hn0)).trans (hpos e hm0))]
          rfl
    | negative =>
      obtain rfl := Option.some.inj (unpackedValue_negative.symm.trans ha)
      cases hv with
      | zero =>
        obtain rfl : 0 = b := Option.some.inj hb
        rw [compare_lt_iff_lt.2 (neg_neg_of_pos (hpos e hm0))]
        rfl
      | finite hn0 =>
        cases s' with
        | positive =>
          obtain rfl := Option.some.inj (unpackedValue_positive.symm.trans hb)
          rw [compare_lt_iff_lt.2 ((neg_neg_of_pos (hpos e hm0)).trans (hpos f hn0))]
          rfl
        | negative =>
          -- Of two negative numbers the one of larger magnitude is the smaller.
          obtain rfl := Option.some.inj (unpackedValue_negative.symm.trans hb)
          rw [compare_neg_neg, compare_magnitude hm hn]
          rfl

/-- Infinities are beyond all forms, on one side or the other, and NaN is beyond them on both. -/
theorem not_between {w : UnpackedFloat} (hu : HasForm s m e u) (hv : HasForm s' n f v)
    (hw : unpackedValue w = none) (hle : u.le w = true) (hlt : w.lt v = true) : False := by
  -- What is no number is an infinity or NaN.
  cases w with
  | zero t => contradiction
  | finite t k g hk => contradiction
  | notANumber => cases hv <;> contradiction
  | infinity t =>
    cases t with
    | positive => cases hv <;> contradiction
    | negative =>
      cases hu with
      | zero => contradiction
      | finite hm => cases s <;> contradiction

/-! ### Doubles -/

variable {x y lower upper : Float} {a b : ℚ}

/-- A double that is a number has a form. -/
theorem form_of_value? (h : value? x = some a) :
    unpackedValue x.toModel.unpack = some a ∧
      ∃ s m e, HasForm s m e x.toModel.unpack ∧ Canonical m e := by
  obtain ⟨bits, hbits, -⟩ := value?_eq_some_iff.1 h
  exact ⟨by rw [← value?_eq, h], _, _, _, hasForm_unpack hbits, (canonical_of_ofFloat? hbits).1⟩

/-- The comparison of two finite numbers is that of their values. -/
theorem compare_unpack (hx : value? x = some a) (hy : value? y = some b) :
    x.toModel.unpack.compare y.toModel.unpack = some (compare a b) := by
  obtain ⟨ha, _, _, _, hu, hm⟩ := form_of_value? hx
  obtain ⟨hb, _, _, _, hv, hn⟩ := form_of_value? hy
  exact compare_eq hu hv hm hn ha hb

/-- Finite numbers are ordered as the rational numbers that they are. -/
theorem lt_iff_value (hx : value? x = some a) (hy : value? y = some b) : x < y ↔ a < b := by
  rw [lt_iff_unpack, UnpackedFloat.lt, compare_unpack hx hy, beq_iff_eq, Option.some.injEq,
    compare_lt_iff_lt]

theorem le_iff_unpack : x ≤ y ↔ x.toModel.unpack.le y.toModel.unpack = true := by
  show Float.le x y = true ↔ _
  exact decide_eq_true_iff

theorem le_iff_value (hx : value? x = some a) (hy : value? y = some b) : x ≤ y ↔ a ≤ b := by
  rw [le_iff_unpack, UnpackedFloat.le, compare_unpack hx hy, Option.any_some,
    Ordering.isLE_iff_ne_gt]
  exact compare_le_iff_le

/-- **What lies between two numbers is a number.** A double is at least one finite double and below
another exactly if it is finite and its number is between theirs. -/
theorem between_iff_value (hlower : value? lower = some a) (hupper : value? upper = some b) :
    lower ≤ x ∧ x < upper ↔ ∃ q, value? x = some q ∧ a ≤ q ∧ q < b := by
  constructor
  · rintro ⟨hle, hlt⟩
    cases hx : value? x with
    | some q => exact ⟨q, rfl, (le_iff_value hlower hx).1 hle, (lt_iff_value hx hupper).1 hlt⟩
    -- Both comparisons hold, so an infinity or NaN would be between two forms.
    | none =>
      obtain ⟨-, _, _, _, hl, -⟩ := form_of_value? hlower
      obtain ⟨-, _, _, _, hu, -⟩ := form_of_value? hupper
      exact (not_between hl hu ((value?_eq x).symm.trans hx) (le_iff_unpack.1 hle)
        (lt_iff_unpack.1 hlt)).elim
  · rintro ⟨q, hq, hle, hlt⟩
    exact ⟨(le_iff_value hlower hq).2 hle, (lt_iff_value hq hupper).2 hlt⟩

/-! ### The range of words -/

/-- The least word is a double. -/
theorem value?_leastWord : value? (Float.ofInt leastWord) = some (-2 ^ 63) := by
  have hunpack : (Float.ofInt leastWord).toModel.unpack =
      .finite .negative (2 ^ 52) 11 (by decide) := rfl
  rw [value?_eq, hunpack, unpackedValue_negative]
  norm_num

/-- The greatest word is none, and what it is rounded to is the number after it. -/
theorem value?_greatestWord : value? (Float.ofInt greatestWord) = some (2 ^ 63) := by
  have hunpack : (Float.ofInt greatestWord).toModel.unpack =
      .finite .positive (2 ^ 52) 11 (by decide) := rfl
  rw [value?_eq, hunpack, unpackedValue_positive]
  norm_num

/-- The floor is in the range of words exactly if the number lies between its ends. -/
theorem inWord_floor_iff {q : ℚ} : InWord ⌊q⌋ ↔ -2 ^ 63 ≤ q ∧ q < 2 ^ 63 := by
  -- Of integers, being at most one less is being below.
  have hbelow : ⌊q⌋ ≤ greatestWord ↔ ⌊q⌋ < 2 ^ 63 := by
    unfold greatestWord
    omega
  rw [InWord, hbelow, Int.le_floor, Int.floor_lt]
  norm_num [leastWord]

/-- **Comparing with the ends of the range as doubles is exact.** A double is at least the least
word, and below what the greatest word is rounded to, exactly if it is a number whose floor is a
word. -/
theorem between_words_iff :
    Float.ofInt leastWord ≤ x ∧ x < Float.ofInt greatestWord ↔
      ∃ q, value? x = some q ∧ InWord ⌊q⌋ := by
  rw [between_iff_value value?_leastWord value?_greatestWord]
  simp only [inWord_floor_iff]

end ObsExport.Number
