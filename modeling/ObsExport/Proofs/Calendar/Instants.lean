import ObsExport.Proofs.Calendar.Days

/-!
# Instants and their readings

A date with a time of day is one instant, and an instant whose year is in range has one reading
(`ofSeconds?_eq_some_iff`): going from the one to the other divides by the lengths of day, hour and
minute, which is inverse to putting them together. So the text of an instant spells the date and time
that the calendar gives it; with a year of four digits it consists of its digits alone
(`toList_text`).
-/

namespace ObsExport

namespace DateTime

/-- The seconds since the start of the day. -/
theorem seconds_eq (t : DateTime) :
    t.seconds =
      86400 * t.date.dayNumber + ((3600 * t.hour + 60 * t.minute + t.second : Nat) : Int) := by
  unfold seconds
  push_cast
  omega

/-- The time of day is below the length of a day. -/
theorem clock_lt {t : DateTime} (h : t.Valid) :
    3600 * t.hour + 60 * t.minute + t.second < 86400 := by
  obtain ⟨-, hhour, hminute, hsecond⟩ := h
  omega

/-- The reading of an instant is the one date and time of the calendar that it is. -/
theorem ofSeconds?_eq_some_iff {s : Int} {t : DateTime} :
    ofSeconds? s = some t ↔ t.Valid ∧ t.seconds = s := by
  unfold ofSeconds?
  dsimp only
  obtain ⟨hproper, hnumber⟩ := Date.dayNumber_ofDayNumber (s / 86400)
  constructor
  · intro h
    split at h
    next hrange =>
      obtain rfl := Option.some.inj h
      refine ⟨⟨Date.valid_iff.2 ⟨hrange, hproper⟩, ?_, ?_, ?_⟩, ?_⟩
      · show (s % 86400).toNat / 3600 < 24
        omega
      · show (s % 86400).toNat / 60 % 60 < 60
        omega
      · show (s % 86400).toNat % 60 < 60
        omega
      · rw [seconds_eq, hnumber]
        dsimp only
        omega
    next => contradiction
  · rintro ⟨hvalid, rfl⟩
    have hclock := clock_lt hvalid
    obtain ⟨hdate, hhour, hminute, hsecond⟩ := hvalid
    obtain ⟨hrange, hproper⟩ := Date.valid_iff.1 hdate
    -- The clock is what is left of the seconds after whole days were taken away.
    have hday : t.seconds / 86400 = t.date.dayNumber := by
      rw [seconds_eq]
      omega
    have hrest : (t.seconds % 86400).toNat = 3600 * t.hour + 60 * t.minute + t.second := by
      rw [seconds_eq]
      omega
    rw [hday, Date.ofDayNumber_dayNumber hproper, if_pos hrange, hrest]
    congr 2
    · omega
    · omega
    · omega

/-- An instant has one reading at most. -/
theorem eq_of_seconds_eq {t u : DateTime} (ht : t.Valid) (hu : u.Valid)
    (h : t.seconds = u.seconds) : t = u := by
  have hread := ofSeconds?_eq_some_iff.2 ⟨ht, h⟩
  rw [ofSeconds?_eq_some_iff.2 ⟨hu, rfl⟩] at hread
  exact (Option.some.inj hread).symm

/-- An instant has a reading if it is not far from the years of four digits. -/
theorem exists_reading {s : Int} (h : -100000000000 ≤ s ∧ s ≤ 300000000000) :
    ∃ t : DateTime, t.Valid ∧ t.seconds = s := by
  -- The year of its day is in range.
  have hrange : Date.InRange (Date.ofDayNumber (s / 86400)).year := by
    obtain ⟨hlower, hupper⟩ := Date.yearOf_spec (s / 86400 + Date.epochDay)
    show Date.InRange (Date.yearOf (s / 86400 + Date.epochDay))
    unfold Date.daysBeforeYear Date.epochDay at hlower hupper
    unfold Date.InRange Date.epochDay
    omega
  obtain ⟨t, ht⟩ : ∃ t, ofSeconds? s = some t := ⟨_, if_pos hrange⟩
  exact ⟨t, ofSeconds?_eq_some_iff.1 ht⟩

/-- A date and time is so many seconds after the start of 1970: a day is 86400 of them. -/
def IsAt (t : DateTime) (s : Int) : Prop :=
  ∃ days, Date.Apart ⟨1970, 1, 1⟩ t.date days ∧
    s = 86400 * days + 3600 * t.hour + 60 * t.minute + t.second

/-- A valid reading of a clock is at the second that it is computed to be at. -/
theorem isAt_iff {t : DateTime} (h : t.Valid) {s : Int} : t.IsAt s ↔ t.seconds = s := by
  have hproper := (Date.valid_iff.1 h.1).2
  unfold IsAt seconds
  simp only [Date.apart_iff_dayNumber hproper]
  exact ⟨fun ⟨_, hdays, hs⟩ => by rw [hs, hdays], fun hs => ⟨_, rfl, hs.symm⟩⟩

end DateTime

/-! ### Texts -/

/-- The last decimal digits of a number, so many of them. -/
def decimals : Nat → Nat → List Char
  | 0, _ => []
  | k + 1, n => decimals k (n / 10) ++ [Nat.digitChar (n % 10)]

/-- Zero is written with zeros alone. -/
theorem decimals_zero (k : Nat) : decimals k 0 = List.replicate k '0' := by
  induction k with
  | zero => rfl
  | succ k ih => rw [decimals, ih, List.replicate_succ']; rfl

/-- Zeros in front of the digits of a number, as many as are missing. -/
theorem replicate_append_toDigits {k n : Nat} (hk : 0 < k) (h : n < 10 ^ k) :
    List.replicate (k - (Nat.toDigits 10 n).length) '0' ++ Nat.toDigits 10 n = decimals k n := by
  -- By induction on the width: the last digit goes with the last place, zeros stay in front.
  induction k generalizing n with
  | zero => contradiction
  | succ k ih =>
    rw [decimals]
    by_cases hn : n < 10
    · -- The only digit has zeros in front.
      rw [Nat.toDigits_of_lt_base hn, Nat.div_eq_of_lt hn, Nat.mod_eq_of_lt hn, decimals_zero]
      rfl
    · rw [Nat.pow_succ] at h
      have hk : 0 < k := by
        rcases Nat.eq_zero_or_pos k with rfl | hk
        · omega
        · exact hk
      rw [Nat.toDigits_of_base_le (by decide) (Nat.le_of_not_lt hn), List.length_append,
        List.length_singleton, Nat.add_sub_add_right, ← List.append_assoc,
        ih hk (Nat.div_lt_of_lt_mul (by omega))]

/-- A number with no more digits than places is written with zeros in front. -/
theorem Date.toList_padded {k n : Nat} (hk : 0 < k) (h : n < 10 ^ k) :
    (padded k n).toList = decimals k n := by
  have hdigits : (toString n).toList = Nat.toDigits 10 n := Nat.toList_repr
  rw [padded, String.toList_append, String.toList_ofList, ← String.length_toList, hdigits,
    replicate_append_toDigits hk h]

namespace DateTime

/-- The parts of a date and time in four or two digits, with hyphens, colons and the marks of time
and UTC. -/
def spelled (t : DateTime) : List Char :=
  decimals 4 t.date.year.toNat ++ '-' :: decimals 2 t.date.month ++ '-' :: decimals 2 t.date.day ++
    'T' :: decimals 2 t.hour ++ ':' :: decimals 2 t.minute ++ ':' :: decimals 2 t.second ++ ['Z']

/-- With a year of four digits a date and time is written in its parts alone, without a sign. -/
theorem toList_text {t : DateTime} (h : t.Valid) (hyear : 0 ≤ t.date.year ∧ t.date.year ≤ 9999) :
    t.text.toList = t.spelled := by
  obtain ⟨hdate, hhour, hminute, hsecond⟩ := h
  have hbounds := Date.bounds_of_proper (Date.valid_iff.1 hdate).2
  have hfour : 0 ≤ t.date.year ∧ t.date.year < 10000 := by omega
  rw [text, Date.text, Date.yearText, if_pos hfour]
  simp only [String.toList_append]
  rw [Date.toList_padded (by decide) (by omega), Date.toList_padded (by decide) (by omega),
    Date.toList_padded (by decide) (by omega), Date.toList_padded (by decide) (by omega),
    Date.toList_padded (by decide) (by omega), Date.toList_padded (by decide) (by omega), spelled]
  simp

end DateTime

end ObsExport
