import ObsExport.Calendar
import ObsExport.Proofs.Repeats.Positions
import Mathlib.Logic.Function.Iterate
import Mathlib.Tactic.IntervalCases

/-!
# Days are counted without a gap

A date is counted by the lengths of the years before it and of the months of its year before it, and
is found again by dividing: first the year, by an estimate that is corrected by one at most
(`yearOf_spec`), then the month, by going through the lengths of the months (`monthDay_eq`). Both
directions are inverse to each other for all days of all years (`ofDayNumber_dayNumber`,
`dayNumber_ofDayNumber`), so that the range of years plays no part in it.

What the number of a day means is said by the calendar alone: the day after a date is the next one of
its month, or else the first of the next month, or else the first of the next year (`Date.next`).
Between two dates there are as many days as it takes steps to get from one to the other
(`Date.Apart`), and the number of a day is how far it is from the first of January 1970
(`apart_iff_dayNumber`).
-/

namespace ObsExport

namespace Date

/-- The month is one of its year, and the day is one of the month. -/
def Proper (d : Date) : Prop :=
  1 ≤ d.month ∧ 1 ≤ d.day ∧ d.day ≤ (monthLengths d.year)[d.month - 1]?.getD 0

instance (d : Date) : Decidable d.Proper := inferInstanceAs (Decidable (_ ∧ _ ∧ _))

/-- A date is valid if its year is in range and it is a day of the calendar. -/
theorem valid_iff {d : Date} : d.Valid ↔ InRange d.year ∧ d.Proper := by
  unfold Valid Proper
  cases (monthLengths d.year)[d.month - 1]? with
  | none =>
    simp only [Option.map_none, Option.getD_none, reduceCtorEq, and_false, false_iff]
    omega
  | some length => simp

/-- A month is one of twelve, and none is longer than thirty-one days. -/
theorem bounds_of_proper {d : Date} (h : d.Proper) : d.month ≤ 12 ∧ d.day ≤ 31 := by
  obtain ⟨-, hfirst, hday⟩ := h
  have hlongest : ∀ length ∈ monthLengths d.year, length ≤ 31 := by
    unfold monthLengths
    cases isLeap d.year <;> decide
  cases hlength : (monthLengths d.year)[d.month - 1]? with
  | none =>
    rw [hlength] at hday
    exact absurd (Nat.le_trans hfirst hday) (by decide)
  | some length =>
    have hmonth : d.month - 1 < 12 := (List.getElem?_eq_some_iff.1 hlength).1
    have hle := hlongest length (List.mem_of_getElem? hlength)
    rw [hlength, Option.getD_some] at hday
    omega

/-! ### Years -/

/-- The months of a year add up to its days. -/
theorem total_monthLengths (year : Int) :
    (total (monthLengths year) : Int) = if isLeap year then 366 else 365 := by
  unfold monthLengths
  cases isLeap year <;> rfl

/-- A year ends where the next one begins. -/
theorem daysBeforeYear_succ (year : Int) :
    daysBeforeYear (year + 1) = daysBeforeYear year + total (monthLengths year) := by
  rw [total_monthLengths]
  unfold daysBeforeYear isLeap
  simp only [Bool.and_eq_true, decide_eq_true_eq, Bool.or_eq_true, bne_iff_ne]
  split <;> omega

/-- Later years begin later. -/
theorem daysBeforeYear_le {a b : Int} (h : a ≤ b) : daysBeforeYear a ≤ daysBeforeYear b := by
  unfold daysBeforeYear
  omega

/-- The year that holds a day starts at the day or before, and the next year starts behind it. -/
theorem yearOf_spec (n : Int) :
    daysBeforeYear (yearOf n) ≤ n ∧ n < daysBeforeYear (yearOf n + 1) := by
  obtain ⟨q, hq⟩ : ∃ q, n * 400 / 146097 = q := ⟨_, rfl⟩
  have hlower : 146097 * q ≤ n * 400 := by omega
  have hupper : n * 400 < 146097 * (q + 1) := by omega
  -- The estimate is off by one year at most.
  have hbefore : daysBeforeYear (q + 1 - 1) ≤ n := by
    unfold daysBeforeYear
    omega
  have hafter : n < daysBeforeYear (q + 1 + 1 + 1) := by
    unfold daysBeforeYear
    omega
  unfold yearOf
  rw [hq]
  dsimp only
  split
  next h => exact ⟨h, hafter⟩
  next h =>
    split
    next h' => exact ⟨hbefore, by rwa [Int.sub_add_cancel]⟩
    next h' => omega

/-- The year of a day is the one between whose ends the day lies. -/
theorem yearOf_eq {n year : Int} (hlower : daysBeforeYear year ≤ n)
    (hupper : n < daysBeforeYear (year + 1)) : yearOf n = year := by
  obtain ⟨hlower', hupper'⟩ := yearOf_spec n
  rcases Int.lt_trichotomy (yearOf n) year with hlt | heq | hlt
  · have := daysBeforeYear_le (show yearOf n + 1 ≤ year by omega)
    omega
  · exact heq
  · have := daysBeforeYear_le (show year + 1 ≤ yearOf n by omega)
    omega

/-! ### Months -/

/-- Going through the months finds the month whose days the day is among. -/
theorem monthDay_eq {lengths : List Nat} {i day : Nat} (month : Nat)
    (h : day < lengths[i]?.getD 0) :
    monthDay month (total (lengths.take i) + day) lengths = (month + i, day) := by
  -- By induction on the months to come; those that were passed are in the number of the month.
  induction lengths generalizing i month with
  | nil => simp at h
  | cons length later ih =>
    cases i with
    | zero =>
      simp only [List.getElem?_cons_zero, Option.getD_some] at h
      simp [monthDay, h]
    | succ i =>
      simp only [List.getElem?_cons_succ] at h
      have hskip : ¬ total ((length :: later).take (i + 1)) + day < length := by
        simp only [List.take_succ_cons, total_cons]
        omega
      have hrest : total ((length :: later).take (i + 1)) + day - length =
          total (later.take i) + day := by
        simp only [List.take_succ_cons, total_cons]
        omega
      rw [monthDay, if_neg hskip, hrest, ih (month + 1) h, Nat.add_right_comm, Nat.add_assoc]

/-! ### Dates -/

/-- The number of a day, given month and day of the year from zero. -/
theorem dayNumber_mk (year : Int) (month day : Nat) :
    dayNumber ⟨year, month + 1, day + 1⟩ =
      daysBeforeYear year + ((total ((monthLengths year).take month) + day : Nat) : Int) -
        epochDay := by
  unfold dayNumber
  simp only [Nat.add_sub_cancel]
  push_cast
  omega

/-- A day of the calendar is given by a month and a day counted from zero, below the length of the
month. -/
theorem exists_mk {d : Date} (h : d.Proper) :
    ∃ month day, d = ⟨d.year, month + 1, day + 1⟩ ∧
      day < (monthLengths d.year)[month]?.getD 0 := by
  obtain ⟨hmonth, hday, hlength⟩ := h
  refine ⟨d.month - 1, d.day - 1, ?_, by omega⟩
  rw [Nat.sub_add_cancel hmonth, Nat.sub_add_cancel hday]

/-- Every day is found again by its number. -/
theorem ofDayNumber_dayNumber {d : Date} (h : d.Proper) : ofDayNumber d.dayNumber = d := by
  obtain ⟨month, day, hd, hday⟩ := exists_mk h
  have hwithin := Repeats.total_take_add_lt hday
  have hsucc := daysBeforeYear_succ d.year
  rw [hd, dayNumber_mk]
  generalize d.year = year at *
  generalize hoffset : total ((monthLengths year).take month) + day = offset at *
  have hyear : yearOf (daysBeforeYear year + (offset : Int)) = year :=
    yearOf_eq (by omega) (by omega)
  have hrest : (daysBeforeYear year + (offset : Int) - daysBeforeYear year).toNat = offset := by
    omega
  unfold ofDayNumber
  simp only [Int.sub_add_cancel, hyear, hrest]
  rw [← hoffset, monthDay_eq 0 hday, Nat.zero_add]

/-- Every number is that of a day, and the day has a place in the calendar. -/
theorem dayNumber_ofDayNumber (n : Int) :
    (ofDayNumber n).Proper ∧ (ofDayNumber n).dayNumber = n := by
  obtain ⟨hlower, hupper⟩ := yearOf_spec (n + epochDay)
  rw [daysBeforeYear_succ] at hupper
  -- What is left of the year falls into one of its months.
  obtain ⟨month, day, -, hday, heq⟩ := Repeats.exists_of_lt_total
    (show (n + epochDay - daysBeforeYear (yearOf (n + epochDay))).toNat <
      total (monthLengths (yearOf (n + epochDay))) by omega)
  have hdate : ofDayNumber n = ⟨yearOf (n + epochDay), month + 1, day + 1⟩ := by
    unfold ofDayNumber
    simp only [← heq]
    rw [monthDay_eq 0 hday, Nat.zero_add]
  rw [hdate]
  refine ⟨⟨Nat.le_add_left _ _, Nat.le_add_left _ _, ?_⟩, ?_⟩
  · simp only [Nat.add_sub_cancel]
    omega
  · rw [dayNumber_mk, heq]
    omega

/-- The number of a day is in the year of the day. -/
theorem dayNumber_bounds {d : Date} (h : d.Proper) :
    daysBeforeYear d.year ≤ d.dayNumber + epochDay ∧
      d.dayNumber + epochDay < daysBeforeYear (d.year + 1) := by
  have hyear : yearOf (d.dayNumber + epochDay) = d.year :=
    congrArg Date.year (ofDayNumber_dayNumber h)
  have hspec := yearOf_spec (d.dayNumber + epochDay)
  rwa [hyear] at hspec

/-! ### From day to day -/

/-- The day after: the next of its month, or the first of the next month, or of the next year. -/
def next (d : Date) : Date :=
  if d.day < (monthLengths d.year)[d.month - 1]?.getD 0 then ⟨d.year, d.month, d.day + 1⟩
  else if d.month < 12 then ⟨d.year, d.month + 1, 1⟩
  else ⟨d.year + 1, 1, 1⟩

/-- Behind one month more lie the days of that month more. -/
theorem total_take_succ (lengths : List Nat) (i : Nat) :
    total (lengths.take (i + 1)) = total (lengths.take i) + lengths[i]?.getD 0 := by
  rw [List.take_add_one, total_append]
  cases lengths[i]? <;> simp

/-- No month is without days, so the first of a month is always there. -/
theorem length_pos (year : Int) {month : Nat} (h : month < 12) :
    1 ≤ (monthLengths year)[month]?.getD 0 := by
  unfold monthLengths
  cases isLeap year <;> interval_cases month <;> decide

/-- Behind a day of the calendar comes a day of the calendar. -/
theorem next_proper {d : Date} (h : d.Proper) : d.next.Proper := by
  obtain ⟨hmonth, hday, hlength⟩ := h
  unfold next
  split
  next hlt => exact ⟨hmonth, Nat.le_add_left _ _, hlt⟩
  next =>
    split
    next hlast => exact ⟨Nat.le_add_left _ _, Nat.le_refl 1, length_pos d.year hlast⟩
    next => exact ⟨Nat.le_refl 1, Nat.le_refl 1, @length_pos (d.year + 1) 0 (by decide)⟩

/-- The day after has the next number. -/
theorem dayNumber_next {d : Date} (h : d.Proper) : d.next.dayNumber = d.dayNumber + 1 := by
  obtain ⟨month, day, hd, hday⟩ := exists_mk h
  have hlt : month < 12 := by
    have := (bounds_of_proper h).1
    rw [hd] at this
    exact this
  generalize d.year = year at *
  subst hd
  rw [dayNumber_mk]
  have hsucc := total_take_succ (monthLengths year) month
  unfold next
  simp only [Nat.add_sub_cancel]
  split
  next hnext =>
    rw [dayNumber_mk]
    omega
  next hlast =>
    split
    next =>
      -- The first of the next month follows the last day of the month.
      have hfirst := dayNumber_mk year (month + 1) 0
      rw [hfirst]
      omega
    next hdecember =>
      obtain rfl : month = 11 := by omega
      have hfirst := dayNumber_mk (year + 1) 0 0
      have hyear := daysBeforeYear_succ year
      have hall : (monthLengths year).take (11 + 1) = monthLengths year := rfl
      rw [hall] at hsucc
      rw [hfirst, List.take_zero, total_nil]
      omega

/-- Some days after the day with a number is the day with that much larger a number. -/
theorem iterate_next (k : Nat) (n : Int) : next^[k] (ofDayNumber n) = ofDayNumber (n + k) := by
  induction k with
  | zero => simp
  | succ k ih =>
    obtain ⟨hproper, hnumber⟩ := dayNumber_ofDayNumber (n + k)
    rw [Function.iterate_succ_apply', ih, ← ofDayNumber_dayNumber (next_proper hproper),
      dayNumber_next hproper, hnumber, Int.add_assoc, Nat.cast_succ]

/-- It takes `n` steps from day to day to get from one date to another; from the other to the one,
if `n` is negative. -/
def Apart (a b : Date) (n : Int) : Prop :=
  (0 ≤ n ∧ next^[n.toNat] a = b) ∨ (n ≤ 0 ∧ next^[(-n).toNat] b = a)

/-- Numbers of days tell how far the days are apart. -/
theorem apart_iff {a b : Date} (ha : a.Proper) (hb : b.Proper) {n : Int} :
    Apart a b n ↔ b.dayNumber = a.dayNumber + n := by
  -- Steps from a day are steps from its number, and different days have different numbers.
  have hsteps : ∀ {c d : Date} (k : Nat), c.Proper → d.Proper →
      (next^[k] c = d ↔ d.dayNumber = c.dayNumber + k) := by
    intro c d k hc hd
    rw [← ofDayNumber_dayNumber hc, iterate_next, ofDayNumber_dayNumber hc]
    constructor
    · rintro rfl
      exact (dayNumber_ofDayNumber _).2
    · intro h
      rw [← h, ofDayNumber_dayNumber hd]
  unfold Apart
  rw [hsteps n.toNat ha hb, hsteps (-n).toNat hb ha]
  omega

/-- The number of a day is its distance from the first of January 1970. -/
theorem apart_iff_dayNumber {d : Date} (h : d.Proper) {n : Int} :
    Apart ⟨1970, 1, 1⟩ d n ↔ n = d.dayNumber := by
  have hzero : dayNumber ⟨1970, 1, 1⟩ = 0 := by decide
  rw [apart_iff (by decide) h, hzero, Int.zero_add, eq_comm]

end Date

end ObsExport
