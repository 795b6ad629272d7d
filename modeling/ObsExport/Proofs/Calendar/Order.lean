import Mathlib.Data.String.Basic
import ObsExport.Proofs.Calendar.Instants

/-!
# Texts in the order of time

Of two instants the earlier one has the smaller part where their readings differ first, from the
year down (`DateTime.seconds_lt_iff`). The texts of dates and times with four digits of year have
all their parts in the same places, each of a fixed width, so characters are compared part by part
too, and the texts are ordered as the instants are (`DateTime.text_lt_iff`). Texts are compared by
characters, which is the order of their bytes.
-/

namespace ObsExport

/-! ### Dates -/

namespace Date

variable {a b : Date}

/-- Two dates in the order of their parts, the year first. -/
def Before (a b : Date) : Prop :=
  a.year < b.year ∨
    a.year = b.year ∧ (a.month < b.month ∨ a.month = b.month ∧ a.day < b.day)

/-- A date is earlier or later than another one. -/
theorem before_cases (a b : Date) : a.Before b ∨ a = b ∨ b.Before a := by
  obtain ⟨year, month, day⟩ := a
  obtain ⟨year', month', day'⟩ := b
  simp only [Before, mk.injEq]
  omega

/-- The days before a month are no less than the days before an earlier one. -/
theorem monotone_total_take (lengths : List Nat) : Monotone fun i => total (lengths.take i) := by
  refine monotone_nat_of_le_succ fun i => ?_
  rw [total_take_succ]
  exact Nat.le_add_right _ _

/-- An earlier day has a smaller number. -/
theorem dayNumber_lt_of_before (ha : a.Proper) (hb : b.Proper) (h : a.Before b) :
    a.dayNumber < b.dayNumber := by
  rcases h with hyear | ⟨hyear, hrest⟩
  · -- An earlier year ends before the later one begins.
    have hstart := (dayNumber_bounds hb).1
    have hend := (dayNumber_bounds ha).2
    have hyears := daysBeforeYear_le (show a.year + 1 ≤ b.year by omega)
    omega
  · -- Within one year both dates are counted from its first day.
    obtain ⟨month, day, ha', hday⟩ := exists_mk ha
    obtain ⟨month', day', hb', -⟩ := exists_mk hb
    rw [ha', hb', ← hyear] at hrest
    rw [ha', hb', ← hyear, dayNumber_mk, dayNumber_mk]
    dsimp only at hrest
    rcases hrest with hmonth | ⟨hmonth, hday'⟩
    · -- An earlier month ends before the later one begins.
      have hmonths : total ((monthLengths a.year).take (month + 1)) ≤
          total ((monthLengths a.year).take month') :=
        monotone_total_take _ (by omega)
      rw [total_take_succ] at hmonths
      omega
    · obtain rfl : month = month' := by omega
      omega

/-- Days are numbered in the order of the calendar. -/
theorem dayNumber_lt_iff (ha : a.Proper) (hb : b.Proper) :
    a.dayNumber < b.dayNumber ↔ a.Before b := by
  refine ⟨fun h => ?_, dayNumber_lt_of_before ha hb⟩
  rcases before_cases a b with hbefore | rfl | hafter
  · exact hbefore
  · exact absurd h (Int.lt_irrefl _)
  · exact absurd (dayNumber_lt_of_before hb ha hafter) (Int.not_lt.2 (Int.le_of_lt h))

/-- A day has one number. -/
theorem eq_of_dayNumber_eq (ha : a.Proper) (hb : b.Proper) (h : a.dayNumber = b.dayNumber) :
    a = b := by
  rw [← ofDayNumber_dayNumber ha, h, ofDayNumber_dayNumber hb]

end Date

/-! ### Dates with a time of day -/

namespace DateTime

variable {t u : DateTime}

/-- Two dates and times in the order of their parts, the date first. -/
def Before (t u : DateTime) : Prop :=
  t.date.Before u.date ∨ t.date = u.date ∧ (t.hour < u.hour ∨ t.hour = u.hour ∧
    (t.minute < u.minute ∨ t.minute = u.minute ∧ t.second < u.second))

/-- The order of instants is the order of the parts of their readings. -/
theorem seconds_lt_iff (ht : t.Valid) (hu : u.Valid) : t.seconds < u.seconds ↔ t.Before u := by
  have htproper := (Date.valid_iff.1 ht.1).2
  have huproper := (Date.valid_iff.1 hu.1).2
  have htclock := clock_lt ht
  have huclock := clock_lt hu
  rw [seconds_eq, seconds_eq]
  unfold Before
  rw [← Date.dayNumber_lt_iff htproper huproper]
  rcases Int.lt_trichotomy t.date.dayNumber u.date.dayNumber with hlt | heq | hgt
  · -- A day has more seconds than any clock shows.
    simp only [hlt, true_or, iff_true]
    omega
  · -- On one day the clock decides.
    obtain ⟨-, hthour, htminute, htsecond⟩ := ht
    obtain ⟨-, huhour, huminute, husecond⟩ := hu
    simp only [Date.eq_of_dayNumber_eq htproper huproper heq, Int.lt_irrefl, false_or, true_and]
    omega
  · have hdates : t.date ≠ u.date := fun h => by simp [h] at hgt
    simp only [hdates, false_and, or_false]
    omega

end DateTime

/-! ### Digits -/

/-- Digits are ordered as characters as they are as numbers. -/
theorem digitChar_lt_iff {m n : Nat} (hm : m < 10) (hn : n < 10) :
    Nat.digitChar m < Nat.digitChar n ↔ m < n := by
  interval_cases m <;> interval_cases n <;> decide

/-- Every digit has a character of its own. -/
theorem digitChar_inj {m n : Nat} (hm : m < 10) (hn : n < 10) :
    Nat.digitChar m = Nat.digitChar n ↔ m = n := by
  interval_cases m <;> interval_cases n <;> decide

/-- Texts that begin with numbers of one width are compared by the numbers first. -/
theorem decimals_append_lt_iff {k m n : Nat} (hm : m < 10 ^ k) (hn : n < 10 ^ k)
    {rest rest' : List Char} :
    decimals k m ++ rest < decimals k n ++ rest' ↔ m < n ∨ m = n ∧ rest < rest' := by
  -- By induction on the width, with the last digit put in front of what follows.
  induction k generalizing m n rest rest' with
  | zero =>
    obtain rfl : m = 0 := by omega
    obtain rfl : n = 0 := by omega
    simp [decimals]
  | succ k ih =>
    rw [Nat.pow_succ] at hm hn
    simp only [decimals, List.append_assoc, List.singleton_append]
    rw [ih (by omega) (by omega), List.cons_lt_cons_iff, digitChar_lt_iff (by omega) (by omega),
      digitChar_inj (by omega) (by omega)]
    by_cases hrest : rest < rest'
    · simp only [hrest, and_true]
      omega
    · simp only [hrest, and_false, or_false]
      omega

namespace DateTime

variable {t u : DateTime}

/-- With years of four digits the texts are ordered as the instants are. -/
theorem text_lt_iff (ht : t.Valid) (hu : u.Valid)
    (htyear : 0 ≤ t.date.year ∧ t.date.year ≤ 9999)
    (huyear : 0 ≤ u.date.year ∧ u.date.year ≤ 9999) :
    t.text < u.text ↔ t.seconds < u.seconds := by
  rw [String.lt_iff_toList_lt, toList_text ht htyear, toList_text hu huyear, seconds_lt_iff ht hu]
  have htbounds := Date.bounds_of_proper (Date.valid_iff.1 ht.1).2
  have hubounds := Date.bounds_of_proper (Date.valid_iff.1 hu.1).2
  obtain ⟨-, hthour, htminute, htsecond⟩ := ht
  obtain ⟨-, huhour, huminute, husecond⟩ := hu
  obtain ⟨⟨year, month, day⟩, hour, minute, second⟩ := t
  obtain ⟨⟨year', month', day'⟩, hour', minute', second'⟩ := u
  dsimp only at *
  -- Fields of fixed width are compared one after another, each in front of the rest.
  simp only [spelled, List.append_assoc, List.cons_append]
  rw [decimals_append_lt_iff (by omega) (by omega), List.cons_lt_cons_self,
    decimals_append_lt_iff (by omega) (by omega), List.cons_lt_cons_self,
    decimals_append_lt_iff (by omega) (by omega), List.cons_lt_cons_self,
    decimals_append_lt_iff (by omega) (by omega), List.cons_lt_cons_self,
    decimals_append_lt_iff (by omega) (by omega), List.cons_lt_cons_self,
    decimals_append_lt_iff (by omega) (by omega)]
  simp only [Before, Date.Before, Date.mk.injEq, List.lt_irrefl, and_false, or_false]
  omega

end DateTime

end ObsExport
