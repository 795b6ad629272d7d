import ObsExport.Counts

/-!
# The calendar

Dates of the proleptic Gregorian calendar and the seconds between them and the start of 1970. A
year that 4 divides is a leap year, unless 100 divides it and 400 does not.

`Date.dayNumber` counts the days since 1970-01-01 and `Date.ofDayNumber` inverts it; likewise
`DateTime.seconds` and `DateTime.ofSeconds?` for the seconds. Years are bounded on both sides
(`Date.InRange`): a date beyond them is none.
-/

namespace ObsExport

/-- A day of a month of a year. -/
structure Date where
  year : Int
  month : Nat
  day : Nat
deriving DecidableEq, Repr

namespace Date

/-- Whether a year has a 29th of February. -/
def isLeap (year : Int) : Bool := year % 4 = 0 && (year % 100 != 0 || year % 400 = 0)

/-- The lengths of the months of a year. -/
def monthLengths (year : Int) : List Nat :=
  [31, if isLeap year then 29 else 28, 31, 30, 31, 30, 31, 31, 30, 31, 30, 31]

/-- The years that dates may have. -/
def InRange (year : Int) : Prop := -262143 ≤ year ∧ year ≤ 262142

instance (year : Int) : Decidable (InRange year) := inferInstanceAs (Decidable (_ ∧ _))

/-- Whether a month and a day are in the calendar of a year. -/
def Valid (d : Date) : Prop :=
  InRange d.year ∧ 1 ≤ d.month ∧ 1 ≤ d.day ∧
    ((monthLengths d.year)[d.month - 1]?.map fun length => decide (d.day ≤ length)) = some true

instance (d : Date) : Decidable d.Valid := inferInstanceAs (Decidable (_ ∧ _ ∧ _ ∧ _))

/-! ### Counting days -/

/-- The days between the first of January of year 1 and that of another year. -/
def daysBeforeYear (year : Int) : Int :=
  365 * (year - 1) + (year - 1) / 4 - (year - 1) / 100 + (year - 1) / 400

/-- The days between the first of January of year 1 and that of 1970. -/
def epochDay : Int := 719162

/-- The days since 1970-01-01. -/
def dayNumber (d : Date) : Int :=
  daysBeforeYear d.year + total ((monthLengths d.year).take (d.month - 1)) + (d.day - 1) - epochDay

/-- The year that holds a day, counted from the first of January of year 1. A year lasts a little
less than 365.2425 days on the average of 400, so the quotient is off by one at most. -/
def yearOf (n : Int) : Int :=
  let year := n * 400 / 146097 + 1
  if daysBeforeYear (year + 1) ≤ n then year + 1
  else if n < daysBeforeYear year then year - 1
  else year

/-- The month and day of a day of the year, both counted from zero, given the lengths of the
months from some month on. -/
def monthDay (month day : Nat) : List Nat → Nat × Nat
  | [] => (month, day)
  | length :: later =>
    if day < length then (month, day) else monthDay (month + 1) (day - length) later

/-- The date some days after 1970-01-01, or before. -/
def ofDayNumber (n : Int) : Date :=
  let n := n + epochDay
  let year := yearOf n
  let (month, day) := monthDay 0 (n - daysBeforeYear year).toNat (monthLengths year)
  ⟨year, month + 1, day + 1⟩

/-! ### Writing dates -/

/-- A number in decimal with at least so many digits. -/
def padded (digits : Nat) (n : Nat) : String :=
  let s := toString n
  String.ofList (List.replicate (digits - s.length) '0') ++ s

/-- A year in four digits; outside of 0 to 9999 the sign is written too. -/
def yearText (year : Int) : String :=
  if 0 ≤ year ∧ year < 10000 then padded 4 year.toNat
  else (if year < 0 then "-" else "+") ++ padded 4 year.natAbs

/-- Year, month and day with hyphens between them. -/
def text (d : Date) : String :=
  yearText d.year ++ "-" ++ padded 2 d.month ++ "-" ++ padded 2 d.day

end Date

/-! ### Seconds -/

/-- A date with a time of day. -/
structure DateTime where
  date : Date
  hour : Nat
  minute : Nat
  second : Nat
deriving DecidableEq, Repr

namespace DateTime

/-- A date of the calendar and a time of a day without leap seconds. -/
def Valid (t : DateTime) : Prop :=
  t.date.Valid ∧ t.hour < 24 ∧ t.minute < 60 ∧ t.second < 60

instance (t : DateTime) : Decidable t.Valid := inferInstanceAs (Decidable (_ ∧ _ ∧ _ ∧ _))

/-- The seconds since the start of 1970. -/
def seconds (t : DateTime) : Int :=
  86400 * t.date.dayNumber + 3600 * t.hour + 60 * t.minute + t.second

/-- The date and time some seconds after the start of 1970, or before, unless the year is out of
range. -/
def ofSeconds? (s : Int) : Option DateTime :=
  let date := Date.ofDayNumber (s / 86400)
  let rest := (s % 86400).toNat
  if Date.InRange date.year then some ⟨date, rest / 3600, rest / 60 % 60, rest % 60⟩ else none

/-- Date and time, marked as UTC. -/
def text (t : DateTime) : String :=
  t.date.text ++ "T" ++ Date.padded 2 t.hour ++ ":" ++ Date.padded 2 t.minute ++ ":"
    ++ Date.padded 2 t.second ++ "Z"

end DateTime

end ObsExport
