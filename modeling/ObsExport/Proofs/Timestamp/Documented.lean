import ObsExport.Proofs.Calendar.Order
import ObsExport.Proofs.Timestamp.Spelled

/-!
# The documented form of timestamps

Written as text, a timestamp is to have the form `YYYY-MM-DDThh:mm:ssZ`, of which the order of texts
is the order of time. What is written is the reading of the calendar, and the calendar has years of
more than four digits and years before zero; these are written with a sign. Nothing on the way keeps
them out: components may spell them, and so may seconds, with a shift or without. So a text has the
documented form exactly if the year of its reading has four digits, and it is then that texts are in
the order of time (`Timestamp.documented_iff_four_digits`); the first instant of the year 10000 has
neither (`Timestamp.undocumented_year`).
-/

namespace ObsExport

/-! ### The form -/

/-- The letters of the parts of a date and time. -/
def partMarks : List Char := ['Y', 'M', 'D', 'h', 'm', 's']

/-- What a mark of the form stands for: a letter of a part for any digit, all else for itself. -/
def Stands (mark c : Char) : Prop := if mark ∈ partMarks then c.isDigit = true else c = mark

instance (mark c : Char) : Decidable (Stands mark c) :=
  inferInstanceAs (Decidable (if mark ∈ partMarks then c.isDigit = true else c = mark))

/-- A text has the documented form of timestamps, character by character. -/
def Documented (text : String) : Prop :=
  List.Forall₂ Stands "YYYY-MM-DDThh:mm:ssZ".toList text.toList

instance (text : String) : Decidable (Documented text) :=
  inferInstanceAs (Decidable (List.Forall₂ _ _ _))

namespace DateTime

variable {u : DateTime}

/-- With a year of four digits, the text of a reading has the documented form. -/
theorem documented_text (hvalid : u.Valid) (hyear : 0 ≤ u.date.year ∧ u.date.year ≤ 9999) :
    Documented u.text := by
  rw [Documented, toList_text hvalid hyear]
  simp [spelled, decimals, Stands, partMarks, Nat.mod_lt]

/-- A year that is not of four digits is written with a sign, and a sign is no digit. -/
theorem not_documented_text (hyear : ¬ (0 ≤ u.date.year ∧ u.date.year ≤ 9999)) :
    ¬ Documented u.text := by
  have hfour : ¬ (0 ≤ u.date.year ∧ u.date.year < 10000) := by omega
  rw [Documented, text, Date.text, Date.yearText, if_neg hfour]
  -- The sign is the first character, where the form wants a digit.
  split <;> simp [Stands, partMarks]

/-- The text of a reading has the documented form exactly if the year has four digits. -/
theorem documented_text_iff (hvalid : u.Valid) :
    Documented u.text ↔ 0 ≤ u.date.year ∧ u.date.year ≤ 9999 :=
  ⟨fun h => by_contra fun hyear => not_documented_text hyear h, documented_text hvalid⟩

end DateTime

namespace Timestamp

variable {t : Timestamp} {target : String} {data : FieldTable} {policy : MissingPolicy}
  {artifact : Values} {n row : Nat} {stamp : Option Int}

/-- A text that is not empty is that of a reading. -/
theorem reading_of_isoText (h : isoText stamp ≠ "") :
    ∃ (s : Int) (u : DateTime), stamp = some s ∧ u.Valid ∧ u.seconds = s ∧
      isoText stamp = u.text := by
  cases hread : stamp.bind DateTime.ofSeconds? with
  | none =>
    rw [isoText, hread] at h
    exact absurd rfl h
  | some u =>
    obtain ⟨s, hstamp, hu⟩ := Option.bind_eq_some_iff.1 hread
    obtain ⟨hvalid, hs⟩ := DateTime.ofSeconds?_eq_some_iff.1 hu
    exact ⟨s, u, hstamp, hvalid, hs, by rw [isoText, hread]; rfl⟩

/-- A documented text is that of the reading of the timestamp, with a year of four digits. -/
theorem reading_of_documented {s : Int}
    (hdocumented : Documented (isoText (t.utcAt data policy row)))
    (hstamps : t.Stamps data policy row s) :
    ∃ u : DateTime, u.Valid ∧ u.seconds = s ∧ isoText (t.utcAt data policy row) = u.text ∧
      0 ≤ u.date.year ∧ u.date.year ≤ 9999 := by
  -- The empty text does not have the form, so there is a reading.
  have hne : isoText (t.utcAt data policy row) ≠ "" := by
    intro hempty
    rw [hempty] at hdocumented
    exact absurd hdocumented (by decide)
  obtain ⟨s', u, hstamp, hvalid, rfl, hu⟩ := reading_of_isoText hne
  rw [hu] at hdocumented
  exact ⟨u, hvalid, (utcAt_eq_some_iff.1 hstamp).unique hstamps, hu,
    (DateTime.documented_text_iff hvalid).1 hdocumented⟩

/-- **Texts are documented for years of four digits.** Every record has a text, and a text that is
not empty is that of the date and time at the timestamp of the record; it has the documented form
exactly if the year of this date has four digits. Of two records whose texts have the documented
form, the texts are ordered as the timestamps are. -/
theorem documented_iff_four_digits (hrows : data.checkRows = .ok n) (hformat : t.format = .iso8601)
    (h : (t.resolve target policy data).outcome = .ok artifact) :
    (∀ row < n, ∃ text, artifact.textAt row = some text ∧ (text ≠ "" →
      ∃ (s : Int) (u : DateTime), t.Stamps data policy row s ∧ u.Valid ∧ u.IsAt s ∧
        text = u.text ∧ (Documented text ↔ 0 ≤ u.date.year ∧ u.date.year ≤ 9999))) ∧
    ∀ row < n, ∀ row' < n, ∀ text text' s s', artifact.textAt row = some text →
      artifact.textAt row' = some text' → Documented text → Documented text' →
      t.Stamps data policy row s → t.Stamps data policy row' s' → (text < text' ↔ s < s') := by
  obtain ⟨-, -, rfl⟩ := (resolve_eq_ok_iff hrows).1 h
  refine ⟨fun row hrow => ⟨_, textAt_write hformat _ hrow, fun htext => ?_⟩, ?_⟩
  · obtain ⟨s, u, hstamp, hvalid, hs, hu⟩ := reading_of_isoText htext
    refine ⟨s, u, utcAt_eq_some_iff.1 hstamp, hvalid, (DateTime.isAt_iff hvalid).2 hs, hu, ?_⟩
    rw [hu]
    exact DateTime.documented_text_iff hvalid
  · intro row hrow row' hrow' text text' s s' htext htext' hdocumented hdocumented' hs hs'
    rw [textAt_write hformat _ hrow, Option.some.injEq] at htext
    rw [textAt_write hformat _ hrow', Option.some.injEq] at htext'
    -- Both readings have years of four digits, where the calendar orders texts as instants.
    subst htext htext'
    obtain ⟨u, hu, rfl, htext, hyear⟩ := reading_of_documented hdocumented hs
    obtain ⟨u', hu', rfl, htext', hyear'⟩ := reading_of_documented hdocumented' hs'
    rw [htext, htext']
    exact DateTime.text_lt_iff hu hu' hyear hyear'

/-- A timestamp in hours, written as text. -/
def newYears : Timestamp := ⟨.components "YEAR" "MON" "DAY" "HOUR" none none, 0, .iso8601⟩

/-- The first hours of the years 10000, 2024 and 1999. -/
def newYearRecords : FieldTable := Dict.ofList [
  ("YEAR", .numeric (.ofColumn [10000, 2024, 1999])), ("MON", .numeric (.ofColumn [1, 1, 1])),
  ("DAY", .numeric (.ofColumn [1, 1, 1])), ("HOUR", .numeric (.ofColumn [0, 0, 0]))]

/-- The texts of `newYearRecords`. -/
def newYearTexts : Values :=
  .text ["+10000-01-01T00:00:00Z", "2024-01-01T00:00:00Z", "1999-01-01T00:00:00Z"]

theorem outcome_newYears :
    (newYears.resolve "time" .standard newYearRecords).outcome = .ok newYearTexts := by
  decide +kernel

/-- Of the years 1999 and 2024 the texts are documented, and ordered as the instants. -/
theorem documented_iff_four_digits_newYears :
    newYearRecords.checkRows = .ok 3 ∧
      newYears.Stamps newYearRecords .standard 1 1704067200 ∧
      newYears.Stamps newYearRecords .standard 2 915148800 ∧
      (∃ u : DateTime, u.Valid ∧ u.IsAt 1704067200 ∧ u.text = "2024-01-01T00:00:00Z" ∧
        0 ≤ u.date.year ∧ u.date.year ≤ 9999) ∧
      "1999-01-01T00:00:00Z" < "2024-01-01T00:00:00Z" := by
  have hrows : newYearRecords.checkRows = .ok 3 := rfl
  have hlater : newYears.Stamps newYearRecords .standard 1 1704067200 := utcAt_eq_some_iff.1 rfl
  have hearlier : newYears.Stamps newYearRecords .standard 2 915148800 := utcAt_eq_some_iff.1 rfl
  obtain ⟨hforms, horder⟩ := documented_iff_four_digits hrows rfl outcome_newYears
  refine ⟨hrows, hlater, hearlier, ?_, ?_⟩
  · obtain ⟨text, htext, hform⟩ := hforms 1 (by decide)
    obtain rfl : "2024-01-01T00:00:00Z" = text := Option.some.inj htext
    obtain ⟨s, u, hs, hvalid, hat, hu, hfour⟩ := hform (by decide)
    rw [hs.unique hlater] at hat
    exact ⟨u, hvalid, hat, hu.symm, hfour.1 (by decide)⟩
  · exact (horder 2 (by decide) 1 (by decide) _ _ _ _ rfl rfl (by decide) (by decide)
      hearlier hlater).2 (by decide)

/-- The year 10000 is written with a sign. Its first hour does not have the documented form, and as
text it comes before that of 2024. -/
theorem undocumented_year :
    newYearRecords.checkRows = .ok 3 ∧
      (newYears.resolve "time" .standard newYearRecords).outcome = .ok newYearTexts ∧
      newYearTexts.textAt 0 = some "+10000-01-01T00:00:00Z" ∧
      ¬ Documented "+10000-01-01T00:00:00Z" ∧
      newYears.Stamps newYearRecords .standard 0 253402300800 ∧
      newYears.Stamps newYearRecords .standard 1 1704067200 ∧
      "+10000-01-01T00:00:00Z" < "2024-01-01T00:00:00Z" := by
  have hlast : newYears.Stamps newYearRecords .standard 0 253402300800 := utcAt_eq_some_iff.1 rfl
  have hfirst : newYears.Stamps newYearRecords .standard 1 1704067200 := utcAt_eq_some_iff.1 rfl
  exact ⟨rfl, outcome_newYears, rfl, by decide, hlast, hfirst, by decide⟩

end Timestamp

end ObsExport
