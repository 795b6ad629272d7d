import ObsExport.Proofs.Timestamp.Resolved

/-!
# Components are read by the calendar

A date and a time that the components of a record spell is an instant: so many days after the start
of 1970, and so many seconds of its day (`DateTime.IsAt`). The timestamp of the record is this
instant, shifted by whole hours. Written as seconds it is a number, which is small enough to be
exact; written as text it is read by the calendar again, and as the two directions of the calendar
are inverse to each other, the text spells the date and time of just this instant
(`Timestamp.components_read_by_calendar`). A record whose components spell none has the sentinel or
the empty text.
-/

namespace ObsExport

namespace Timestamp

variable {t : Timestamp} {target : String} {data : FieldTable} {policy : MissingPolicy}
  {n row : Nat} {d : DateTime} {l : Int} {year month day hour : String}
  {minute second : Option String}

/-- A component of a record is observed, but is no natural number: it is negative or fractional, or
not even finite. -/
def Misspells (t : Timestamp) (data : FieldTable) (policy : MissingPolicy) (row : Nat) : Prop :=
  ∃ field ∈ t.fields, ∃ x, data.Observes policy row field x ∧
    ∀ n : Nat, Number.value? x ≠ some (n : ℚ)

/-- Components that a record has observed can be used. -/
theorem applies_of_observes
    (h : ∀ field ∈ t.fields, ∃ x, data.Observes policy row field x) : t.Applies data := by
  intro field hfield
  obtain ⟨x, grid, hfind, hcell, -⟩ := h field hfield
  exact ⟨grid, hfind, (Grid.cell?_isSome_iff.1 (Option.isSome_of_eq_some hcell)).2⟩

/-- Of a record that spells a date and time, every component is a natural number. -/
theorem Reads.spells (h : t.Reads data policy row d) :
    ∀ field ∈ t.fields, ∃ n, data.Spells policy row field n := by
  obtain ⟨hsource, hyear, hmonth, hday, hhour, hminute, hsecond⟩ := h
  intro field hfield
  rw [fields, hsource] at hfield
  simp only [List.cons_append, List.nil_append, List.mem_cons, List.mem_append,
    Option.mem_toList] at hfield
  rcases hfield with rfl | rfl | rfl | rfl | hfield | hfield
  · exact ⟨_, hyear⟩
  · exact ⟨_, hmonth⟩
  · exact ⟨_, hday⟩
  · exact ⟨_, hhour⟩
  · rw [Option.mem_def.1 hfield] at hminute
    exact ⟨_, hminute⟩
  · rw [Option.mem_def.1 hfield] at hsecond
    exact ⟨_, hsecond⟩

/-- What spells a date and time misspells no component. -/
theorem Reads.not_misspells (h : t.Reads data policy row d) : ¬ t.Misspells data policy row := by
  rintro ⟨field, hfield, x, hx, hnone⟩
  obtain ⟨n, y, hy, hvalue⟩ := h.spells field hfield
  -- A record has one observation of a field, so the two claims are about one number.
  rw [hy.unique hx] at hvalue
  exact hnone n hvalue

/-- Components that spell no date and time of the calendar give no timestamp. -/
theorem unstamped_of_not_reads (hsource : t.source = .components year month day hour minute second)
    (h : ∀ d, t.Reads data policy row d → ¬ d.Valid) (s : Int) : ¬ t.Stamps data policy row s := by
  rintro ⟨l, htells, -⟩
  cases htells with
  | components hreads hvalid => exact h _ hreads hvalid
  | epoch hepoch =>
    rw [hsource] at hepoch
    contradiction

/-- The year that components spell is not negative. -/
theorem Reads.year_nonneg (h : t.Reads data policy row d) : 0 ≤ d.date.year := by
  cases h
  exact Int.natCast_nonneg _

/-- The seconds of a year of four digits. -/
theorem seconds_bounds (hvalid : d.Valid) (hyear : 0 ≤ d.date.year ∧ d.date.year ≤ 9999) :
    -62167219200 ≤ d.seconds ∧ d.seconds < 253402300800 := by
  obtain ⟨hlower, hupper⟩ := Date.dayNumber_bounds (Date.valid_iff.1 hvalid.1).2
  have hclock := DateTime.clock_lt hvalid
  rw [DateTime.seconds_eq]
  unfold Date.daysBeforeYear Date.epochDay at hlower hupper
  omega

/-- Shifted by a day at most, such a date stays in the range of words and in that of the calendar. -/
theorem Reads.stamps (hreads : t.Reads data policy row d) (hvalid : d.Valid)
    (hyear : d.date.year ≤ 9999) (hhours : t.hoursFromUtc.natAbs ≤ 24) :
    ∃ (s : Int) (u : DateTime), s = d.seconds - 3600 * t.hoursFromUtc ∧
      t.Stamps data policy row s ∧ s.natAbs < 2 ^ 53 ∧ u.Valid ∧ u.IsAt s := by
  have hbounds := seconds_bounds hvalid ⟨hreads.year_nonneg, hyear⟩
  -- Twenty-four hours more or less are nothing to ranges that are wider by far.
  obtain ⟨s, hs⟩ : ∃ s, s = d.seconds - 3600 * t.hoursFromUtc := ⟨_, rfl⟩
  have hword : InWord s := by
    unfold InWord leastWord greatestWord
    omega
  obtain ⟨u, hu, hus⟩ := @DateTime.exists_reading s (by omega)
  exact ⟨s, u, hs, ⟨_, .components hreads hvalid, hs, hword⟩, by omega, hu,
    (DateTime.isAt_iff hu).2 hus⟩

/-- The text of an instant is that of its reading. -/
theorem isoText_of_isAt {u : DateTime} {s : Int} (hvalid : u.Valid) (hs : u.IsAt s) :
    isoText (some s) = u.text := by
  rw [isoText, Option.bind_some,
    DateTime.ofSeconds?_eq_some_iff.2 ⟨hvalid, (DateTime.isAt_iff hvalid).1 hs⟩]
  rfl

/-- **Components are read by the calendar.** Timestamps of components that can be used, for which it
is enough that one record has them observed (`applies_of_observes`), resolve with any shift of a day
at most. If the components of a record spell a date and time of the calendar whose year has four
digits, then the record has the number of seconds that lie between the start of 1970 and that
instant, shifted to UTC, and its text spells the date and time of this very number, as long as the
year still has four digits; without a shift that is the date and time of the components. If a
component is no natural number, or if the components spell nothing that the calendar has, then the
record has the sentinel or the empty text. -/
theorem components_read_by_calendar (hrows : data.checkRows = .ok n)
    (hsource : t.source = .components year month day hour minute second)
    (happlies : t.Applies data) (hhours : t.hoursFromUtc.natAbs ≤ 24) :
    ∃ artifact, (t.resolve target policy data).outcome = .ok artifact ∧ ∀ row < n,
      (∀ d, t.Reads data policy row d → d.Valid → d.date.year ≤ 9999 →
        ∃ l s u, d.IsAt l ∧ s = l - 3600 * t.hoursFromUtc ∧ u.Valid ∧ u.IsAt s ∧
          (t.hoursFromUtc = 0 → u = d) ∧
          (t.format = .epochSeconds →
            ∃ x, artifact.numberAt row = some x ∧ Number.value? x = some (s : ℚ)) ∧
          (t.format = .iso8601 → 0 ≤ u.date.year → u.date.year ≤ 9999 →
            ∃ text, artifact.textAt row = some text ∧ text.toList = u.spelled)) ∧
      (t.Misspells data policy row ∨ (∀ d, t.Reads data policy row d → ¬ d.Valid) →
        (t.format = .epochSeconds → artifact.numberAt row = some policy.sentinel) ∧
        (t.format = .iso8601 → artifact.textAt row = some "")) := by
  have hword : InWord (t.hoursFromUtc * 3600) := by
    unfold InWord leastWord greatestWord
    omega
  -- That it resolves depends on the fields and on the shift alone, not on any record.
  refine ⟨_, (resolve_eq_ok_iff hrows).2 ⟨happlies, hword, rfl⟩, fun row hrow => ⟨?_, ?_⟩⟩
  · intro d hreads hvalid hyear
    obtain ⟨s, u, hs, hstamps, hsmall, hu, hat⟩ := hreads.stamps hvalid hyear hhours
    -- The shifted instant is the one that the record gets in either format.
    have hutc := utcAt_eq_some_iff.2 hstamps
    refine ⟨_, s, u, (DateTime.isAt_iff hvalid).2 rfl, hs, hu, hat, ?_, ?_, ?_⟩
    · intro hzero
      -- Unshifted, both date-times are at the same second, and a second has one reading.
      refine DateTime.eq_of_seconds_eq hu hvalid ?_
      rw [(DateTime.isAt_iff hu).1 hat, hs, hzero]
      omega
    · intro hformat
      refine ⟨_, numberAt_write hformat _ hrow, ?_⟩
      -- Below 2^53 the conversion to a double is exact.
      rw [hutc]
      exact Number.value?_ofInt hsmall
    · intro hformat hlower hupper
      refine ⟨_, textAt_write hformat _ hrow, ?_⟩
      rw [hutc, isoText_of_isAt hu hat]
      exact DateTime.toList_text hu ⟨hlower, hupper⟩
  · intro hnone
    -- A misspelled component rules out every reading, so both cases are the second one.
    have hunread : ∀ d, t.Reads data policy row d → ¬ d.Valid := by
      rcases hnone with hmisspells | hunread
      · exact fun d hreads => absurd hmisspells hreads.not_misspells
      · exact hunread
    have hutc := utcAt_eq_none_iff.2 (unstamped_of_not_reads hsource hunread)
    constructor
    · intro hformat
      rw [numberAt_write hformat _ hrow, hutc]
      rfl
    · intro hformat
      rw [textAt_write hformat _ hrow, hutc]
      rfl

/-- A timestamp in minutes, two hours ahead of UTC, written as text. -/
def ahead : Timestamp := ⟨.components "YEAR" "MON" "DAY" "HOUR" (some "MIN") none, 2, .iso8601⟩

/-- Two records: half past one on the first of January 2024, and a month that is one and a half. -/
def aheadRecords : FieldTable := Dict.ofList [
  ("YEAR", .numeric (.ofColumn [2024, 2024])), ("MON", .numeric (.ofColumn [1, 1.5])),
  ("DAY", .numeric (.ofColumn [1, 1])), ("HOUR", .numeric (.ofColumn [1, 1])),
  ("MIN", .numeric (.ofColumn [30, 30]))]

/-- Small natural numbers are spelled. -/
theorem spells_ofNat {grid : Grid} {field : String} {k : Nat}
    (hfind : data.find? field = some (.numeric grid))
    (hcell : grid.cell? row 0 = some (Float.ofInt k))
    (hpresent : policy.isPresent (Float.ofInt k) = true) (hk : k < 2 ^ 53) :
    data.Spells policy row field k :=
  ⟨_, ⟨grid, hfind, hcell, hpresent⟩, Number.value?_ofInt (i := k) hk⟩

theorem reads_ahead :
    ahead.Reads aheadRecords .standard 0 ⟨⟨2024, 1, 1⟩, 1, 30, 0⟩ := by
  refine .components rfl ?_ ?_ ?_ ?_ ?_ rfl
  · exact @spells_ofNat _ _ 0 (.ofColumn [2024, 2024]) "YEAR" 2024 rfl rfl rfl (by decide)
  · exact @spells_ofNat _ _ 0 (.ofColumn [1, 1.5]) "MON" 1 rfl rfl rfl (by decide)
  · exact @spells_ofNat _ _ 0 (.ofColumn [1, 1]) "DAY" 1 rfl rfl rfl (by decide)
  · exact @spells_ofNat _ _ 0 (.ofColumn [1, 1]) "HOUR" 1 rfl rfl rfl (by decide)
  · exact @spells_ofNat _ _ 0 (.ofColumn [30, 30]) "MIN" 30 rfl rfl rfl (by decide)

theorem misspells_ahead : ahead.Misspells aheadRecords .standard 1 := by
  refine ⟨"MON", by decide, 1.5, ⟨.ofColumn [1, 1.5], rfl, rfl, rfl⟩, fun k hk => ?_⟩
  obtain ⟨b, hb, hvalue⟩ := Number.value?_eq_some_iff.1 hk
  -- Its component would be this number.
  have hwhole : Binary.whole? ⟨false, 6755399441055744, -52⟩ = some k := by
    obtain rfl := Option.some.inj hb
    exact Binary.whole?_eq_some_iff.2 hvalue
  contradiction

/-- Two hours before half past one of New Year is the eve of the new year. -/
theorem components_read_by_calendar_eve :
    ahead.Reads aheadRecords .standard 0 ⟨⟨2024, 1, 1⟩, 1, 30, 0⟩ ∧
      ahead.Misspells aheadRecords .standard 1 ∧
      ∃ artifact, (ahead.resolve "time" .standard aheadRecords).outcome = .ok artifact ∧
        artifact.textAt 0 = some "2023-12-31T23:30:00Z" ∧ artifact.textAt 1 = some "" := by
  have hobserves : ∀ field ∈ ahead.fields, ∃ x, aheadRecords.Observes .standard 0 field x := by
    intro field hfield
    obtain ⟨k, x, hx, -⟩ := reads_ahead.spells field hfield
    exact ⟨x, hx⟩
  obtain ⟨artifact, hartifact, hrows⟩ := @components_read_by_calendar ahead "time" aheadRecords
    .standard 2 _ _ _ _ _ _ rfl rfl
    (applies_of_observes hobserves) (by decide)
  refine ⟨reads_ahead, misspells_ahead, artifact, hartifact, ?_, ?_⟩
  · obtain ⟨hread, -⟩ := hrows 0 (by decide)
    obtain ⟨l, s, u, hl, hs, hu, hat, -, -, htext⟩ := hread _ reads_ahead (by decide) (by decide)
    -- The reading of the shifted instant is the last half hour of the year before.
    have heve : u = ⟨⟨2023, 12, 31⟩, 23, 30, 0⟩ := by
      refine DateTime.eq_of_seconds_eq hu (by decide) ?_
      rw [(DateTime.isAt_iff hu).1 hat, hs, ← (DateTime.isAt_iff (by decide)).1 hl]
      decide
    subst heve
    obtain ⟨text, hrow, hspelled⟩ := htext rfl (by decide) (by decide)
    have heq : text = "2023-12-31T23:30:00Z" := String.toList_inj.1 (hspelled.trans (by decide))
    rw [hrow, heq]
  · obtain ⟨-, hnone⟩ := hrows 1 (by decide)
    exact (hnone (.inl misspells_ahead)).2 rfl

end Timestamp

end ObsExport
