import ObsExport.Proofs.Config.Readers
import ObsExport.Proofs.Config.Rereading

/-!
# The grammar of timestamp blocks

A timestamp block has one of two forms (`TimeSource.StatedBy`): calendar fields without an epoch
field, or an epoch field without any calendar field. Beside either form it may state a shift of a
day at most and a format (`Timestamp.OptionsStatedBy`). Null under a key is no value there, and keys
that the section does not know play no part, so both are said by what the known keys hold.

The blocks that are read are those of the grammar and one kind more: of the calendar fields only
the year is looked at when there is an epoch field, so a block may mingle the forms as long as it
has no year (`TimeSource.MingledIn`). Nothing else is read, and whatever is read is read as what the
block states (`Timestamp.read_iff_stated_or_mingled`).
-/

namespace ObsExport

/-! ### What a block states -/

/-- The keys of the calendar fields. -/
def calendarKeys : List String := ["year", "month", "day", "hour", "minute", "second"]

/-- What a timestamp is composed from, in one of the two forms of the grammar. -/
inductive TimeSource.StatedBy (block : Tree) : TimeSource → Prop where
  | components {year month day hour : String} {minute second : Option String}
      (hepoch : block.get? "epoch" = none)
      (hyear : block.get? "year" = some (.string year))
      (hmonth : block.get? "month" = some (.string month))
      (hday : block.get? "day" = some (.string day))
      (hhour : block.get? "hour" = some (.string hour))
      (hminute : block.get? "minute" = minute.map .string)
      (hsecond : block.get? "second" = second.map .string) :
      StatedBy block (.components year month day hour minute second)
  | epoch {field : String} (hepoch : block.get? "epoch" = some (.string field))
      (hcalendar : ∀ key ∈ calendarKeys, block.get? key = none) : StatedBy block (.epoch field)

/-- An epoch field beside calendar fields, which have names but no year among them. -/
inductive TimeSource.MingledIn (block : Tree) : TimeSource → Prop where
  | epoch {field : String} (hepoch : block.get? "epoch" = some (.string field))
      (hyear : block.get? "year" = none)
      (hcalendar : ∃ key ∈ calendarKeys, block.get? key ≠ none)
      (htexts : ∀ key ∈ calendarKeys, ∀ v, block.get? key = some v → v.asString?.isSome = true) :
      MingledIn block (.epoch field)

namespace Timestamp

/-- The shift and the format of a timestamp, either of which may be left out. -/
structure OptionsStatedBy (block : Tree) (t : Timestamp) : Prop where
  hours : block.get? "hoursFromUtc" = none ∧ t.hoursFromUtc = 0 ∨
    block.get? "hoursFromUtc" = some (.integer t.hoursFromUtc)
  withinDay : t.hoursFromUtc.natAbs ≤ 24
  format : block.get? "format" = none ∧ t.format = .epochSeconds ∨
    block.get? "format" = some (.string t.format.name)

variable {c : Cursor} {t : Timestamp} {source : TimeSource}

/-! ### Readers -/

/-- A format is read from its name. -/
theorem formatOfConfig_eq_ok_iff (path : String) (v : Tree) (format : TimeFormat) :
    formatOfConfig ⟨path, v⟩ = .ok format ↔ v = .string format.name := by
  simp only [formatOfConfig, bind_eq_ok_iff, Cursor.asString_eq_ok_iff]
  constructor
  · rintro ⟨name, rfl, h⟩
    split at h
    next => rw [← Except.ok.inj h, TimeFormat.name]
    next => rw [← Except.ok.inj h, TimeFormat.name]
    next => contradiction
  · rintro rfl
    refine ⟨_, rfl, ?_⟩
    cases format <;> rfl

/-- A shift is read if it is a day at most, and left out it is zero. -/
theorem hoursOfConfig_eq_ok_iff {hours : Int} :
    hoursOfConfig c = .ok hours ↔
      (c.value.get? "hoursFromUtc" = none ∧ hours = 0 ∨
        c.value.get? "hoursFromUtc" = some (.integer hours)) ∧ hours.natAbs ≤ 24 := by
  -- What is written may be any integer, and the bound is checked after.
  have hread : ∀ written, c.integerOrDefault .datetime "hoursFromUtc" = .ok written ↔
      c.value.get? "hoursFromUtc" = none ∧ written = 0 ∨
        ∃ v, c.value.get? "hoursFromUtc" = some v ∧ v.asInteger? = some written := by
    intro written
    unfold Cursor.integerOrDefault Cursor.orDefault Cursor.get?
    cases c.value.get? "hoursFromUtc" with
    | none =>
      show Except.ok (0 : Int) = .ok written ↔ _
      simp [eq_comm]
    | some v => simp [Cursor.asInteger, Cursor.expect_eq_ok_iff]
  simp only [hoursOfConfig, bind_eq_ok_iff, hread]
  constructor
  · rintro ⟨written, hwritten, h⟩
    split at h
    next => contradiction
    next hle =>
      obtain rfl := Except.ok.inj h
      refine ⟨hwritten.imp_right ?_, Nat.le_of_not_lt hle⟩
      rintro ⟨v, hv, hinteger⟩
      rw [hv, (Tree.asInteger?_eq_some_iff.1 hinteger).2]
  · rintro ⟨hwritten, hle⟩
    refine ⟨hours, hwritten.imp_right fun h => ⟨_, h, asInteger?_hours hle⟩, ?_⟩
    rw [if_neg (Nat.not_lt.2 hle)]
    rfl

/-- An epoch field is read if there is no year beside it, and calendar fields if there is no epoch
field. -/
theorem sourceOfConfig_eq_ok_iff :
    sourceOfConfig c = .ok source ↔
      (∃ field, source = .epoch field ∧ c.value.get? "epoch" = some (.string field) ∧
        c.value.get? "year" = none) ∨
      ∃ year month day hour minute second,
        source = .components year month day hour minute second ∧ c.value.get? "epoch" = none ∧
        c.value.get? "year" = some (.string year) ∧ c.value.get? "month" = some (.string month) ∧
        c.value.get? "day" = some (.string day) ∧ c.value.get? "hour" = some (.string hour) ∧
        c.value.get? "minute" = minute.map .string ∧
        c.value.get? "second" = second.map .string := by
  unfold sourceOfConfig
  -- The epoch is looked at first, and the calendar only without it.
  cases hepoch : c.get? "epoch" with
  | none =>
    simp only [bind_eq_ok_iff, Cursor.string_eq_ok_iff, Cursor.string?_eq_ok_iff,
      Cursor.get?_eq_none_iff.1 hepoch, reduceCtorEq, false_and, and_false, exists_false, false_or,
      true_and]
    constructor
    · rintro ⟨year, hyear, month, hmonth, day, hday, hour, hhour, minute, hminute, second, hsecond,
        h⟩
      exact ⟨year, month, day, hour, minute, second, (Except.ok.inj h).symm, hyear, hmonth, hday,
        hhour, hminute, hsecond⟩
    · rintro ⟨year, month, day, hour, minute, second, rfl, hyear, hmonth, hday, hhour, hminute,
        hsecond⟩
      exact ⟨year, hyear, month, hmonth, day, hday, hour, hhour, minute, hminute, second, hsecond,
        rfl⟩
  | some epoch =>
    obtain ⟨v, hv, rfl⟩ := Cursor.get?_eq_some_iff.1 hepoch
    simp only [hv, reduceCtorEq, false_and, and_false, exists_false, or_false, Option.some.injEq]
    -- Beside an epoch the year is the only calendar field that is looked at.
    cases hyear : c.value.get? "year" with
    | none =>
      simp only [Cursor.has_eq, hyear, Option.isSome_none, Bool.false_eq_true, if_false,
        map_eq_ok_iff, Cursor.asString_eq_ok_iff, and_true]
      exact ⟨fun ⟨field, hfield, h⟩ => ⟨field, h.symm, hfield⟩,
        fun ⟨field, h, hfield⟩ => ⟨field, hfield, h.symm⟩⟩
    | some year => simp [Cursor.has_eq, hyear]

/-- The section accepts blocks with names under the keys of fields and of the format, and an integer
under the key of the shift. -/
theorem accepts_iff {block : Tree} :
    Section.datetime.Accepts block ↔ block.entries?.isSome = true ∧
      (∀ key ∈ calendarKeys, ∀ v, block.get? key = some v → v.asString?.isSome = true) ∧
      (∀ v, block.get? "epoch" = some v → v.asString?.isSome = true) ∧
      (∀ v, block.get? "hoursFromUtc" = some v → v.asInteger?.isSome = true) ∧
      ∀ v, block.get? "format" = some v → v.asString?.isSome = true := by
  simp [Section.Accepts, Section.datetime, calendarKeys, ValueKind.admits, and_assoc]

/-- A timestamp is read from a block that its section accepts, its source apart from its options. -/
theorem ofConfig_eq_ok_iff :
    (ofConfig c).outcome = .ok t ↔ Section.datetime.Accepts c.value ∧
      sourceOfConfig c = .ok t.source ∧ t.OptionsStatedBy c.value := by
  obtain ⟨source, hours, format⟩ := t
  simp only [ofConfig, Logged.outcome_bind, Logged.outcome_monadLift, Logged.outcome_pure,
    bind_eq_ok_iff, hoursOfConfig_eq_ok_iff, Cursor.optional_eq_ok_iff formatOfConfig_eq_ok_iff]
  constructor
  · rintro ⟨⟨⟩, hcheck, source', hsource, hours', ⟨hhours, hday⟩, format', hformat, h⟩
    obtain ⟨rfl, rfl, rfl⟩ := Timestamp.mk.inj (Except.ok.inj h)
    refine ⟨Cursor.outcome_check_eq_ok_iff.1 hcheck, hsource, hhours, hday, ?_⟩
    rcases hformat with hnone | ⟨hsome, rfl⟩
    · exact .inl ⟨hnone, rfl⟩
    · exact .inr hsome
  · rintro ⟨haccepts, hsource, hhours, hday, hformat⟩
    have hcheck := Cursor.outcome_check_eq_ok_iff.2 haccepts
    rcases hformat with ⟨hnone, hdefault⟩ | hsome
    · obtain rfl : format = .epochSeconds := hdefault
      exact ⟨(), hcheck, source, hsource, hours, ⟨hhours, hday⟩, none, .absent hnone, rfl⟩
    · exact ⟨(), hcheck, source, hsource, hours, ⟨hhours, hday⟩, some format,
        .present hsome rfl, rfl⟩

/-! ### What is read -/

/-- Where calendar fields have names, a source is read in one of the two forms, or from a block that
mingles them. -/
theorem sourceOfConfig_iff_stated_or_mingled (htexts : ∀ key ∈ calendarKeys, ∀ v,
      c.value.get? key = some v → v.asString?.isSome = true) :
    sourceOfConfig c = .ok source ↔ source.StatedBy c.value ∨ source.MingledIn c.value := by
  rw [sourceOfConfig_eq_ok_iff]
  constructor
  · rintro (⟨field, rfl, hepoch, hyear⟩ | ⟨year, month, day, hour, minute, second, rfl, hepoch,
      hyear, hmonth, hday, hhour, hminute, hsecond⟩)
    · -- Without a year there may be other calendar fields or none.
      by_cases hcalendar : ∀ key ∈ calendarKeys, c.value.get? key = none
      · exact .inl (.epoch hepoch hcalendar)
      · push Not at hcalendar
        exact .inr (.epoch hepoch hyear hcalendar htexts)
    · exact .inl (.components hepoch hyear hmonth hday hhour hminute hsecond)
  · rintro ((⟨hepoch, hyear, hmonth, hday, hhour, hminute, hsecond⟩ | ⟨hepoch, hcalendar⟩) |
      ⟨hepoch, hyear, -, -⟩)
    · exact .inr ⟨_, _, _, _, _, _, rfl, hepoch, hyear, hmonth, hday, hhour, hminute, hsecond⟩
    · exact .inl ⟨_, rfl, hepoch, hcalendar "year" (by simp [calendarKeys])⟩
    · exact .inl ⟨_, rfl, hepoch, hyear⟩

/-- What states a source has names under its calendar keys and under the key of the epoch. -/
theorem texts_of_stated {block : Tree} (h : source.StatedBy block ∨ source.MingledIn block) :
    block.entries?.isSome = true ∧
      (∀ key ∈ calendarKeys, ∀ v, block.get? key = some v → v.asString?.isSome = true) ∧
      ∀ v, block.get? "epoch" = some v → v.asString?.isSome = true := by
  rcases h with (⟨hepoch, hyear, hmonth, hday, hhour, hminute, hsecond⟩ | ⟨hepoch, hcalendar⟩) |
    ⟨hepoch, hyear, -, htexts⟩
  · refine ⟨Tree.isSome_entries?_of_get? hyear, ?_, ?_⟩
    · simp [calendarKeys, hyear, hmonth, hday, hhour, hminute, hsecond, Tree.asString?]
    · simp [hepoch]
  · refine ⟨Tree.isSome_entries?_of_get? hepoch, ?_, ?_⟩
    · intro key hkey v hv
      simp [hcalendar key hkey] at hv
    · simp [hepoch, Tree.asString?]
  · refine ⟨Tree.isSome_entries?_of_get? hepoch, htexts, ?_⟩
    simp [hepoch, Tree.asString?]

/-- What states a shift and a format has an integer and a name under their keys. -/
theorem OptionsStatedBy.kinds {block : Tree} (h : t.OptionsStatedBy block) :
    (∀ v, block.get? "hoursFromUtc" = some v → v.asInteger?.isSome = true) ∧
      ∀ v, block.get? "format" = some v → v.asString?.isSome = true := by
  constructor
  · intro v hv
    rcases h.hours with ⟨hnone, -⟩ | hsome
    · simp [hnone] at hv
    · obtain rfl := Option.some.inj (hsome.symm.trans hv)
      rw [asInteger?_hours h.withinDay, Option.isSome_some]
  · intro v hv
    rcases h.format with ⟨hnone, -⟩ | hsome
    · simp [hnone] at hv
    · obtain rfl := Option.some.inj (hsome.symm.trans hv)
      rfl

/-- **The blocks that are read are those of the grammar, and those that mingle its forms without a
year.** A block is read as a timestamp exactly if it states the shift and the format of this
timestamp, and its source in one of the two forms or mingled. -/
theorem read_iff_stated_or_mingled :
    (ofConfig c).outcome = .ok t ↔
      t.OptionsStatedBy c.value ∧ (t.source.StatedBy c.value ∨ t.source.MingledIn c.value) := by
  rw [ofConfig_eq_ok_iff]
  constructor
  · rintro ⟨haccepts, hsource, hoptions⟩
    obtain ⟨-, htexts, -⟩ := accepts_iff.1 haccepts
    exact ⟨hoptions, (sourceOfConfig_iff_stated_or_mingled htexts).1 hsource⟩
  · rintro ⟨hoptions, hstated⟩
    obtain ⟨hmap, htexts, hepoch⟩ := texts_of_stated hstated
    obtain ⟨hhours, hformat⟩ := hoptions.kinds
    exact ⟨accepts_iff.2 ⟨hmap, htexts, hepoch, hhours, hformat⟩,
      (sourceOfConfig_iff_stated_or_mingled htexts).2 hstated, hoptions⟩

/-- A block with an epoch field and a month, which is neither of the two forms. -/
def mingledBlock : Tree := .map [("epoch", .string "TIME"), ("month", .string "MON")]

/-- The month of `mingledBlock` is dropped, and it is read as if it stated the epoch field alone. -/
theorem mingled_block_read :
    (ofConfig ⟨"datetime", mingledBlock⟩).outcome = .ok ⟨.epoch "TIME", 0, .epochSeconds⟩ ∧
      ∀ source, ¬ TimeSource.StatedBy mingledBlock source := by
  refine ⟨rfl, ?_⟩
  rintro _ (⟨hepoch, -⟩ | ⟨-, hcalendar⟩)
  · contradiction
  · exact absurd (hcalendar "month" (by simp [calendarKeys])) (by decide)

end Timestamp

end ObsExport
