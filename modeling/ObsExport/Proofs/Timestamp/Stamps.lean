import ObsExport.Proofs.Calendar.Instants
import ObsExport.Proofs.Number.Ordering
import ObsExport.Proofs.Timestamp.Records

/-!
# What timestamps say

A record tells an instant (`Timestamp.Tells`) if its components spell a date and a time of the
calendar, as natural numbers exactly, or if its observation of the seconds has a floor that fits a
word. The timestamp of the record is this instant, shifted by whole hours, as long as it fits a word
(`Timestamp.Stamps`). That is what is composed (`utcAt_eq_some_iff`): no bound on the components is
lost, for the parts of a date that is in the calendar are small (`small_of_valid`).
-/

namespace ObsExport

/-! ### Fields -/

namespace FieldTable

/-- The observed value of a record in a field is a natural number. -/
def Spells (t : FieldTable) (policy : MissingPolicy) (row : Nat) (field : String) (n : Nat) : Prop :=
  ∃ x, t.Observes policy row field x ∧ Number.value? x = some (n : ℚ)

/-- The same of a field that may be unset, which then spells zero. -/
def SpellsOrZero (t : FieldTable) (policy : MissingPolicy) (row : Nat) : Option String → Nat → Prop
  | some field, n => t.Spells policy row field n
  | none, n => n = 0

end FieldTable

namespace Timestamp

/-- The components of a record spell a date and a time, which need not be in the calendar. -/
inductive Reads (t : Timestamp) (data : FieldTable) (policy : MissingPolicy) (row : Nat) :
    DateTime → Prop
  | components {year month day hour : String} {minute second : Option String} {y m d h mi s : Nat}
    (hsource : t.source = .components year month day hour minute second)
    (hyear : data.Spells policy row year y) (hmonth : data.Spells policy row month m)
    (hday : data.Spells policy row day d) (hhour : data.Spells policy row hour h)
    (hminute : data.SpellsOrZero policy row minute mi)
    (hsecond : data.SpellsOrZero policy row second s) :
    Reads t data policy row ⟨⟨y, m, d⟩, h, mi, s⟩

/-- A record tells an instant: the one that its components read, or the floor of its seconds. -/
inductive Tells (t : Timestamp) (data : FieldTable) (policy : MissingPolicy) (row : Nat) :
    Int → Prop
  | components {d : DateTime} (hreads : t.Reads data policy row d) (hvalid : d.Valid) :
    Tells t data policy row d.seconds
  | epoch {field : String} {x : Float} {v : ℚ} (hsource : t.source = .epoch field)
    (hx : data.Observes policy row field x) (hv : Number.value? x = some v)
    (hword : InWord ⌊v⌋) : Tells t data policy row ⌊v⌋

/-- A record has a timestamp: the instant that it tells, shifted to UTC within the range of words. -/
def Stamps (t : Timestamp) (data : FieldTable) (policy : MissingPolicy) (row : Nat) (s : Int) :
    Prop :=
  ∃ l, t.Tells data policy row l ∧ s = l - 3600 * t.hoursFromUtc ∧ InWord s

variable {t : Timestamp} {data : FieldTable} {policy : MissingPolicy} {row : Nat} {s : Int}
  {field : String} {x : Float} {n : Nat}

/-! ### Components -/

/-- The value that is read of a record is its observation. -/
theorem observedAt_eq_some_iff :
    observedAt data policy row field = some x ↔ data.Observes policy row field x := by
  simp only [observedAt, Option.bind_eq_some_iff, FieldTable.observes_iff,
    MissingPolicy.observed?_eq_some_iff]
  constructor
  · rintro ⟨y, hy, hpresent, rfl⟩
    exact ⟨hy, hpresent⟩
  · rintro ⟨hx, hpresent⟩
    exact ⟨x, hx, hpresent, rfl⟩

/-- The component of a value is the natural number that it is. -/
theorem whole?_eq_some_iff :
    whole? x = some n ↔ Number.value? x = some (n : ℚ) ∧ n < 0x100000000 := by
  rw [whole?, Option.filter_eq_some_iff, decide_eq_true_iff, Number.value?_eq_some_iff,
    Option.bind_eq_some_iff]
  simp only [Binary.whole?_eq_some_iff]

/-- A record spells a component that is small enough exactly if it is the component of its value. -/
theorem spells_iff (hn : n < 0x100000000) :
    data.Spells policy row field n ↔
      ∃ x, observedAt data policy row field = some x ∧ whole? x = some n := by
  simp only [FieldTable.Spells, observedAt_eq_some_iff, whole?_eq_some_iff, hn, and_true]

theorem spellsOrZero_iff {field : Option String} (hn : n < 0x100000000) :
    data.SpellsOrZero policy row field n ↔
      ∃ x, observedOrZeroAt data policy row field = some x ∧ whole? x = some n := by
  cases field with
  | some name => exact spells_iff hn
  | none =>
    have hzero : whole? 0 = some 0 := rfl
    simp [FieldTable.SpellsOrZero, observedOrZeroAt, hzero, eq_comm]

/-- The parts of a date and time of the calendar are components. -/
theorem small_of_valid {year month day hour minute second : Nat}
    (h : DateTime.Valid ⟨⟨year, month, day⟩, hour, minute, second⟩) :
    year < 0x100000000 ∧ month < 0x100000000 ∧ day < 0x100000000 ∧ hour < 0x100000000 ∧
      minute < 0x100000000 ∧ second < 0x100000000 := by
  obtain ⟨hdate, hhour, hminute, hsecond⟩ := h
  obtain ⟨hrange, hproper⟩ := Date.valid_iff.1 hdate
  have hbounds := Date.bounds_of_proper hproper
  -- The calendar bounds the year, which bounds all else by far.
  have hyear := hrange.2
  dsimp only at hbounds hyear hhour hminute hsecond
  omega

/-- Six numbers compose to seconds exactly if they are natural numbers that are a date and a time.
-/
theorem compose?_eq_some_iff {year month day hour minute second : Float} :
    compose? year month day hour minute second = some s ↔
      ∃ y m d h mi sec : Nat, whole? year = some y ∧ whole? month = some m ∧ whole? day = some d ∧
        whole? hour = some h ∧ whole? minute = some mi ∧ whole? second = some sec ∧
        DateTime.Valid ⟨⟨y, m, d⟩, h, mi, sec⟩ ∧ DateTime.seconds ⟨⟨y, m, d⟩, h, mi, sec⟩ = s := by
  simp only [compose?, Option.bind_eq_bind, Option.bind_eq_some_iff, Option.ite_none_right_eq_some,
    Option.some.injEq]
  constructor
  · rintro ⟨y, hy, m, hm, d, hd, h, hh, mi, hmi, sec, hsec, hvalid, hs⟩
    exact ⟨y, m, d, h, mi, sec, hy, hm, hd, hh, hmi, hsec, hvalid, hs⟩
  · rintro ⟨y, m, d, h, mi, sec, hy, hm, hd, hh, hmi, hsec, hvalid, hs⟩
    exact ⟨y, hy, m, hm, d, hd, h, hh, mi, hmi, sec, hsec, hvalid, hs⟩

/-- The seconds of a value are its floor, if that is a word: within the bounds that are compared, the
cast to a word cuts nothing off. -/
theorem epochSeconds?_eq_some_iff :
    epochSeconds? policy x = some s ↔
      policy.isPresent x = true ∧ ∃ v, Number.value? x = some v ∧ InWord ⌊v⌋ ∧ ⌊v⌋ = s := by
  simp only [epochSeconds?, Option.bind_eq_bind, Option.bind_eq_some_iff,
    MissingPolicy.observed?_eq_some_iff, Option.ite_none_right_eq_some, Option.map_eq_some_iff,
    Number.between_words_iff]
  -- Both comparisons together say that the floor is a word, so clamping it changes nothing.
  constructor
  · rintro ⟨_, ⟨hpresent, rfl⟩, ⟨v, hv, hword⟩, b, hb, hs⟩
    obtain ⟨b', hb', rfl⟩ := Number.value?_eq_some_iff.1 hv
    obtain rfl := Option.some.inj (hb.symm.trans hb')
    refine ⟨hpresent, b.value, hv, hword, ?_⟩
    rw [← hs, Binary.floor_eq, clampWord_of_inWord hword]
  · rintro ⟨hpresent, v, hv, hword, rfl⟩
    obtain ⟨b, hb, rfl⟩ := Number.value?_eq_some_iff.1 hv
    refine ⟨x, ⟨hpresent, rfl⟩, ⟨b.value, hv, hword⟩, b, hb, ?_⟩
    rw [Binary.floor_eq, clampWord_of_inWord hword]

/-! ### Records -/

/-- The seconds that are read of a record are those that the record tells. -/
theorem localAt_eq_some_iff : t.localAt data policy row = some s ↔ t.Tells data policy row s := by
  unfold localAt
  constructor
  · intro h
    cases hsource : t.source with
    | components year month day hour minute second =>
      rw [hsource] at h
      simp only [Option.bind_eq_some_iff, compose?_eq_some_iff] at h
      obtain ⟨yx, hyx, mx, hmx, dx, hdx, hx, hhx, mix, hmix, secx, hsecx,
        y, m, d, hr, mi, sec, hy, hm, hd, hh, hmi, hsec, hvalid, rfl⟩ := h
      -- The components of a date and time of the calendar are small, so they are spelled.
      obtain ⟨hys, hms, hds, hhs, hmis, hsecs⟩ := small_of_valid hvalid
      refine .components (.components hsource ?_ ?_ ?_ ?_ ?_ ?_) hvalid
      · exact (spells_iff hys).2 ⟨yx, hyx, hy⟩
      · exact (spells_iff hms).2 ⟨mx, hmx, hm⟩
      · exact (spells_iff hds).2 ⟨dx, hdx, hd⟩
      · exact (spells_iff hhs).2 ⟨hx, hhx, hh⟩
      · exact (spellsOrZero_iff hmis).2 ⟨mix, hmix, hmi⟩
      · exact (spellsOrZero_iff hsecs).2 ⟨secx, hsecx, hsec⟩
    | epoch field =>
      rw [hsource] at h
      obtain ⟨x, hx, h⟩ := Option.bind_eq_some_iff.1 h
      obtain ⟨hpresent, v, hv, hword, rfl⟩ := epochSeconds?_eq_some_iff.1 h
      exact .epoch hsource (FieldTable.observes_iff.2 ⟨hx, hpresent⟩) hv hword
  · intro h
    cases h with
    | components hreads hvalid =>
      -- Small components are not cut off, so each look-up answers with what is spelled.
      obtain ⟨hsource, hyear, hmonth, hday, hhour, hminute, hsecond⟩ := hreads
      obtain ⟨hys, hms, hds, hhs, hmis, hsecs⟩ := small_of_valid hvalid
      obtain ⟨yx, hyx, hy⟩ := (spells_iff hys).1 hyear
      obtain ⟨mx, hmx, hm⟩ := (spells_iff hms).1 hmonth
      obtain ⟨dx, hdx, hd⟩ := (spells_iff hds).1 hday
      obtain ⟨hx, hhx, hh⟩ := (spells_iff hhs).1 hhour
      obtain ⟨mix, hmix, hmi⟩ := (spellsOrZero_iff hmis).1 hminute
      obtain ⟨secx, hsecx, hsec⟩ := (spellsOrZero_iff hsecs).1 hsecond
      rw [hsource]
      simp only [Option.bind_eq_some_iff, compose?_eq_some_iff]
      exact ⟨yx, hyx, mx, hmx, dx, hdx, hx, hhx, mix, hmix, secx, hsecx,
        _, _, _, _, _, _, hy, hm, hd, hh, hmi, hsec, hvalid, rfl⟩
    | epoch hsource hx hv hword =>
      obtain ⟨hfirst, hpresent⟩ := FieldTable.observes_iff.1 hx
      rw [hsource]
      exact Option.bind_eq_some_iff.2
        ⟨_, hfirst, epochSeconds?_eq_some_iff.2 ⟨hpresent, _, hv, hword, rfl⟩⟩

/-- What a record gets is what it says. -/
theorem utcAt_eq_some_iff : t.utcAt data policy row = some s ↔ t.Stamps data policy row s := by
  rw [utcAt, Option.bind_eq_some_iff, Int.mul_comm]
  constructor
  · rintro ⟨l, hl, hs⟩
    obtain ⟨hword, rfl⟩ := word?_eq_some_iff.1 hs
    exact ⟨l, localAt_eq_some_iff.1 hl, rfl, hword⟩
  · rintro ⟨l, hl, rfl, hword⟩
    exact ⟨l, localAt_eq_some_iff.2 hl, word?_eq_some_iff.2 ⟨hword, rfl⟩⟩

/-- A record has one timestamp at most. -/
theorem Stamps.unique {s' : Int} (h : t.Stamps data policy row s)
    (h' : t.Stamps data policy row s') : s = s' := by
  have heq := utcAt_eq_some_iff.2 h
  rw [utcAt_eq_some_iff.2 h'] at heq
  exact (Option.some.inj heq).symm

end Timestamp

end ObsExport
