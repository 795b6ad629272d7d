import ObsExport.Proofs.Timestamp.Resolved

/-!
# Seconds at the ends of a word

A field of seconds holds doubles, and timestamps are words of 64 bits. What a value shows
(`Timestamp.Shows`) is said in integers without bounds: its floor, which must be a word, less the
shift, which must leave it one. The code compares doubles, casts and subtracts instead, and the
greatest word is not even a double; but comparing is exact there (`Number.between_words_iff`), so
what it composes is what the value shows, up to the ends of the range and not beyond
(`Timestamp.epochs_exact`). Only a shift that is itself no word is refused, and it is refused for
every batch.
-/

namespace ObsExport

namespace Timestamp

variable {t : Timestamp} {target : String} {data : FieldTable} {policy : MissingPolicy}
  {grid : Grid} {field : String} {row : Nat} {x : Float} {s : Int}

/-- A value shows a timestamp: it is an observed number whose floor is a word, and stays one after
the shift to UTC. -/
def Shows (t : Timestamp) (policy : MissingPolicy) (x : Float) (s : Int) : Prop :=
  policy.isPresent x = true ∧ ∃ v, Number.value? x = some v ∧ InWord ⌊v⌋ ∧
    InWord (⌊v⌋ - 3600 * t.hoursFromUtc) ∧ s = ⌊v⌋ - 3600 * t.hoursFromUtc

theorem utcAt_eq_some_iff_shows (hsource : t.source = .epoch field)
    (hfirst : data.firstAt field row = some x) :
    t.utcAt data policy row = some s ↔ t.Shows policy x s := by
  have hlocal : t.localAt data policy row = epochSeconds? policy x := by
    rw [localAt, hsource]
    dsimp only
    rw [hfirst, Option.bind_some]
  rw [utcAt, hlocal, Option.bind_eq_some_iff, Int.mul_comm]
  -- What is read and what is shifted are both words, which is all that is asked for.
  simp only [epochSeconds?_eq_some_iff, word?_eq_some_iff]
  constructor
  · rintro ⟨_, ⟨hpresent, v, hv, hword, rfl⟩, hshifted, rfl⟩
    exact ⟨hpresent, v, hv, hword, hshifted, rfl⟩
  · rintro ⟨hpresent, v, hv, hword, hshifted, rfl⟩
    exact ⟨_, ⟨hpresent, v, hv, hword, rfl⟩, hshifted, rfl⟩

/-- The seconds of an epoch field are read record by record. -/
theorem localSeconds_of_epoch (target : String) (policy : MissingPolicy)
    (hsource : t.source = .epoch field) (hfind : data.find? field = some (.numeric grid))
    (hcols : 0 < grid.cols) :
    t.localSeconds target policy data =
      .ok ((List.range grid.height).map (t.localAt data policy)) := by
  have hcomponent : component target data field = .ok grid := by
    rw [component, hfind]
    exact if_pos hcols
  rw [localSeconds, hsource]
  dsimp only
  rw [hcomponent, ok_bind]
  exact localAt_of_epoch hsource hcomponent

/-- **Seconds are exact at the ends of a word.** Let the field of the seconds be numeric with a
column. If the shift in seconds is a word, then resolving succeeds with an entry for each record,
and the timestamp of a record is `s` exactly if the first value of the record shows `s`; it is
written as this number, and as the sentinel or the empty text where nothing is shown. If the shift
is no word, then resolving fails for it, whatever the values are. -/
theorem epochs_exact (hsource : t.source = .epoch field)
    (hfind : data.find? field = some (.numeric grid)) (hcols : 0 < grid.cols) :
    (InWord (3600 * t.hoursFromUtc) →
      ∃ seconds artifact, t.utcSeconds target policy data = .ok seconds ∧
        (t.resolve target policy data).outcome = .ok artifact ∧ seconds.length = grid.height ∧
        ∀ row x, grid.cell? row 0 = some x → ∃ stamp, seconds[row]? = some stamp ∧
          (∀ s, stamp = some s ↔ t.Shows policy x s) ∧
          (t.format = .epochSeconds →
            artifact.numberAt row = some ((stamp.map Float.ofInt).getD policy.sentinel)) ∧
          (t.format = .iso8601 → artifact.textAt row = some (isoText stamp))) ∧
      (¬ InWord (3600 * t.hoursFromUtc) → (t.resolve target policy data).outcome =
        .error (.invalidConfig (target ++ "::hoursFromUtc") .dayOffset)) := by
  have hlocal := localSeconds_of_epoch target policy hsource hfind hcols
  rw [Int.mul_comm, outcome_resolve]
  constructor
  · intro hword
    -- The first value alone decides what a record shows, so the instant is read off it.
    have hutc := (utcSeconds_of_local hlocal).2 ⟨hword, rfl⟩
    refine ⟨_, _, hutc, by rw [hutc]; rfl, by simp, fun row x hcell => ?_⟩
    have hrow := (Grid.cell?_isSome_iff.1 (Option.isSome_of_eq_some hcell)).1
    have hfirst : data.firstAt field row = some x := by
      rw [FieldTable.firstAt_of_numeric hfind, hcell]
    exact ⟨t.utcAt data policy row, by simp [hrow],
      fun s => utcAt_eq_some_iff_shows hsource hfirst, fun hformat => numberAt_write hformat _ hrow,
      fun hformat => textAt_write hformat _ hrow⟩
  · -- The shift is looked at before any value is.
    intro hshift
    rw [utcSeconds, hlocal, ok_bind, offsetSeconds_eq_error hshift]
    rfl

/-- A day east of UTC. -/
def dayAhead : Timestamp := ⟨.epoch "TIME", 24, .epochSeconds⟩

/-- A policy under which every word is observed. -/
def farPolicy : MissingPolicy := ⟨1e300, 0⟩

/-- Five records: the two ends of the doubles that fit a word, the double after the range, half a
second before 1970, and the sentinel of `farPolicy`. -/
def edgeRecords : FieldTable := Dict.ofList [
  ("TIME", .numeric (.ofColumn [Float.ofInt (-2 ^ 63), Float.ofInt (2 ^ 63 - 1024),
    Float.ofInt (2 ^ 63), -0.5, 1e300]))]

/-- A day earlier the least word is out of range, and the double after the range never was in it;
half a second before 1970 falls into the second that ends there. -/
theorem epochs_exact_edges :
    ∃ seconds, dayAhead.utcSeconds "time" farPolicy edgeRecords = .ok seconds ∧
      seconds = [none, some 9223372036854688384, none, some (-86401), none] ∧
      (∀ s, ¬ dayAhead.Shows farPolicy (Float.ofInt (-2 ^ 63)) s) ∧
      dayAhead.Shows farPolicy (Float.ofInt (2 ^ 63 - 1024)) 9223372036854688384 ∧
      (∀ s, ¬ dayAhead.Shows farPolicy (Float.ofInt (2 ^ 63)) s) ∧
      dayAhead.Shows farPolicy (-0.5) (-86401) := by
  obtain ⟨hexact, -⟩ := @epochs_exact dayAhead "time" edgeRecords farPolicy _ "TIME" rfl rfl
    (by decide)
  obtain ⟨seconds, artifact, hseconds, -, -, hrows⟩ := hexact (by decide)
  have hcomposed : dayAhead.utcSeconds "time" farPolicy edgeRecords =
      .ok [none, some 9223372036854688384, none, some (-86401), none] := by decide +kernel
  obtain rfl := Except.ok.inj (hcomposed.symm.trans hseconds)
  -- What a value shows is read off the entry of its record.
  have hshows : ∀ row x stamp, (Grid.ofColumn [Float.ofInt (-2 ^ 63), Float.ofInt (2 ^ 63 - 1024),
      Float.ofInt (2 ^ 63), -0.5, 1e300]).cell? row 0 = some x →
      [none, some 9223372036854688384, none, some (-86401), none][row]? = some stamp →
      ∀ s, stamp = some s ↔ dayAhead.Shows farPolicy x s := by
    intro row x stamp hcell hstamp
    obtain ⟨stamp', hstamp', hshown, -⟩ := hrows row x hcell
    rw [Option.some.inj (hstamp.symm.trans hstamp')]
    exact hshown
  refine ⟨_, hseconds, rfl, ?_, ?_, ?_, ?_⟩
  · exact fun s hs => by simpa using (hshows 0 _ none rfl rfl s).2 hs
  · exact (hshows 1 _ (some 9223372036854688384) rfl rfl _).1 rfl
  · exact fun s hs => by simpa using (hshows 2 _ none rfl rfl s).2 hs
  · exact (hshows 3 _ (some (-86401)) rfl rfl _).1 rfl

end Timestamp

end ObsExport
