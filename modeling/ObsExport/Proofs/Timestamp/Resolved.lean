import ObsExport.Proofs.Batch.Filtering
import ObsExport.Proofs.Export.Artifacts
import ObsExport.Proofs.Number.Integers
import ObsExport.Proofs.Timestamp.Stamps

/-!
# Timestamps that are taken for missing

Written as seconds, a timestamp shares its column with the sentinel: a record without a timestamp
holds the sentinel, which is missing, and any other record holds its seconds. Whether these count as
observed is not asked when they are written. So an entry is missing if the record has no timestamp,
or if its timestamp reaches the missing range (`Timestamp.missing_iff_unstamped_or_beyond`); and the
latter happens, under the standard policy from a hundred billion seconds on
(`Timestamp.missing_though_stamped`). A transform that moved an observation there would be refused
(`Transform.crossing?`).
-/

namespace ObsExport

namespace Timestamp

variable {t : Timestamp} {target : String} {data : FieldTable} {policy : MissingPolicy}
  {artifact : Values} {n row : Nat} {s : Int}

/-! ### What is written -/

/-- Resolving succeeds if the fields can be used and the shift is a number of seconds, and then the
timestamps of the records are written. -/
theorem resolve_eq_ok_iff (hrows : data.checkRows = .ok n) :
    (t.resolve target policy data).outcome = .ok artifact ↔
      t.Applies data ∧ InWord (t.hoursFromUtc * 3600) ∧
        artifact = t.write policy ((List.range n).map (t.utcAt data policy)) := by
  rw [outcome_resolve, map_eq_ok_iff]
  simp only [utcSeconds_eq_ok_iff hrows]
  constructor
  · rintro ⟨seconds, ⟨happlies, hword, rfl⟩, rfl⟩
    exact ⟨happlies, hword, rfl⟩
  · rintro ⟨happlies, hword, rfl⟩
    exact ⟨_, ⟨happlies, hword, rfl⟩, rfl⟩

/-- Seconds are written as numbers, the sentinel for none. -/
theorem numberAt_write (hformat : t.format = .epochSeconds) (f : Nat → Option Int)
    (hrow : row < n) :
    (t.write policy ((List.range n).map f)).numberAt row =
      some (((f row).map Float.ofInt).getD policy.sentinel) := by
  rw [write, hformat]
  show (Grid.ofColumn _).cell? row 0 = _
  rw [Grid.cell?_ofColumn]
  simp [hrow]

/-- Text is written as the reading of the seconds, the empty text for none. -/
theorem textAt_write (hformat : t.format = .iso8601) (f : Nat → Option Int) (hrow : row < n) :
    (t.write policy ((List.range n).map f)).textAt row = some (isoText (f row)) := by
  rw [write, hformat]
  show (List.map isoText _)[row]? = _
  simp [hrow]

/-- A record has no instant if nothing stamps it. -/
theorem utcAt_eq_none_iff :
    t.utcAt data policy row = none ↔ ∀ s, ¬ t.Stamps data policy row s := by
  simp only [Option.eq_none_iff_forall_ne_some, ne_eq, utcAt_eq_some_iff]

/-! ### Missing entries -/

/-- **An entry is missing if there is no timestamp, or if the timestamp is beyond.** Written as
seconds, a record has the sentinel or its timestamp, which is exact within fifty-three bits. What it
has counts as missing exactly if the record has no timestamp or one whose seconds are in the missing
range. -/
theorem missing_iff_unstamped_or_beyond (hrows : data.checkRows = .ok n)
    (hformat : t.format = .epochSeconds) (hsentinel : Binary.isFinite policy.sentinel = true)
    (hepsilon : Binary.isFinite policy.epsilon = true) (hnonneg : 0 ≤ policy.epsilon)
    (h : (t.resolve target policy data).outcome = .ok artifact) (hrow : row < n) :
    ∃ x, artifact.numberAt row = some x ∧
      (∀ s, t.Stamps data policy row s →
        x = Float.ofInt s ∧ (s.natAbs < 2 ^ 53 → Number.value? x = some (s : ℚ))) ∧
      ((∀ s, ¬ t.Stamps data policy row s) → x = policy.sentinel) ∧
      (policy.isMissing x = true ↔
        (∀ s, ¬ t.Stamps data policy row s) ∨
          ∃ s, t.Stamps data policy row s ∧ policy.isMissing (Float.ofInt s) = true) := by
  obtain ⟨-, -, rfl⟩ := (resolve_eq_ok_iff hrows).1 h
  refine ⟨_, numberAt_write hformat _ hrow, ?_⟩
  have hmissing := MissingPolicy.isMissing_sentinel hsentinel hepsilon hnonneg
  -- A record without a timestamp has the sentinel, which counts as missing.
  cases hutc : t.utcAt data policy row with
  | none =>
    have hunstamped := utcAt_eq_none_iff.1 hutc
    refine ⟨fun s hs => absurd hs (hunstamped s), fun _ => rfl, ?_⟩
    exact ⟨fun _ => .inl hunstamped, fun _ => hmissing⟩
  | some s =>
    have hstamps := utcAt_eq_some_iff.1 hutc
    refine ⟨?_, fun hunstamped => absurd hstamps (hunstamped s), ?_⟩
    · intro s' hs'
      rw [hstamps.unique hs']
      exact ⟨rfl, Number.value?_ofInt⟩
    · constructor
      · intro hbeyond
        exact .inr ⟨s, hstamps, hbeyond⟩
      · rintro (hunstamped | ⟨s', hs', hbeyond⟩)
        · exact absurd hstamps (hunstamped s)
        · rw [hstamps.unique hs']
          exact hbeyond

/-- A timestamp in hours. -/
def hourly : Timestamp := ⟨.components "YEAR" "MON" "DAY" "HOUR" none none, 0, .epochSeconds⟩

/-- Three records: the start of 2024, a day that February 2023 does not have, and the start of
6000. -/
def hourlyRecords : FieldTable := Dict.ofList [
  ("YEAR", .numeric (.ofColumn [2024, 2023, 6000])), ("MON", .numeric (.ofColumn [1, 2, 1])),
  ("DAY", .numeric (.ofColumn [1, 30, 1])), ("HOUR", .numeric (.ofColumn [0, 0, 0]))]

/-- The timestamps of `hourlyRecords`. -/
def hourlyArtifact : Values :=
  .numeric (.ofColumn [Float.ofInt 1704067200, 1e11, Float.ofInt 127174492800])

theorem outcome_hourly :
    (hourly.resolve "time" .standard hourlyRecords).outcome = .ok hourlyArtifact := by
  rfl

/-- Of `hourlyRecords` the first is observed and the second is missing. -/
theorem missing_iff_unstamped_or_beyond_hourly :
    hourly.Stamps hourlyRecords .standard 0 1704067200 ∧
      (∀ s, ¬ hourly.Stamps hourlyRecords .standard 1 s) ∧
      (∃ x, hourlyArtifact.numberAt 0 = some x ∧ MissingPolicy.standard.isMissing x = false) ∧
      ∃ x, hourlyArtifact.numberAt 1 = some x ∧ MissingPolicy.standard.isMissing x = true := by
  have hfirst : hourly.Stamps hourlyRecords .standard 0 1704067200 := utcAt_eq_some_iff.1 rfl
  have hsecond : ∀ s, ¬ hourly.Stamps hourlyRecords .standard 1 s := utcAt_eq_none_iff.1 rfl
  have hrows : hourlyRecords.checkRows = .ok 3 := rfl
  refine ⟨hfirst, hsecond, ?_, ?_⟩
  · obtain ⟨x, hx, hstamped, -, -⟩ := missing_iff_unstamped_or_beyond hrows rfl rfl rfl (by decide)
      outcome_hourly (show 0 < 3 by decide)
    refine ⟨x, hx, ?_⟩
    rw [(hstamped _ hfirst).1]
    rfl
  · obtain ⟨x, hx, -, -, hmissing⟩ := missing_iff_unstamped_or_beyond hrows rfl rfl rfl (by decide)
      outcome_hourly (show 1 < 3 by decide)
    exact ⟨x, hx, hmissing.2 (.inl hsecond)⟩

/-- The third of `hourlyRecords` has a timestamp, and its entry is missing. -/
theorem missing_though_stamped :
    (hourly.resolve "time" .standard hourlyRecords).outcome = .ok hourlyArtifact ∧
      hourly.Stamps hourlyRecords .standard 2 127174492800 ∧
      ∃ x, hourlyArtifact.numberAt 2 = some x ∧ MissingPolicy.standard.isMissing x = true := by
  refine ⟨outcome_hourly, utcAt_eq_some_iff.1 rfl, Float.ofInt 127174492800, rfl, ?_⟩
  -- More than a hundred billion seconds lie between 1970 and 6000.
  rfl

end Timestamp

end ObsExport
