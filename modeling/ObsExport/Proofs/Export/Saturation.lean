import ObsExport.Proofs.Export.Categories
import ObsExport.Proofs.Number.Exact

/-!
# Categories at the ends of the word range

A split rounds the value of a row to the nearest integer (`Split.RoundsAt`) and keeps the result as
far as a signed word reaches: what lies beyond the range becomes the end of the range that is next to
it. So two different integers are two categories, unless both lie at or beyond the same end
(`clampWord_eq_iff`). A batch that is partitioned has its rows together exactly if their categories
agree (`Split.together_iff`), which makes that exception the only one for partitions as well
(`together_iff_rounds`); and there it is one, since the batch is not refused
(`partition_merges_depths`).
-/

namespace ObsExport

/-- Two rows are in one partition. -/
def Partitions.Together (partitions : Partitions) (r q : Nat) : Prop :=
  ∃ name rows, partitions.find? name = some rows ∧ r ∈ rows ∧ q ∈ rows

/-- Integers become the same word exactly if they are equal or at or beyond the same end. -/
theorem clampWord_eq_iff {i j : Int} :
    clampWord i = clampWord j ↔
      i = j ∨ (greatestWord ≤ i ∧ greatestWord ≤ j) ∨ (i ≤ leastWord ∧ j ≤ leastWord) := by
  unfold clampWord leastWord greatestWord
  omega

namespace Split

/-- A row has an observed value that is rounded to an integer. -/
def RoundsAt (s : Split) (data : FieldTable) (policy : MissingPolicy) (row : Nat) (i : Int) :
    Prop :=
  ∃ x v, data.Observes policy row s.mnemonic x ∧ Number.value? x = some v ∧ Nearest v i

variable {s : Split} {data : FieldTable} {policy : MissingPolicy} {splitName : String}
  {partitions : Partitions} {r q : Nat} {i j : Int}

/-! ### Categories of integers -/

/-- The code of a finite number is the integer nearest to it, held within the range of words. -/
theorem codeOf_eq {x : Float} {v : ℚ} (hv : Number.value? x = some v) (hi : Nearest v i) :
    codeOf x = clampWord i := by
  obtain ⟨b, hb, rfl⟩ := Number.value?_eq_some_iff.1 hv
  rw [codeOf, hb, Binary.nearest_iff_eq_round.1 hi]

/-- The category of a record is the integer nearest to its number, held within the range of words.
-/
theorem categoryAt_of_roundsAt (h : s.RoundsAt data policy r i) :
    s.categoryAt data policy r = some (clampWord i) := by
  obtain ⟨x, v, ⟨grid, hfind, hcell, hpresent⟩, hv, hi⟩ := h
  have hobserved : policy.observed? x = some x :=
    MissingPolicy.observed?_eq_some_iff.2 ⟨hpresent, rfl⟩
  have hvalue : ((data.find? s.mnemonic).bind Values.grid?).bind (fun grid => grid.cell? r 0) =
      some x := by
    rw [hfind]
    exact hcell
  rw [categoryAt, hvalue, Option.bind_some, categoryOf, hobserved, Option.map_some, codeOf_eq hv hi]

theorem lt_of_roundsAt {grid : Grid} (hfind : data.find? s.mnemonic = some (.numeric grid))
    (h : s.RoundsAt data policy r i) : r < grid.height := by
  obtain ⟨x, -, ⟨grid', hfind', hcell, -⟩, -⟩ := h
  obtain rfl : grid = grid' := Values.numeric.inj (Option.some.inj (hfind.symm.trans hfind'))
  exact (Grid.cell?_isSome_iff.1 (Option.isSome_of_eq_some hcell)).1

/-! ### Partitions of one split -/

/-- A batch is partitioned by the names of its rows, and only if no two categories share one. -/
theorem partition_eq_ok {grid : Grid} (hfind : data.find? s.mnemonic = some (.numeric grid))
    (hcols : 0 < grid.cols) (h : (s.partition splitName data policy).outcome = .ok partitions) :
    ¬ s.Clashes data policy grid.height ∧
      partitions = Partitions.group ((List.range grid.height).map (s.labelAt data policy)) := by
  rw [partition, Logged.outcome_map] at h
  obtain ⟨labels, hlabels, rfl⟩ := map_eq_ok_iff.1 h
  rw [reportedLabels, Logged.outcome_bind, Logged.outcome_monadLift] at hlabels
  obtain ⟨found, hfound, hlabels⟩ := bind_eq_ok_iff.1 hlabels
  -- What is reported about the labels does not change them.
  obtain rfl : found = labels := by
    rw [Logged.outcome_bind, Logged.outcome_report, ok_bind, Logged.outcome_pure] at hlabels
    exact Except.ok.inj hlabels
  obtain ⟨-, name, hname⟩ | ⟨hclear, hlabels⟩ := labels_cases hfind hcols
  · rw [hname] at hfound
    contradiction
  · rw [hlabels] at hfound
    exact ⟨hclear, by rw [← Except.ok.inj hfound]⟩

/-- Rows are together exactly if their categories agree. -/
theorem together_iff {grid : Grid} (hfind : data.find? s.mnemonic = some (.numeric grid))
    (hcols : 0 < grid.cols) (h : (s.partition splitName data policy).outcome = .ok partitions)
    (hr : r < grid.height) (hq : q < grid.height) :
    partitions.Together r q ↔ s.categoryAt data policy r = s.categoryAt data policy q := by
  obtain ⟨hclear, rfl⟩ := partition_eq_ok hfind hcols h
  constructor
  · rintro ⟨name, rows, hrows, hrin, hqin⟩
    obtain ⟨-, rfl⟩ := Partitions.find?_group_eq_some.1 hrows
    -- Rows of one partition have one name, and no two categories share a name.
    by_contra hne
    refine hclear ⟨r, q, hr, hq, hne, ?_⟩
    rw [(Partitions.mem_positions_rows.1 hrin).2, (Partitions.mem_positions_rows.1 hqin).2]
  · intro heq
    -- Equal categories have equal names.
    have hname : s.labelAt data policy r = s.labelAt data policy q := congrArg s.labelOf heq
    refine ⟨s.labelAt data policy q, _, Partitions.find?_group_eq_some.2 ⟨?_, rfl⟩,
      Partitions.mem_positions_rows.2 ⟨hr, hname⟩, Partitions.mem_positions_rows.2 ⟨hq, rfl⟩⟩
    exact List.mem_map.2 ⟨q, List.mem_range.2 hq, rfl⟩

/-- Every row of the field is in one partition and in no other. -/
theorem existsUnique_partition {grid : Grid}
    (hfind : data.find? s.mnemonic = some (.numeric grid)) (hcols : 0 < grid.cols)
    (h : (s.partition splitName data policy).outcome = .ok partitions) (hr : r < grid.height) :
    ∃! name, ∃ rows, partitions.find? name = some rows ∧ r ∈ rows := by
  obtain ⟨-, rfl⟩ := partition_eq_ok hfind hcols h
  refine ⟨s.labelAt data policy r, ⟨_, Partitions.find?_group_eq_some.2 ⟨?_, rfl⟩,
    Partitions.mem_positions_rows.2 ⟨hr, rfl⟩⟩, ?_⟩
  · exact List.mem_map.2 ⟨r, List.mem_range.2 hr, rfl⟩
  · -- A row is listed under its own name only.
    rintro name ⟨rows, hrows, hin⟩
    obtain ⟨-, rfl⟩ := Partitions.find?_group_eq_some.1 hrows
    exact (Partitions.mem_positions_rows.1 hin).2.symm

/-- **Different integers share a partition only beyond the word range.** Two rows whose observed
values are rounded to integers are each in one partition, and it is the same one exactly if the
integers are equal, or both at or beyond the same end of the range of words. -/
theorem together_iff_rounds (happlies : s.Applies data)
    (h : (s.partition splitName data policy).outcome = .ok partitions)
    (hr : s.RoundsAt data policy r i) (hq : s.RoundsAt data policy q j) :
    (∃! name, ∃ rows, partitions.find? name = some rows ∧ r ∈ rows) ∧
      (∃! name, ∃ rows, partitions.find? name = some rows ∧ q ∈ rows) ∧
      (partitions.Together r q ↔
        i = j ∨ (greatestWord ≤ i ∧ greatestWord ≤ j) ∨ (i ≤ leastWord ∧ j ≤ leastWord)) := by
  obtain ⟨grid, hfind, hcols⟩ := happlies
  have hrlt := lt_of_roundsAt hfind hr
  have hqlt := lt_of_roundsAt hfind hq
  refine ⟨existsUnique_partition hfind hcols h hrlt, existsUnique_partition hfind hcols h hqlt, ?_⟩
  rw [together_iff hfind hcols h hrlt hqlt, categoryAt_of_roundsAt hr, categoryAt_of_roundsAt hq,
    Option.some.injEq, clampWord_eq_iff]

/-- Without names there are no two categories that share one. -/
theorem distinct_empty : ∀ p ∈ (Dict.empty : Dict Int String).entries,
    ∀ q ∈ (Dict.empty : Dict Int String).entries, p.2 = q.2 → p.1 = q.1 :=
  fun _ hp => nomatch hp

/-- A split by depth that names no category. -/
def byDepth : Split := ⟨"depth", Dict.empty, distinct_empty⟩

/-- Four depths, two of them far below the range of words. -/
def depthRecords : FieldTable := Dict.ofList [("depth", .numeric (.ofColumn [-1e19, 2.5, -2e19, 3]))]

/-- The partitions of `depthRecords`. -/
def depthPartitions : Partitions :=
  Partitions.group ["-9223372036854775808", "3", "-9223372036854775808", "3"]

theorem roundsAt_depth {row : Nat} {x : Float} {b : Binary}
    (hcell : (Grid.ofColumn [-1e19, 2.5, -2e19, 3]).cell? row 0 = some x)
    (hpresent : MissingPolicy.standard.isPresent x = true) (hb : Binary.ofFloat? x = some b)
    (hi : i = b.round) : byDepth.RoundsAt depthRecords .standard row i :=
  ⟨x, b.value, ⟨.ofColumn [-1e19, 2.5, -2e19, 3], rfl, hcell, hpresent⟩,
    Number.value?_eq_some_iff.2 ⟨b, hb, rfl⟩, Binary.nearest_iff_eq_round.2 hi⟩

/-- The first of `depthRecords` is a one with nineteen zeros, below zero. -/
theorem roundsAt_depth_first :
    byDepth.RoundsAt depthRecords .standard 0 (-10000000000000000000) :=
  @roundsAt_depth _ 0 (-1e19) ⟨true, 4882812500000000, 11⟩ rfl rfl rfl rfl

/-- Of `depthRecords` two and a half and three come together, and neither with the first depth. -/
theorem together_iff_rounds_depths :
    (byDepth.partition "depth" depthRecords .standard).outcome = .ok depthPartitions ∧
      byDepth.RoundsAt depthRecords .standard 0 (-10000000000000000000) ∧
      byDepth.RoundsAt depthRecords .standard 1 3 ∧ byDepth.RoundsAt depthRecords .standard 3 3 ∧
      depthPartitions.Together 1 3 ∧ ¬ depthPartitions.Together 0 1 := by
  have happlies : byDepth.Applies depthRecords :=
    ⟨.ofColumn [-1e19, 2.5, -2e19, 3], rfl, Nat.one_pos⟩
  have hparts : (byDepth.partition "depth" depthRecords .standard).outcome = .ok depthPartitions :=
    rfl
  have hfirst := roundsAt_depth_first
  have hhalf : byDepth.RoundsAt depthRecords .standard 1 3 :=
    @roundsAt_depth _ 1 2.5 ⟨false, 5629499534213120, -51⟩ rfl rfl rfl rfl
  have hthree : byDepth.RoundsAt depthRecords .standard 3 3 :=
    @roundsAt_depth _ 3 3 ⟨false, 6755399441055744, -51⟩ rfl rfl rfl rfl
  obtain ⟨-, -, htogether⟩ := together_iff_rounds happlies hparts hhalf hthree
  obtain ⟨-, -, hapart⟩ := together_iff_rounds happlies hparts hfirst hhalf
  refine ⟨hparts, hfirst, hhalf, hthree, htogether.2 (.inl rfl), fun h => ?_⟩
  -- The first integer lies beyond the end of the range that three is far from.
  have := hapart.1 h
  unfold greatestWord leastWord at this
  omega

/-- Two different integers below the range of words are put into one partition. -/
theorem partition_merges_depths :
    (byDepth.partition "depth" depthRecords .standard).outcome = .ok depthPartitions ∧
      byDepth.RoundsAt depthRecords .standard 0 (-10000000000000000000) ∧
      byDepth.RoundsAt depthRecords .standard 2 (-20000000000000000000) ∧
      depthPartitions.Together 0 2 := by
  refine ⟨rfl, roundsAt_depth_first, ?_, ?_⟩
  · exact @roundsAt_depth _ 2 (-2e19) ⟨true, 4882812500000000, 12⟩ rfl rfl rfl rfl
  · exact ⟨"-9223372036854775808", [0, 2], rfl, by decide, by decide⟩

end Split

end ObsExport
