import ObsExport.Export
import ObsExport.Proofs.Export.Categories

/-!
# Partitions are the classes of equal categories

With splits a row belongs to the partition that is named after the names it has under each of them
(`Export.partitionName`). Names are texts that are joined by a text, so different categories can
meet under one name in two places: within a split, and when the names are joined
(`Export.Ambiguous`).

`partitions_are_categories`: a batch in which that happens is refused as ambiguous, and no other
batch is. Otherwise the partitions are exactly the classes of rows with equal categories under
every split (`Export.Partitioned`). Without splits there is one partition; with or without them the
rows of a partition are those with its name (`rows_of_partitions`), and all partitions together list
every row once (`cover_of_partitions`).
-/

namespace ObsExport

namespace Export

/-- The names of a row under the splits, in the order of the splits' names. -/
def labelsAt (e : Export) (data : FieldTable) (policy : MissingPolicy) (row : Nat) : List String :=
  e.splits.entries.map fun s => s.2.labelAt data policy row

/-- The name of the partition of a row. -/
def partitionName (e : Export) (data : FieldTable) (policy : MissingPolicy) (row : Nat) : String :=
  if e.splits.entries.isEmpty then wholeName
  else joined separator (e.labelsAt data policy row)

/-- The field of every split is numeric and has a column. -/
def Splittable (e : Export) (data : FieldTable) : Prop :=
  ∀ s ∈ e.splits.entries, s.2.Applies data

/-- Two of the first `n` rows have different names under the splits that join to one name. -/
def JoinClashes (e : Export) (data : FieldTable) (policy : MissingPolicy) (n : Nat) : Prop :=
  ∃ r q, r < n ∧ q < n ∧ e.labelsAt data policy r ≠ e.labelsAt data policy q ∧
    joined separator (e.labelsAt data policy r) = joined separator (e.labelsAt data policy q)

/-- Some name of the first `n` rows stands for two things, under a split or when joined. -/
def Ambiguous (e : Export) (data : FieldTable) (policy : MissingPolicy) (n : Nat) : Prop :=
  (∃ s ∈ e.splits.entries, s.2.Clashes data policy n) ∨ e.JoinClashes data policy n

/-- Partitions of the first `n` rows by their categories under every split. -/
structure Partitioned (e : Export) (data : FieldTable) (policy : MissingPolicy) (n : Nat)
    (partitions : Partitions) : Prop where
  nonempty : ∀ name rows, partitions.find? name = some rows → rows ≠ []
  ascending : ∀ name rows, partitions.find? name = some rows → rows.Pairwise (· < ·)
  rows : ∀ name rows, partitions.find? name = some rows → ∀ row ∈ rows, row < n
  /-- Every row is in one partition and in no other. -/
  once : ∀ row, row < n → ∃! name, ∃ rows, partitions.find? name = some rows ∧ row ∈ rows
  /-- The partitions list the rows, each as often as it is there. -/
  cover : partitions.values.flatten.Perm (List.range n)
  /-- Rows are together exactly if no split tells them apart. -/
  together : ∀ r q, r < n → q < n →
    ((∃ name rows, partitions.find? name = some rows ∧ r ∈ rows ∧ q ∈ rows) ↔
      ∀ s ∈ e.splits.entries, s.2.categoryAt data policy r = s.2.categoryAt data policy q)

variable {e : Export} {data : FieldTable} {policy : MissingPolicy} {n : Nat}

/-! ### Names of rows -/

/-- The rows of a batch have names unless two categories meet under one name of a split. -/
theorem rowNames_outcome (hrows : data.checkRows = .ok n) (happlies : e.Splittable data) :
    ((∃ s ∈ e.splits.entries, s.2.Clashes data policy n) ∧
      ∃ split name, (e.rowNames data policy).outcome = .error (.ambiguousSplit split name)) ∨
    ((∀ s ∈ e.splits.entries, ¬ s.2.Clashes data policy n) ∧
      (e.rowNames data policy).outcome =
        .ok ((List.range n).map (e.labelsAt data policy))) := by
  simp only [rowNames, Logged.outcome_bind, Logged.outcome_mapM, Logged.outcome_pure]
  -- The splits are tried in order, and the first that clashes ends the attempt.
  by_cases hclash : ∃ s ∈ e.splits.entries, s.2.Clashes data policy n
  · refine .inl ⟨hclash, ?_⟩
    cases hl : e.splits.entries.mapM fun s => (s.2.rowLabels s.1 data policy).outcome with
    | ok labels =>
      -- The split with the clash would have listed its labels.
      obtain ⟨s, hs, hclash⟩ := hclash
      obtain ⟨i, hi⟩ := List.mem_iff_getElem?.1 hs
      obtain ⟨_, -, hok⟩ := (mapM_eq_ok_iff.1 hl).2 i s hi
      obtain ⟨-, name, hname⟩ | ⟨hclear, -⟩ := Split.rowLabels_cases hrows (happlies s hs)
      · rw [hname] at hok
        contradiction
      · exact absurd hclash hclear
    | error err =>
      obtain ⟨_, s, _, hsplit, herr, -⟩ := mapM_eq_error_iff.1 hl
      obtain ⟨-, name, hname⟩ | ⟨-, hlabels⟩ :=
        Split.rowLabels_cases hrows (happlies s (by simp [hsplit]))
      · rw [hname] at herr
        exact ⟨s.1, name, by rw [Except.error.inj herr]; rfl⟩
      · rw [hlabels] at herr
        contradiction
  · have hclear : ∀ s ∈ e.splits.entries, ¬ s.2.Clashes data policy n :=
      fun s hs hc => hclash ⟨s, hs, hc⟩
    refine .inr ⟨hclear, ?_⟩
    rw [mapM_eq_ok_map (g := fun s => (List.range n).map (s.2.labelAt data policy)), ok_bind]
    · -- The labels of a row are those in its place in the lists of all splits.
      obtain ⟨rfl, -⟩ := FieldTable.checkRows_eq_ok_iff.1 hrows
      refine congrArg Except.ok (List.map_congr_left fun row hrow => ?_)
      rw [List.filterMap_map, labelsAt, ← List.filterMap_eq_map]
      refine List.filterMap_congr fun s _ => ?_
      simp [List.mem_range.1 hrow]
    · intro s hs
      obtain ⟨hclash, -⟩ | ⟨-, hlabels⟩ := Split.rowLabels_cases hrows (happlies s hs)
      · exact absurd hclash (hclear s hs)
      · exact hlabels

/-- A row that is selected keeps its names. -/
theorem labelsAt_select {data' : FieldTable} {indices : List Nat}
    (h : FieldTable.select data indices = .ok data') {i row : Nat} (hi : indices[i]? = some row) :
    e.labelsAt data' policy i = e.labelsAt data policy row :=
  List.map_congr_left fun s _ => congrArg s.2.labelOf (Split.categoryAt_select h hi)

/-- A row that is selected keeps its partition name. -/
theorem partitionName_select {data' : FieldTable} {indices : List Nat}
    (h : FieldTable.select data indices = .ok data') {i row : Nat} (hi : indices[i]? = some row) :
    e.partitionName data' policy i = e.partitionName data policy row := by
  rw [partitionName, partitionName, labelsAt_select h hi]

/-! ### Partitions of a batch -/

theorem partitionName_eq (hsplits : e.splits.entries ≠ []) (row : Nat) :
    e.partitionName data policy row = joined separator (e.labelsAt data policy row) := by
  rw [partitionName, if_neg]
  simpa using hsplits

/-- The field of any split makes room for a list of names per row. -/
theorem reserveRows_splits (hsplits : e.splits.entries ≠ []) (hrows : data.checkRows = .ok n)
    (happlies : e.Splittable data) :
    data.reserveRows (e.splits.values.map Split.mnemonic) .text = .ok () := by
  obtain ⟨rfl, haligned⟩ := FieldTable.checkRows_eq_ok_iff.1 hrows
  obtain ⟨s, hs⟩ := List.exists_mem_of_ne_nil _ hsplits
  obtain ⟨grid, hfind, hcols⟩ := happlies s hs
  have hname : s.2.mnemonic ∈ e.splits.values.map Split.mnemonic :=
    List.mem_map.2 ⟨s.2, List.mem_map.2 ⟨s, hs, rfl⟩, rfl⟩
  exact FieldTable.reserveRows_of_cols haligned hname hfind hcols .text

/-- A batch is refused as ambiguous or grouped by the names of its rows. -/
theorem partitions_outcome (hsplits : e.splits.entries ≠ []) (hrows : data.checkRows = .ok n)
    (happlies : e.Splittable data) :
    (e.Ambiguous data policy n ∧
      ∃ split name, (e.partitions data policy).outcome = .error (.ambiguousSplit split name)) ∨
    (¬ e.Ambiguous data policy n ∧
      (e.partitions data policy).outcome =
        .ok (Partitions.group ((List.range n).map (e.partitionName data policy)))) := by
  have hempty : e.splits.entries.isEmpty = false := by simpa using hsplits
  simp only [partitions, Logged.outcome_bind, Logged.outcome_monadLift, hempty,
    reserveRows_splits hsplits hrows happlies, ok_bind, Bool.false_eq_true, if_false]
  rcases @rowNames_outcome e data policy n hrows happlies with
    ⟨hclash, split, name, herr⟩ | ⟨hclear, hnames⟩
  · exact .inl ⟨.inl hclash, split, name, by rw [herr, error_bind]⟩
  · -- Every split has its labels; what is left to clash are the joined names.
    rw [hnames, ok_bind]
    split
    -- A clash that is found is one of two rows.
    next clash hclash =>
      refine .inl ⟨.inr ?_, _, clash.name, rfl⟩
      by_contra hjoin
      rw [firstClash?_rows_eq_none_iff.2 hjoin] at hclash
      contradiction
    next hnone =>
      have hjoin : ¬ e.JoinClashes data policy n := firstClash?_rows_eq_none_iff.1 hnone
      refine .inr ⟨fun h => h.elim (fun ⟨s, hs, hc⟩ => hclear s hs hc) hjoin, ?_⟩
      simp only [Logged.outcome_bind, Logged.outcome_report, Logged.outcome_pure, ok_bind,
        List.map_map]
      refine congrArg (fun names => Except.ok (Partitions.group names)) ?_
      exact List.map_congr_left fun row _ => (partitionName_eq hsplits row).symm

/-- The splits of a batch that is divided can be used. -/
theorem splittable_of_partitions {partitions : Partitions} (hsplits : e.splits.entries ≠ [])
    (h : (e.partitions data policy).outcome = .ok partitions) : e.Splittable data := by
  have hempty : e.splits.entries.isEmpty = false := by simpa using hsplits
  simp only [Export.partitions, Logged.outcome_bind, hempty, Bool.false_eq_true, if_false,
    rowNames, Logged.outcome_mapM] at h
  obtain ⟨-, -, h⟩ := bind_eq_ok_iff.1 h
  obtain ⟨_, h, -⟩ := bind_eq_ok_iff.1 h
  obtain ⟨names, hnames, -⟩ := bind_eq_ok_iff.1 h
  intro s hs
  obtain ⟨i, hi⟩ := List.mem_iff_getElem?.1 hs
  obtain ⟨_, -, hlabels⟩ := (mapM_eq_ok_iff.1 hnames).2 i s hi
  exact Split.applies_of_rowLabels hlabels

/-- A batch that is divided is one partition, or is grouped by the names of its rows. -/
theorem partitions_eq_ok {partitions : Partitions} (hrows : data.checkRows = .ok n)
    (h : (e.partitions data policy).outcome = .ok partitions) :
    (e.splits.entries = [] ∧ partitions.entries = [(wholeName, List.range n)]) ∨
      (e.splits.entries ≠ [] ∧
        partitions = Partitions.group ((List.range n).map (e.partitionName data policy))) := by
  by_cases hsplits : e.splits.entries = []
  · have hempty : e.splits.entries.isEmpty = true := by simp [hsplits]
    obtain ⟨rfl, -⟩ := FieldTable.checkRows_eq_ok_iff.1 hrows
    simp only [Export.partitions, Logged.outcome_bind, hempty, if_true,
      Logged.outcome_pure] at h
    obtain ⟨-, -, h⟩ := bind_eq_ok_iff.1 h
    obtain rfl := Except.ok.inj h
    exact .inl ⟨hsplits, Dict.entries_ofList (List.pairwise_singleton _ _)⟩
  · rcases @partitions_outcome e data policy n hsplits hrows (splittable_of_partitions hsplits h)
      with ⟨-, split, label, herr⟩ | ⟨-, hgroup⟩
    · rw [h] at herr
      contradiction
    · exact .inr ⟨hsplits, Except.ok.inj (h.symm.trans hgroup)⟩

/-- The rows of a partition are, in ascending order, those with its name. -/
theorem rows_of_partitions {partitions : Partitions} {name : String} {rows : List Nat}
    (hrows : data.checkRows = .ok n)
    (h : (e.partitions data policy).outcome = .ok partitions)
    (hfind : partitions.find? name = some rows) :
    rows.Pairwise (· < ·) ∧
      ∀ row, row ∈ rows ↔ row < n ∧ e.partitionName data policy row = name := by
  rcases partitions_eq_ok hrows h with ⟨hsplits, hentries⟩ | ⟨-, rfl⟩
  · have hmem := Dict.mem_entries_iff.2 hfind
    rw [hentries, List.mem_singleton] at hmem
    obtain ⟨rfl, rfl⟩ := Prod.mk.inj hmem
    refine ⟨List.pairwise_lt_range, fun row => ?_⟩
    simp [partitionName, hsplits]
  · obtain ⟨-, rfl⟩ := Partitions.find?_group_eq_some.1 hfind
    exact ⟨Partitions.pairwise_positions _ _, fun row => Partitions.mem_positions_rows⟩

/-- Partitions have rows of the batch only. -/
theorem lt_of_partitions {partitions : Partitions} {p : String × List Nat}
    (hrows : data.checkRows = .ok n) (h : (e.partitions data policy).outcome = .ok partitions)
    (hp : p ∈ partitions.entries) : ∀ row ∈ p.2, row < n := by
  obtain ⟨-, hmem⟩ := rows_of_partitions hrows h (Dict.mem_entries_iff.1 hp)
  exact fun row hrow => ((hmem row).1 hrow).1

/-- The partitions of a batch list its rows, each as often as it is there. -/
theorem cover_of_partitions {partitions : Partitions} (hrows : data.checkRows = .ok n)
    (h : (e.partitions data policy).outcome = .ok partitions) :
    partitions.values.flatten.Perm (List.range n) := by
  rcases partitions_eq_ok hrows h with ⟨-, hentries⟩ | ⟨-, rfl⟩
  · rw [Dict.values, hentries]
    simp
  · have hcover := Partitions.perm_values_group
      ((List.range n).map (e.partitionName data policy))
    rwa [List.length_map, List.length_range] at hcover

/-- Only a batch that is not split has a partition without rows. -/
theorem ne_nil_of_partitions {partitions : Partitions} {name : String} {rows : List Nat}
    (hsplits : e.splits.entries ≠ []) (hrows : data.checkRows = .ok n)
    (h : (e.partitions data policy).outcome = .ok partitions)
    (hfind : partitions.find? name = some rows) : rows ≠ [] := by
  rcases partitions_eq_ok hrows h with ⟨hnone, -⟩ | ⟨-, rfl⟩
  · contradiction
  · obtain ⟨hname, rfl⟩ := Partitions.find?_group_eq_some.1 hfind
    obtain ⟨row, hrow⟩ := List.mem_iff_getElem?.1 hname
    exact List.ne_nil_of_mem (Partitions.mem_positions.2 hrow)

/-- Every row of a batch is in the partition that has its name. -/
theorem exists_partition_of_lt {partitions : Partitions} {row : Nat} (hrows : data.checkRows = .ok n)
    (h : (e.partitions data policy).outcome = .ok partitions) (hrow : row < n) :
    ∃ rows, partitions.find? (e.partitionName data policy row) = some rows ∧ row ∈ rows := by
  -- The partitions list all rows, and only those of one partition have its name.
  have hlisted : row ∈ partitions.values.flatten :=
    (cover_of_partitions hrows h).mem_iff.2 (List.mem_range.2 hrow)
  obtain ⟨rows, hvalue, hmem⟩ := List.mem_flatten.1 hlisted
  obtain ⟨⟨name, _⟩, hentry, rfl⟩ := List.mem_map.1 hvalue
  have hfind := Dict.mem_entries_iff.1 hentry
  obtain ⟨-, hnamed⟩ := rows_of_partitions hrows h hfind
  obtain ⟨-, rfl⟩ := (hnamed row).1 hmem
  exact ⟨_, hfind, hmem⟩

/-- Where no name stands for two things, rows have one name exactly if they have one category under
every split. -/
theorem partitionName_eq_iff (hsplits : e.splits.entries ≠ [])
    (hclear : ¬ e.Ambiguous data policy n) {r q : Nat} (hr : r < n) (hq : q < n) :
    e.partitionName data policy r = e.partitionName data policy q ↔
      ∀ s ∈ e.splits.entries, s.2.categoryAt data policy r = s.2.categoryAt data policy q := by
  rw [partitionName_eq hsplits, partitionName_eq hsplits]
  constructor
  · intro heq s hs
    -- Joining loses nothing since no joined name clashes, and naming loses nothing since no split
    -- clashes.
    have hlabels : e.labelsAt data policy r = e.labelsAt data policy q := by
      by_contra hne
      exact hclear (.inr ⟨r, q, hr, hq, hne, heq⟩)
    by_contra hne
    exact hclear (.inl ⟨s, hs, r, q, hr, hq, hne, List.map_inj_left.1 hlabels s hs⟩)
  · intro hcategories
    refine congrArg (joined separator) ?_
    exact List.map_congr_left fun s hs => congrArg s.2.labelOf (hcategories s hs)

/-- Partitions by names that tell categories apart are partitions by category. -/
theorem partitioned_of_partitions {partitions : Partitions} (hsplits : e.splits.entries ≠ [])
    (hrows : data.checkRows = .ok n) (hclear : ¬ e.Ambiguous data policy n)
    (h : (e.partitions data policy).outcome = .ok partitions) :
    e.Partitioned data policy n partitions := by
  -- The rows of a partition are those with its name; every field follows from this.
  have hnamed : ∀ {name rows}, partitions.find? name = some rows → ∀ row, row ∈ rows ↔
      row < n ∧ e.partitionName data policy row = name :=
    fun hfind => (rows_of_partitions hrows h hfind).2
  constructor
  case nonempty => exact fun _ _ => ne_nil_of_partitions hsplits hrows h
  case ascending => exact fun _ _ hfind => (rows_of_partitions hrows h hfind).1
  case rows => exact fun _ _ hfind row hrow => ((hnamed hfind row).1 hrow).1
  case once =>
    intro row hrow
    refine ⟨_, exists_partition_of_lt hrows h hrow, ?_⟩
    rintro name ⟨rows, hfind, hmem⟩
    exact ((hnamed hfind row).1 hmem).2.symm
  case cover => exact cover_of_partitions hrows h
  case together =>
    intro r q hr hq
    -- Without ambiguity equal categories and equal names are the same.
    rw [← partitionName_eq_iff hsplits hclear hr hq]
    constructor
    · rintro ⟨name, rows, hfind, hrmem, hqmem⟩
      rw [((hnamed hfind r).1 hrmem).2, ((hnamed hfind q).1 hqmem).2]
    · intro heq
      obtain ⟨rows, hfind, hrmem⟩ := exists_partition_of_lt hrows h hr
      exact ⟨_, rows, hfind, hrmem, (hnamed hfind q).2 ⟨hq, heq.symm⟩⟩

/-- **Partitions are the classes of equal categories.** A batch of `n` rows with splits whose fields
can be used is refused as ambiguous exactly if some name stands for two things; any other batch is
divided into the classes of rows with equal categories under every split. -/
theorem partitions_are_categories (hsplits : e.splits.entries ≠ [])
    (hrows : data.checkRows = .ok n) (happlies : e.Splittable data) :
    (e.Ambiguous data policy n ∧
      ∃ split name, (e.partitions data policy).outcome = .error (.ambiguousSplit split name)) ∨
    (¬ e.Ambiguous data policy n ∧
      ∃ partitions, (e.partitions data policy).outcome = .ok partitions ∧
        e.Partitioned data policy n partitions) := by
  rcases partitions_outcome hsplits hrows happlies with h | ⟨hclear, hparts⟩
  · exact .inl h
  · exact .inr ⟨hclear, _, hparts, partitioned_of_partitions hsplits hrows hclear hparts⟩

/-- Two splits, of which the first names one of its codes. -/
def landByYear : Export where
  vars := ⟨[("v", .candidates ⟨["year"], [], by decide⟩)], by decide⟩
  splits := ⟨[("a", ⟨"land", ⟨[(1, "land")], by decide⟩, by decide⟩),
    ("b", ⟨"year", ⟨[], by decide⟩, by decide⟩)], by decide⟩
  filters := []
  nonempty := by decide

/-- Four records, of which the third lacks the first category. -/
def landRecords : FieldTable :=
  ⟨[("land", .numeric (.ofColumn [1, 0, 1e11, 1])), ("year", .numeric (.ofColumn [20, 20, 20, 20]))],
    by decide⟩

/-- The partitions of `landRecords`. -/
theorem partitions_are_categories_land :
    (landByYear.partitions landRecords .standard).outcome =
        .ok ⟨[("0_20", [1]), ("land_20", [0, 3]), ("missing_20", [2])], by decide⟩ ∧
      landByYear.Partitioned landRecords .standard 4
        ⟨[("0_20", [1]), ("land_20", [0, 3]), ("missing_20", [2])], by decide⟩ := by
  have houtcome : (landByYear.partitions landRecords .standard).outcome =
      .ok ⟨[("0_20", [1]), ("land_20", [0, 3]), ("missing_20", [2])], by decide⟩ := rfl
  have happlies : landByYear.Splittable landRecords := by
    intro s hs
    simp only [landByYear, List.mem_cons, List.not_mem_nil, or_false] at hs
    rcases hs with rfl | rfl
    · exact ⟨.ofColumn [1, 0, 1e11, 1], rfl, by decide⟩
    · exact ⟨.ofColumn [20, 20, 20, 20], rfl, by decide⟩
  rcases @partitions_are_categories landByYear landRecords .standard 4 (by decide) rfl happlies with
    ⟨-, split, name, herr⟩ | ⟨-, partitions, hok, hparts⟩
  · rw [houtcome] at herr
    contradiction
  · rw [houtcome, Except.ok.injEq] at hok
    exact ⟨houtcome, hok ▸ hparts⟩

end Export

end ObsExport
