import ObsExport.Proofs.Export.Partitions
import ObsExport.Proofs.Export.Retained
import Mathlib.Data.List.Sort

/-!
# Partitions of some of the rows

Splits see the rows that filters leave, and see them under new numbers. That makes no difference to
where a row belongs: its category is read off the row alone (`Split.categoryAt_select`), so a row
keeps its names under all splits (`Export.labelsAt_select`), and names that tell the rows of a batch
apart tell fewer rows apart too (`Export.ambiguous_select`).

`partitions_restrict`: the partitions of some of the rows are the partitions of the batch, restricted
to these rows (`Export.Restricts`). This needs no look at how rows are grouped, because the partition
of a name is determined by the rows that have the name (`Export.find?_partitions_eq_some_iff`).
-/

namespace ObsExport

/-- The places in a list of rows at which rows of a partition stand, ascending. -/
def Partitions.places (rows partition : List Nat) : List Nat :=
  (rows.zipIdx.filter fun r => r.1 ∈ partition).map Prod.snd

/-- The places of a partition among selected rows are the positions that select a row of it. -/
theorem Partitions.mem_places {rows partition : List Nat} {i : Nat} :
    i ∈ places rows partition ↔ ∃ row, rows[i]? = some row ∧ row ∈ partition := by
  simp [places, List.mem_zipIdx_iff_getElem?]

theorem Partitions.pairwise_places (rows partition : List Nat) :
    (places rows partition).Pairwise (· < ·) :=
  pairwise_filter_zipIdx rows _

variable {data data' : FieldTable} {policy : MissingPolicy} {n : Nat} {rows : List Nat}

/-! ### Names of selected rows -/

/-- A split that can be used can be used on selected rows. -/
theorem Split.applies_select {s : Split} (h : FieldTable.select data rows = .ok data')
    (happlies : s.Applies data) : s.Applies data' := by
  obtain ⟨grid, hfind, hcols⟩ := happlies
  rcases FieldTable.find?_select h s.mnemonic with ⟨hnone, -⟩ | ⟨v, w, hv, hw, hfind'⟩
  · rw [hfind] at hnone
    contradiction
  · obtain rfl : v = .numeric grid := Option.some.inj (hv.symm.trans hfind)
    obtain ⟨grid', hgrid', rfl⟩ := map_eq_ok_iff.1 hw
    obtain ⟨-, hcols', -⟩ := Grid.select_eq_ok hgrid'
    exact ⟨grid', hfind', hcols' ▸ hcols⟩

/-- Two selected rows that clash are two rows of the batch that clash. -/
theorem Split.clashes_select {s : Split} (h : FieldTable.select data rows = .ok data')
    (hlt : ∀ row ∈ rows, row < n) (hclash : s.Clashes data' policy rows.length) :
    s.Clashes data policy n := by
  obtain ⟨i, j, hi, hj, hne, heq⟩ := hclash
  have hri : rows[i]? = some rows[i] := List.getElem?_eq_getElem hi
  have hrj : rows[j]? = some rows[j] := List.getElem?_eq_getElem hj
  refine ⟨rows[i], rows[j], hlt _ (List.getElem_mem hi), hlt _ (List.getElem_mem hj), ?_, ?_⟩
  · rw [← categoryAt_select h hri, ← categoryAt_select h hrj]
    exact hne
  · rw [labelAt, labelAt, ← categoryAt_select h hri, ← categoryAt_select h hrj]
    exact heq

namespace Export

variable {e : Export}

/-- Names that are ambiguous among selected rows are ambiguous in the batch. -/
theorem ambiguous_select (h : FieldTable.select data rows = .ok data')
    (hlt : ∀ row ∈ rows, row < n) (hambiguous : e.Ambiguous data' policy rows.length) :
    e.Ambiguous data policy n := by
  rcases hambiguous with ⟨s, hs, hclash⟩ | ⟨i, j, hi, hj, hne, heq⟩
  · exact .inl ⟨s, hs, Split.clashes_select h hlt hclash⟩
  · have hri : rows[i]? = some rows[i] := List.getElem?_eq_getElem hi
    have hrj : rows[j]? = some rows[j] := List.getElem?_eq_getElem hj
    rw [labelsAt_select h hri, labelsAt_select h hrj] at hne heq
    exact .inr ⟨rows[i], rows[j], hlt _ (List.getElem_mem hi), hlt _ (List.getElem_mem hj), hne, heq⟩

/-! ### Partitions by name -/

theorem partitionName_of_not_split (hsplits : e.splits.entries = []) (row : Nat) :
    e.partitionName data policy row = wholeName := by
  rw [partitionName, hsplits]
  rfl

/-- Which rows stand under a name: those that have it, in ascending order. Without splits the name
of the whole batch stands there even if there are no rows. -/
theorem find?_partitions_eq_some_iff {partitions : Partitions} {name : String}
    {indices : List Nat} (hrows : data.checkRows = .ok n)
    (h : (e.partitions data policy).outcome = .ok partitions) :
    partitions.find? name = some indices ↔
      indices.Pairwise (· < ·) ∧
        (∀ row, row ∈ indices ↔ row < n ∧ e.partitionName data policy row = name) ∧
        (indices ≠ [] ∨ e.splits.entries = [] ∧ name = wholeName) := by
  constructor
  · intro hfind
    obtain ⟨hascending, hmem⟩ := rows_of_partitions hrows h hfind
    refine ⟨hascending, hmem, ?_⟩
    by_cases hsplits : e.splits.entries = []
    · rcases partitions_eq_ok hrows h with ⟨-, hentries⟩ | ⟨hne, -⟩
      · have hentry := Dict.mem_entries_iff.2 hfind
        rw [hentries, List.mem_singleton] at hentry
        exact .inr ⟨hsplits, (Prod.mk.inj hentry).1⟩
      · contradiction
    · exact .inl (ne_nil_of_partitions hsplits hrows h hfind)
  · rintro ⟨hascending, hmem, hname⟩
    -- The name is found, and ascending lists of the same rows are one list.
    have hfound : ∃ found, partitions.find? name = some found := by
      rcases hname with hne | ⟨hsplits, rfl⟩
      · obtain ⟨row, hrow⟩ := List.exists_mem_of_ne_nil _ hne
        obtain ⟨hlt, rfl⟩ := (hmem row).1 hrow
        obtain ⟨found, hfound, -⟩ := exists_partition_of_lt hrows h hlt
        exact ⟨found, hfound⟩
      · rcases partitions_eq_ok hrows h with ⟨-, hentries⟩ | ⟨hne, -⟩
        · exact ⟨_, Dict.mem_entries_iff.1 (by rw [hentries, List.mem_singleton])⟩
        · contradiction
    obtain ⟨found, hfound⟩ := hfound
    obtain ⟨hascending', hmem'⟩ := rows_of_partitions hrows h hfound
    rw [hfound, hascending'.eq_of_mem_iff hascending fun row => (hmem' row).trans (hmem row).symm]

/-! ### Restricting a batch -/

/-- Partitions of some rows of a batch, next to the partitions of the batch. -/
structure Restricts (e : Export) (whole : Partitions) (rows : List Nat) (part : Partitions) :
    Prop where
  /-- A partition lists the places of its rows in ascending order. Without any it is absent, unless
  the batch is not split. -/
  partition : ∀ name indices, part.find? name = some indices ↔
    ∃ all, whole.find? name = some all ∧ indices = Partitions.places rows all ∧
      (indices ≠ [] ∨ e.splits.entries = [])
  /-- Every row stays under the name that it has in the batch, and under no other. -/
  stays : ∀ (i row : Nat), rows[i]? = some row → ∀ name,
    (∃ indices, part.find? name = some indices ∧ i ∈ indices) ↔
      ∃ all, whole.find? name = some all ∧ row ∈ all

/-- A batch that can be divided can be divided after it was restricted to some of its rows. -/
theorem exists_partitions_select {whole : Partitions} (hrows : data.checkRows = .ok n)
    (h : (e.partitions data policy).outcome = .ok whole) (hascending : rows.Pairwise (· < ·))
    (hlt : ∀ row ∈ rows, row < n) (hselect : FieldTable.select data rows = .ok data') :
    ∃ part, (e.partitions data' policy).outcome = .ok part := by
  have hrows' := FieldTable.checkRows_select hrows hselect hlt
  by_cases hsplits : e.splits.entries = []
  · -- There is room for all rows of the batch, so there is for some of them.
    have hempty : e.splits.entries.isEmpty = true := by simp [hsplits]
    have hcount := length_le_of_ascending hascending hlt
    obtain ⟨rfl, -⟩ := FieldTable.checkRows_eq_ok_iff.1 hrows
    obtain ⟨hcount', -⟩ := FieldTable.checkRows_eq_ok_iff.1 hrows'
    simp only [partitions, Logged.outcome_bind, Logged.outcome_monadLift, hempty, if_true,
      Logged.outcome_pure] at h ⊢
    obtain ⟨_, hreserve, -⟩ := bind_eq_ok_iff.1 h
    have hroom : Size.Room .number data'.rowCount :=
      (Size.reserve_eq_ok_iff.1 hreserve).mono (hcount' ▸ hcount)
    exact ⟨_, by rw [(Size.reserve_eq_ok_iff (u := ())).2 hroom, ok_bind]⟩
  · have happlies := splittable_of_partitions hsplits h
    have happlies' : e.Splittable data' := fun s hs => Split.applies_select hselect (happlies s hs)
    rcases @partitions_outcome e data' policy _ hsplits hrows' happlies' with
      ⟨hambiguous, -⟩ | ⟨-, hpart⟩
    · -- The batch would have been refused for the same names.
      rcases @partitions_outcome e data policy n hsplits hrows happlies with
        ⟨-, split, name, herr⟩ | ⟨hclear, -⟩
      · rw [h] at herr
        contradiction
      · exact absurd (ambiguous_select hselect hlt hambiguous) hclear
    · exact ⟨_, hpart⟩

/-- A place has a name if the row that stands there has it. -/
theorem partitionName_place_iff (hlt : ∀ row ∈ rows, row < n)
    (hselect : FieldTable.select data rows = .ok data') {name : String} {i : Nat} :
    (i < rows.length ∧ e.partitionName data' policy i = name) ↔
      ∃ row, rows[i]? = some row ∧ row < n ∧ e.partitionName data policy row = name := by
  constructor
  · rintro ⟨hi, rfl⟩
    have hrow : rows[i]? = some rows[i] := List.getElem?_eq_getElem hi
    exact ⟨rows[i], hrow, hlt _ (List.getElem_mem hi), (partitionName_select hselect hrow).symm⟩
  · rintro ⟨row, hrow, -, rfl⟩
    exact ⟨(List.getElem?_eq_some_iff.1 hrow).1, partitionName_select hselect hrow⟩

/-- A partition of some of the rows lists the places of its rows. -/
theorem find?_partitions_select_iff {whole part : Partitions} {name : String} {indices : List Nat}
    (hrows : data.checkRows = .ok n) (h : (e.partitions data policy).outcome = .ok whole)
    (hlt : ∀ row ∈ rows, row < n) (hselect : FieldTable.select data rows = .ok data')
    (h' : (e.partitions data' policy).outcome = .ok part) :
    part.find? name = some indices ↔
      ∃ all, whole.find? name = some all ∧ indices = Partitions.places rows all ∧
        (indices ≠ [] ∨ e.splits.entries = []) := by
  have hrows' := FieldTable.checkRows_select hrows hselect hlt
  rw [find?_partitions_eq_some_iff hrows' h']
  constructor
  · rintro ⟨hascending, hmem, hname⟩
    -- The rows of the batch with this name, and the places at which they stand.
    let all := (List.range n).filter fun row => e.partitionName data policy row = name
    have hall : ∀ row, row ∈ all ↔ row < n ∧ e.partitionName data policy row = name := by
      intro row
      simp [all]
    have hindices : indices = Partitions.places rows all := by
      apply hascending.eq_of_mem_iff (Partitions.pairwise_places rows all)
      intro i
      rw [hmem, partitionName_place_iff hlt hselect, Partitions.mem_places]
      exact exists_congr fun row => and_congr_right fun _ => (hall row).symm
    refine ⟨all, ?_, hindices, hname.imp_right And.left⟩
    rw [find?_partitions_eq_some_iff hrows h]
    refine ⟨List.pairwise_lt_range.filter _, hall, ?_⟩
    apply hname.imp_left
    intro hne
    obtain ⟨i, hi⟩ := List.exists_mem_of_ne_nil _ hne
    rw [hindices, Partitions.mem_places] at hi
    obtain ⟨row, -, hrow⟩ := hi
    exact List.ne_nil_of_mem hrow
  · rintro ⟨all, hfind, rfl, hname⟩
    obtain ⟨-, hall, hwhole⟩ := (find?_partitions_eq_some_iff hrows h).1 hfind
    refine ⟨Partitions.pairwise_places rows all, fun i => ?_, ?_⟩
    · rw [partitionName_place_iff hlt hselect, Partitions.mem_places]
      exact exists_congr fun row => and_congr_right fun _ => hall row
    · apply hname.imp_right
      intro hsplits
      refine ⟨hsplits, ?_⟩
      rcases hwhole with hne | ⟨-, hwhole⟩
      · obtain ⟨row, hrow⟩ := List.exists_mem_of_ne_nil _ hne
        rw [← ((hall row).1 hrow).2, partitionName_of_not_split hsplits]
      · exact hwhole

/-- The partitions of a batch, restricted. -/
theorem restricts_of_select {whole part : Partitions} (hrows : data.checkRows = .ok n)
    (h : (e.partitions data policy).outcome = .ok whole)
    (hlt : ∀ row ∈ rows, row < n) (hselect : FieldTable.select data rows = .ok data')
    (h' : (e.partitions data' policy).outcome = .ok part) : e.Restricts whole rows part := by
  -- The partitions by name are known; that a row keeps its partition follows from them.
  have hfind := fun name indices =>
    @find?_partitions_select_iff data data' policy n rows e whole part name indices hrows h hlt
      hselect h'
  refine ⟨hfind, ?_⟩
  intro i row hrow name
  constructor
  · rintro ⟨indices, hindices, hi⟩
    obtain ⟨all, hall, rfl, -⟩ := (hfind name indices).1 hindices
    obtain ⟨row', hrow', hmem⟩ := Partitions.mem_places.1 hi
    obtain rfl : row = row' := Option.some.inj (hrow.symm.trans hrow')
    exact ⟨all, hall, hmem⟩
  · rintro ⟨all, hall, hmem⟩
    have hi : i ∈ Partitions.places rows all := Partitions.mem_places.2 ⟨row, hrow, hmem⟩
    exact ⟨_, (hfind name _).2 ⟨all, hall, rfl, .inl (List.ne_nil_of_mem hi)⟩, hi⟩

/-- **Restricting a batch restricts its partitions.** Any rows of a batch that can be divided, in
ascending order, can be divided as well, and so can the rows that the filters retain. The partition
of a name is then the places of its rows, and no row comes under another name. -/
theorem partitions_restrict {whole : Partitions} (hrows : data.checkRows = .ok n)
    (h : (e.partitions data policy).outcome = .ok whole) :
    (∀ rows : List Nat, rows.Pairwise (· < ·) → (∀ row ∈ rows, row < n) →
      ∃ data' part, FieldTable.select data rows = .ok data' ∧
        (e.partitions data' policy).outcome = .ok part ∧ e.Restricts whole rows part) ∧
    ∀ kept, (e.retainedRows data policy).outcome = .ok kept → kept.Pairwise (· < ·) ∧
      ∃ data' part, FieldTable.select data kept = .ok data' ∧
        (e.partitions data' policy).outcome = .ok part ∧ e.Restricts whole kept part := by
  have hany : ∀ rows : List Nat, rows.Pairwise (· < ·) → (∀ row ∈ rows, row < n) →
      ∃ data' part, FieldTable.select data rows = .ok data' ∧
        (e.partitions data' policy).outcome = .ok part ∧ e.Restricts whole rows part := by
    intro rows hascending hlt
    obtain ⟨data', hselect⟩ := FieldTable.exists_select_of_ascending hrows hascending hlt
    obtain ⟨part, hpart⟩ := exists_partitions_select hrows h hascending hlt hselect
    exact ⟨data', part, hselect, hpart, restricts_of_select hrows h hlt hselect hpart⟩
  refine ⟨hany, ?_⟩
  intro kept hkept
  obtain ⟨hascending, -⟩ := retainedRows_eq_ok hrows hkept
  exact ⟨hascending, hany kept hascending (lt_of_retainedRows hrows hkept)⟩

/-- The export `landByYear` for records of the first category alone. -/
def landOnly : Export := { landByYear with filters := [⟨"land", some 1, some 1⟩] }

/-- Of `landRecords` two are retained, which make up one of the three partitions. -/
theorem partitions_restrict_land :
    landRecords.checkRows = .ok 4 ∧
      (landOnly.partitions landRecords .standard).outcome =
        .ok ⟨[("0_20", [1]), ("land_20", [0, 3]), ("missing_20", [2])], by decide⟩ ∧
      (landOnly.retainedRows landRecords .standard).outcome = .ok [0, 3] ∧
      ∃ data' part, FieldTable.select landRecords [0, 3] = .ok data' ∧
        (landOnly.partitions data' .standard).outcome = .ok part ∧
        part.find? "land_20" = some [0, 1] ∧ part.find? "0_20" = none := by
  have hrows : landRecords.checkRows = .ok 4 := rfl
  have hwhole : (landOnly.partitions landRecords .standard).outcome =
      .ok ⟨[("0_20", [1]), ("land_20", [0, 3]), ("missing_20", [2])], by decide⟩ := rfl
  have hkept : (landOnly.retainedRows landRecords .standard).outcome = .ok [0, 3] := rfl
  obtain ⟨-, data', part, hselect, hpart, hrestricts⟩ :=
    (partitions_restrict hrows hwhole).2 [0, 3] hkept
  refine ⟨hrows, hwhole, hkept, data', part, hselect, hpart, ?_, ?_⟩
  · exact (hrestricts.partition "land_20" [0, 1]).2 ⟨[0, 3], rfl, rfl, .inl (by decide)⟩
  · rw [Option.eq_none_iff_forall_ne_some]
    intro indices hfind
    -- The row of this partition was not retained, so no place is left for it.
    obtain ⟨all, hall, rfl, hne⟩ := (hrestricts.partition "0_20" indices).1 hfind
    obtain rfl : [1] = all := Option.some.inj hall
    rcases hne with hne | hsplits
    · exact hne rfl
    · exact absurd hsplits (by decide)

end Export

end ObsExport
