import ObsExport.Proofs.Observed
import ObsExport.Proofs.Selection
import ObsExport.Split
import Mathlib.Data.List.Nodup

/-!
# Categories of rows

Under a split every row of a batch has a category, that of the value in its first column
(`Split.categoryAt`), and the category gives it a name (`Split.labelAt`). Where the field of the
split can be used (`Split.Applies`), `Split.labels` lists these names unless two categories meet
under one of them (`Split.Clashes`), and then it fails as ambiguous (`labels_cases`). So do the
names of the rows of a whole batch (`rowLabels_cases`).
-/

namespace ObsExport

/-! ### Rows by label -/

/-- There is a clash among the names of the first `n` rows exactly if two of them have different
keys and one name. -/
theorem firstClash?_rows_eq_none_iff {κ : Type} [DecidableEq κ] {name : κ → String} {key : Nat → κ}
    {n : Nat} :
    firstClash? (((List.range n).map key).map fun k => (name k, k)) = none ↔
      ¬ ∃ r q, r < n ∧ q < n ∧ key r ≠ key q ∧ name (key r) = name (key q) := by
  rw [firstClash?_eq_none_iff]
  -- The pairs that are searched are the names and keys of the rows.
  have hmem : ∀ p, p ∈ ((List.range n).map key).map (fun k => (name k, k)) ↔
      ∃ r, r < n ∧ (name (key r), key r) = p := by simp
  constructor
  · rintro h ⟨r, q, hr, hq, hne, heq⟩
    exact hne (h _ ((hmem _).2 ⟨r, hr, rfl⟩) _ ((hmem _).2 ⟨q, hq, rfl⟩) heq)
  · intro h p hp p' hp' heq
    obtain ⟨r, hr, rfl⟩ := (hmem p).1 hp
    obtain ⟨q, hq, rfl⟩ := (hmem p').1 hp'
    exact Decidable.byContradiction fun hne => h ⟨r, q, hr, hq, hne, heq⟩

namespace Partitions

theorem pairwise_positions (label : String) (labels : List String) :
    (positions label labels).Pairwise (· < ·) :=
  pairwise_filter_zipIdx labels _

/-- Each label that occurs names the positions where it occurs, and no other label names any. -/
theorem find?_group_eq_some {labels : List String} {name : String} {rows : List Nat} :
    (group labels).find? name = some rows ↔ name ∈ labels ∧ rows = positions name labels := by
  rw [find?_group]
  split
  next h => simp [h, eq_comm]
  next h => simp [h]

/-- The rows under a name among `n` rows that have names. -/
theorem mem_positions_rows {f : Nat → String} {n row : Nat} {name : String} :
    row ∈ positions name ((List.range n).map f) ↔ row < n ∧ f row = name := by
  rw [mem_positions, List.getElem?_map]
  by_cases h : row < n <;> simp [h]

/-- An entry of the partitions lists the rows that have its label. -/
theorem mem_entry_group {labels : List String} {p : String × List Nat}
    (hp : p ∈ (group labels).entries) {row : Nat} : row ∈ p.2 ↔ labels[row]? = some p.1 := by
  obtain ⟨-, hrows⟩ := find?_group_eq_some.1 (Dict.mem_entries_iff.1 hp)
  rw [hrows, mem_positions]

/-- Every row is listed, in the partition of its own label. -/
theorem mem_values_group {labels : List String} {row : Nat} :
    row ∈ (group labels).values.flatten ↔ row < labels.length := by
  rw [List.mem_flatten]
  constructor
  · rintro ⟨rows, hrows, hrow⟩
    obtain ⟨p, hp, rfl⟩ := List.mem_map.1 hrows
    exact (List.getElem?_eq_some_iff.1 ((mem_entry_group hp).1 hrow)).1
  · intro hrow
    have hlabel : labels[row]? = some labels[row] := List.getElem?_eq_getElem hrow
    have hentry : (labels[row], positions labels[row] labels) ∈ (group labels).entries :=
      Dict.mem_entries_iff.2 (find?_group_eq_some.2 ⟨List.getElem_mem hrow, rfl⟩)
    exact ⟨_, List.mem_map.2 ⟨_, hentry, rfl⟩, mem_positions.2 hlabel⟩

/-- No row is listed twice. -/
theorem nodup_values_group (labels : List String) : (group labels).values.flatten.Nodup := by
  rw [List.nodup_flatten]
  constructor
  · intro rows hrows
    obtain ⟨p, hp, rfl⟩ := List.mem_map.1 hrows
    rw [(find?_group_eq_some.1 (Dict.mem_entries_iff.1 hp)).2]
    exact (pairwise_positions _ _).imp Nat.ne_of_lt
  · -- A row in two partitions would have two labels.
    have hkeys := List.pairwise_map.1 (group labels).sorted
    refine List.pairwise_map.2 (hkeys.imp_of_mem fun {p q} hp hq hlt row hrow hrow' => ?_)
    have heq := ((mem_entry_group hp).1 hrow).symm.trans ((mem_entry_group hq).1 hrow')
    rw [Option.some.injEq] at heq
    exact Std.lt_irrefl (heq ▸ hlt)

/-- The partitions of some rows list all of these rows, and none twice. -/
theorem perm_values_group (labels : List String) :
    (group labels).values.flatten.Perm (List.range labels.length) := by
  rw [List.perm_ext_iff_of_nodup (nodup_values_group labels) List.nodup_range]
  intro row
  rw [mem_values_group, List.mem_range]

end Partitions

/-! ### One split -/

namespace Split

/-- The category of a row: that of the value in its first column. -/
def categoryAt (s : Split) (data : FieldTable) (policy : MissingPolicy) (row : Nat) : Option Int :=
  (((data.find? s.mnemonic).bind Values.grid?).bind fun grid => grid.cell? row 0).bind
    (categoryOf policy)

/-- The name of a row. -/
def labelAt (s : Split) (data : FieldTable) (policy : MissingPolicy) (row : Nat) : String :=
  s.labelOf (s.categoryAt data policy row)

/-- The field of a split is numeric and has a column. -/
def Applies (s : Split) (data : FieldTable) : Prop :=
  ∃ grid, data.find? s.mnemonic = some (.numeric grid) ∧ 0 < grid.cols

/-- Two of the first `n` rows have different categories and one name. -/
def Clashes (s : Split) (data : FieldTable) (policy : MissingPolicy) (n : Nat) : Prop :=
  ∃ r q, r < n ∧ q < n ∧ s.categoryAt data policy r ≠ s.categoryAt data policy q ∧
    s.labelAt data policy r = s.labelAt data policy q

variable {s : Split} {data : FieldTable} {policy : MissingPolicy} {grid : Grid} {splitName : String}
  {n : Nat}

/-- The categories that a split lists are those of the rows, from first to last. -/
theorem categories_eq (hfind : data.find? s.mnemonic = some (.numeric grid))
    (hcols : 0 < grid.cols) :
    s.categories data policy = .ok ((List.range grid.height).map (s.categoryAt data policy)) := by
  have htarget : s.target data = .ok grid := by
    rw [target, hfind]
    exact if_neg (by omega)
  rw [categories, htarget]
  refine Grid.mapM_first_rows hcols fun row x hx => ?_
  rw [categoryAt, hfind]
  show (grid.cell? row 0).bind (categoryOf policy) = categoryOf policy x
  rw [hx, Option.bind_some]

/-- A split lists the names of the rows, unless two categories meet under one name. -/
theorem labels_cases (hfind : data.find? s.mnemonic = some (.numeric grid)) (hcols : 0 < grid.cols) :
    (s.Clashes data policy grid.height ∧
      ∃ name, s.labels splitName data policy = .error (.ambiguousSplit splitName name)) ∨
    (¬ s.Clashes data policy grid.height ∧
      s.labels splitName data policy =
        .ok ((List.range grid.height).map (s.labelAt data policy))) := by
  rw [labels, categories_eq hfind hcols, ok_bind]
  split
  next clash hsome =>
    refine .inl ⟨?_, clash.name, rfl⟩
    by_contra hclear
    rw [firstClash?_rows_eq_none_iff.2 hclear] at hsome
    contradiction
  next hnone =>
    refine .inr ⟨firstClash?_rows_eq_none_iff.1 hnone, ?_⟩
    rw [List.map_map]
    rfl

/-- A split that applies to a batch names all its rows, or fails for the name of two categories. -/
theorem rowLabels_cases (hrows : data.checkRows = .ok n) (happlies : s.Applies data) :
    (s.Clashes data policy n ∧ ∃ name,
      (s.rowLabels splitName data policy).outcome = .error (.ambiguousSplit splitName name)) ∨
    (¬ s.Clashes data policy n ∧
      (s.rowLabels splitName data policy).outcome =
        .ok ((List.range n).map (s.labelAt data policy))) := by
  obtain ⟨rfl, haligned⟩ := FieldTable.checkRows_eq_ok_iff.1 hrows
  obtain ⟨grid, hfind, hcols⟩ := happlies
  have hheight : grid.height = data.rowCount := haligned _ (Dict.mem_entries_iff.2 hfind)
  simp only [rowLabels, reportedLabels, Logged.outcome_bind, Logged.outcome_monadLift,
    Logged.outcome_report, Logged.outcome_pure, ok_bind]
  rw [← hheight]
  obtain ⟨hclash, name, hname⟩ | ⟨hclear, hlabels⟩ := labels_cases hfind hcols
  · exact .inl ⟨hclash, name, by rw [hname, error_bind, error_bind]⟩
  · -- The field has no more rows than the batch, so none of its rows is beyond the batch.
    refine .inr ⟨hclear, ?_⟩
    rw [hlabels, ok_bind, ok_bind, if_neg (by simp)]
    rfl

/-- A row that is selected keeps its category. -/
theorem categoryAt_select {data' : FieldTable} {indices : List Nat}
    (h : FieldTable.select data indices = .ok data') {i row : Nat} (hi : indices[i]? = some row) :
    s.categoryAt data' policy i = s.categoryAt data policy row := by
  unfold categoryAt
  rcases FieldTable.find?_select h s.mnemonic with ⟨hnone, hnone'⟩ | ⟨v, w, hv, hw, hfind⟩
  · rw [hnone, hnone']
    rfl
  · rw [hv, hfind]
    cases v with
    | text entries =>
      obtain ⟨-, kept, -, rfl⟩ := Values.select_text_eq_ok_iff.1 hw
      rfl
    | numeric grid =>
      obtain ⟨grid', hgrid', rfl⟩ := map_eq_ok_iff.1 hw
      show (grid'.cell? i 0).bind _ = (grid.cell? row 0).bind _
      rw [Grid.cell?_select hgrid', hi]
      rfl

/-- A split that names the rows of a batch can be used. -/
theorem applies_of_rowLabels {names : List String}
    (h : (s.rowLabels splitName data policy).outcome = .ok names) : s.Applies data := by
  simp only [rowLabels, reportedLabels, Logged.outcome_bind, Logged.outcome_monadLift] at h
  obtain ⟨_, h, -⟩ := bind_eq_ok_iff.1 h
  obtain ⟨_, h, -⟩ := bind_eq_ok_iff.1 h
  obtain ⟨_, h, -⟩ := bind_eq_ok_iff.1 h
  obtain ⟨grid, htarget, -⟩ := bind_eq_ok_iff.1 h
  unfold target at htarget
  split at htarget
  next grid' hfind =>
    split at htarget
    next => contradiction
    next hcols => exact ⟨grid', hfind, Nat.pos_of_ne_zero hcols⟩
  next => contradiction
  next => contradiction

end Split

end ObsExport
