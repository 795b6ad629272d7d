import ObsExport.Export
import ObsExport.Proofs.Selection

/-!
# Retained rows

A row passes a filter if its field has an observed value in the row and only observed values within
the bounds (`Filter.Passes`). The rows that an export retains are exactly the rows that pass all of
its filters, in ascending order (`retainedRows_eq_ok`): filters are folded into one mask, and after
every filter the mask is true exactly at the rows that have passed so far.
-/

namespace ObsExport

namespace Filter

/-- A row has an observed value in the field of a filter, and only observed values within its
bounds. -/
def Passes (f : Filter) (data : FieldTable) (policy : MissingPolicy) (row : Nat) : Prop :=
  ∃ grid, data.find? f.mnemonic = some (.numeric grid) ∧
    (∃ c x, grid.cell? row c = some x ∧ policy.isPresent x = true) ∧
    ∀ c x, grid.cell? row c = some x → policy.isPresent x = true → f.admits x = true

variable {f : Filter} {data : FieldTable} {policy : MissingPolicy} {n : Nat}

/-- A record is kept if it has observed something and nothing observed is out of bounds. -/
theorem keeps_eq_true_iff {values : List Float} :
    f.keeps policy values = true ↔
      (∃ x ∈ values, policy.isPresent x = true) ∧
        ∀ x ∈ values, policy.isPresent x = true → f.admits x = true := by
  simp only [keeps, Bool.and_eq_true, Bool.not_eq_true', List.isEmpty_eq_false_iff_exists_mem,
    List.mem_filter, List.all_eq_true, and_imp]

theorem target_eq_ok_iff {grid : Grid} :
    f.target data = .ok grid ↔ data.find? f.mnemonic = some (.numeric grid) := by
  unfold target
  split
  next grid' hfind => simp [hfind]
  next entries hfind => simp [hfind]
  next hfind => simp [hfind]

/-- A filter reads a row as a list, and the list holds the cells of the row. -/
theorem keeps_row_iff (f : Filter) (policy : MissingPolicy) {grid : Grid} {row : Nat}
    (hrow : row < grid.height) :
    ∃ xs, grid.rows[row]? = some xs ∧ (f.keeps policy xs = true ↔
      (∃ c x, grid.cell? row c = some x ∧ policy.isPresent x = true) ∧
        ∀ c x, grid.cell? row c = some x → policy.isPresent x = true → f.admits x = true) := by
  have hlt : row < grid.rows.length := by rwa [grid.length_rows]
  have hget : grid.rows[row]? = some grid.rows[row] := List.getElem?_eq_getElem hlt
  -- What stands in the list of a row stands in one of its cells.
  have hcell : ∀ x, x ∈ grid.rows[row] ↔ ∃ c, grid.cell? row c = some x := by
    intro x
    rw [List.mem_iff_getElem?]
    refine exists_congr fun c => ?_
    rw [← grid.getElem?_rows, hget]
    rfl
  refine ⟨_, hget, ?_⟩
  rw [keeps_eq_true_iff]
  simp only [hcell]
  constructor
  · rintro ⟨⟨x, ⟨c, hc⟩, hx⟩, hall⟩
    exact ⟨⟨c, x, hc, hx⟩, fun c x hc hx => hall x ⟨c, hc⟩ hx⟩
  · rintro ⟨⟨c, x, hc, hx⟩, hall⟩
    exact ⟨⟨x, ⟨c, hc⟩, hx⟩, fun x ⟨c, hc⟩ hx => hall c x hc hx⟩

/-- The mask of a filter is true at the rows that pass. -/
theorem mask_eq_ok {mask : List Bool} (haligned : data.Aligned n)
    (h : f.mask data policy = .ok mask) :
    ∀ row, row < n → ∃ b, mask[row]? = some b ∧ (b = true ↔ f.Passes data policy row) := by
  obtain ⟨grid, htarget, h⟩ := bind_eq_ok_iff.1 h
  obtain ⟨-, -, h⟩ := bind_eq_ok_iff.1 h
  obtain rfl := Except.ok.inj h
  have hfind := target_eq_ok_iff.1 htarget
  intro row hrow
  have hheight : grid.height = n := haligned _ (Dict.mem_entries_iff.2 hfind)
  obtain ⟨xs, hget, hkeeps⟩ := keeps_row_iff f policy (hheight ▸ hrow)
  refine ⟨_, by rw [List.getElem?_map, hget]; rfl, hkeeps.trans ?_⟩
  constructor
  · exact fun h => ⟨grid, hfind, h⟩
  · rintro ⟨grid', hfind', h⟩
    rw [hfind, Option.some.injEq, Values.numeric.injEq] at hfind'
    exact hfind' ▸ h

/-- Folding filters into a mask leaves it true at the rows that pass all of them. -/
theorem foldlM_both_eq_ok {filters : List Filter} {kept mask : List Bool}
    (haligned : data.Aligned n) (hlen : kept.length = n)
    (h : filters.foldlM (fun kept f => (f.mask data policy).map (both kept)) kept = .ok mask) :
    mask.length = n ∧ ∀ row : Nat, mask[row]? = some true ↔
      kept[row]? = some true ∧ ∀ f ∈ filters, f.Passes data policy row := by
  -- The invariant: the mask is true where it was true at first and all filters so far pass.
  induction filters generalizing kept with
  | nil =>
    obtain rfl := Except.ok.inj h
    exact ⟨hlen, fun row => by simp⟩
  | cons f filters ih =>
    rw [List.foldlM_cons] at h
    obtain ⟨kept', hkept', h⟩ := bind_eq_ok_iff.1 h
    obtain ⟨own, hown, rfl⟩ := map_eq_ok_iff.1 hkept'
    obtain ⟨hlen', hmask⟩ := ih (by rw [length_both, hlen]) h
    refine ⟨hlen', fun row => ?_⟩
    have hstep : (both kept own)[row]? = some true ↔
        kept[row]? = some true ∧ f.Passes data policy row := by
      rw [getElem?_both]
      by_cases hrow : row < n
      · obtain ⟨b, hb, hpass⟩ := mask_eq_ok haligned hown row hrow
        rw [hb, ← hpass]
        cases kept[row]? <;> simp
      · have hnone : kept[row]? = none := List.getElem?_eq_none_iff.2 (by omega)
        simp [hnone]
    rw [hmask row, hstep, List.forall_mem_cons, and_assoc]

/-- A row is retained where the mask is true. -/
theorem mem_retained_iff {mask : List Bool} {row : Nat} :
    row ∈ retained mask ↔ mask[row]? = some true := by
  simp [retained, List.mem_zipIdx_iff_getElem?]

theorem pairwise_retained (mask : List Bool) : (retained mask).Pairwise (· < ·) :=
  pairwise_filter_zipIdx mask _

/-- Up to what is reported, filters are folded into one mask that is true everywhere at first. -/
theorem outcome_combinedMask (filters : List Filter) (data : FieldTable) (policy : MissingPolicy) :
    (combinedMask filters data policy).outcome =
      data.reserveRows (filters.map mnemonic) .flag >>= fun _ =>
        filters.foldlM (fun kept f => (f.mask data policy).map (both kept))
          (List.replicate data.rowCount true) := by
  rw [combinedMask, Logged.outcome_bind, Logged.outcome_monadLift]
  refine congrArg _ (funext fun _ => ?_)
  rw [Logged.outcome_foldlM]
  refine congrArg (fun step => filters.foldlM step (List.replicate data.rowCount true)) ?_
  funext kept f
  rw [Logged.outcome_bind, Logged.outcome_monadLift]
  cases f.mask data policy <;> rfl

/-- A mask of several filters is true at the rows that pass all of them. -/
theorem retained_combinedMask {filters : List Filter} {mask : List Bool}
    (hrows : data.checkRows = .ok n) (hmask : (combinedMask filters data policy).outcome = .ok mask) :
    (retained mask).Pairwise (· < ·) ∧
      ∀ row, row ∈ retained mask ↔ row < n ∧ ∀ f ∈ filters, f.Passes data policy row := by
  obtain ⟨rfl, haligned⟩ := FieldTable.checkRows_eq_ok_iff.1 hrows
  rw [outcome_combinedMask] at hmask
  obtain ⟨-, -, hmask⟩ := bind_eq_ok_iff.1 hmask
  obtain ⟨-, hall⟩ := foldlM_both_eq_ok haligned List.length_replicate hmask
  refine ⟨pairwise_retained mask, fun row => ?_⟩
  rw [mem_retained_iff, hall row]
  refine and_congr_left fun _ => ?_
  -- At first the mask is true at every row of the batch, and nowhere else.
  by_cases hrow : row < data.rowCount <;> simp [hrow]

/-- Up to what is reported, the rows at which the mask is true are listed if there is room. -/
theorem outcome_sift (filters : List Filter) (data : FieldTable) (policy : MissingPolicy) :
    (sift filters data policy).outcome =
      (combinedMask filters data policy).outcome >>= fun mask =>
        Size.reserveGrowing .number (retained mask).length >>= fun _ => .ok (retained mask) := by
  rw [sift, Logged.outcome_bind]
  refine congrArg _ (funext fun mask => ?_)
  rw [Logged.outcome_bind, Logged.outcome_monadLift]
  rfl

/-- The rows that filters retain are those that pass all of them. -/
theorem outcome_sift_eq_ok {filters : List Filter} {rows : List Nat}
    (hrows : data.checkRows = .ok n) (h : (sift filters data policy).outcome = .ok rows) :
    rows.Pairwise (· < ·) ∧
      ∀ row, row ∈ rows ↔ row < n ∧ ∀ f ∈ filters, f.Passes data policy row := by
  rw [outcome_sift] at h
  obtain ⟨mask, hmask, h⟩ := bind_eq_ok_iff.1 h
  obtain ⟨-, -, h⟩ := bind_eq_ok_iff.1 h
  exact Except.ok.inj h ▸ retained_combinedMask hrows hmask

end Filter

/-- The rows that an export retains are those that pass all of its filters. -/
theorem Export.retainedRows_eq_ok {e : Export} {data : FieldTable} {policy : MissingPolicy}
    {n : Nat} {rows : List Nat} (hrows : data.checkRows = .ok n)
    (h : (e.retainedRows data policy).outcome = .ok rows) :
    rows.Pairwise (· < ·) ∧
      ∀ row, row ∈ rows ↔ row < n ∧ ∀ f ∈ e.filters, f.Passes data policy row :=
  Filter.outcome_sift_eq_ok hrows h

/-- Retained rows are rows of the batch. -/
theorem Export.lt_of_retainedRows {e : Export} {data : FieldTable} {policy : MissingPolicy}
    {n : Nat} {rows : List Nat} (hrows : data.checkRows = .ok n)
    (h : (e.retainedRows data policy).outcome = .ok rows) : ∀ row ∈ rows, row < n :=
  fun row hrow => (((retainedRows_eq_ok hrows h).2 row).1 hrow).1

end ObsExport
