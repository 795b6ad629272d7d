import ObsExport.Proofs.Export.Restriction
import ObsExport.Proofs.Export.Retained

/-!
# Filtering in stages

Filters look at one row at a time, so what a list of filters retains is determined row by row
(`Filter.PassingRows`): it does not matter in which order the filters stand, whether a filter stands
there twice, or whether some of them are applied to the batch and the others to what these left over
(`filters_in_stages`). The rows of the second stage are numbered anew; the row that stands in a place
of the smaller batch passes a filter there exactly if it does in the batch (`passes_select`).

What can go wrong is the size. A batch whose fields have no columns may count more rows than a mask
can have, and a row number takes more room than an entry of a mask. So filters retain the rows that
pass them as far as there is room (`Filter.Sifts`): for a mask of the batch (`Filter.Maskable`) and
for the rows that are left, the list of which is doubled whenever it is full (`Filter.Listable`).
-/

namespace ObsExport

namespace Filter

/-- The field of a filter is numeric. -/
def Targets (f : Filter) (data : FieldTable) : Prop :=
  ∃ grid, data.find? f.mnemonic = some (.numeric grid)

/-- There is room for a mask of a batch of `n` rows, or there is a value in every row for each of some
filters. -/
def Maskable (filters : List Filter) (data : FieldTable) (n : Nat) : Prop :=
  Size.Room .flag n ∨ filters ≠ [] ∧
    ∀ f ∈ filters, ∃ grid, data.find? f.mnemonic = some (.numeric grid) ∧ 0 < grid.cols

/-- There is room for all that is listed when filters leave some rows of a batch of `n` rows. -/
structure Listable (filters : List Filter) (data : FieldTable) (n : Nat) (rows : List Nat) :
    Prop where
  mask : Maskable filters data n
  /-- Before the last row was added there may have been half as much room as after it. -/
  retained : Size.Room .number (2 * (rows.length - 1))

/-- Filtering a batch of `n` rows gives some rows, unless there is no room for a mask of the batch or
for these rows. -/
def Sifts (filters : List Filter) (data : FieldTable) (policy : MissingPolicy) (n : Nat)
    (rows : List Nat) : Prop :=
  (Listable filters data n rows → (sift filters data policy).outcome = .ok rows) ∧
    (¬ Listable filters data n rows → (sift filters data policy).outcome = .error .tooLarge)

/-- The rows of a batch of `n` rows that pass some filters, ascending. -/
structure PassingRows (filters : List Filter) (data : FieldTable) (policy : MissingPolicy) (n : Nat)
    (rows : List Nat) : Prop where
  ascending : rows.Pairwise (· < ·)
  mem_iff : ∀ row, row ∈ rows ↔ row < n ∧ ∀ f ∈ filters, f.Passes data policy row

variable {data smaller : FieldTable} {policy : MissingPolicy} {n : Nat}
  {filters A B : List Filter} {rows kept rest : List Nat}

/-! ### Rows that pass -/

theorem exists_passingRows (filters : List Filter) (data : FieldTable) (policy : MissingPolicy)
    (n : Nat) : ∃ rows, PassingRows filters data policy n rows := by
  classical
  refine ⟨(List.range n).filter fun row => ∀ f ∈ filters, f.Passes data policy row, ?_, ?_⟩
  · exact List.pairwise_lt_range.filter _
  · intro row
    simp

/-- The rows are determined by what the filters ask for, in whatever order and how often. -/
theorem PassingRows.eq_of_mem_iff (h : PassingRows A data policy n rows)
    (h' : PassingRows B data policy n kept) (hmem : ∀ f, f ∈ A ↔ f ∈ B) : rows = kept := by
  refine h.ascending.eq_of_mem_iff h'.ascending fun row => ?_
  simp only [h.mem_iff, h'.mem_iff, hmem]

theorem PassingRows.lt (h : PassingRows filters data policy n rows) : ∀ row ∈ rows, row < n :=
  fun row hrow => ((h.mem_iff row).1 hrow).1

/-- No more rows pass than there are. -/
theorem PassingRows.length_le (h : PassingRows filters data policy n rows) : rows.length ≤ n :=
  length_le_of_ascending h.ascending h.lt

/-! ### Rows that can be listed -/

/-- The mask of a filter has an entry per row, unless the field has no columns and too many rows. -/
theorem mask_cases {f : Filter} (hrows : data.checkRows = .ok n) (hf : f.Targets data) :
    (Maskable [f] data n ∧ ∃ mask, f.mask data policy = .ok mask) ∨
      (¬ Maskable [f] data n ∧ f.mask data policy = .error .tooLarge) := by
  obtain ⟨rfl, haligned⟩ := FieldTable.checkRows_eq_ok_iff.1 hrows
  obtain ⟨grid, hfind⟩ := hf
  have hheight : grid.height = data.rowCount := haligned _ (Dict.mem_entries_iff.2 hfind)
  have hroom : Maskable [f] data data.rowCount ↔
      Size.Backed grid.values.length .flag grid.height := by
    rw [grid.backed_height_iff, hheight]
    simp [Maskable, hfind]
  rw [hroom, mask, target_eq_ok_iff.2 hfind, ok_bind, Grid.reserveRows, Size.reserveBeyond]
  split
  next hbacked => exact .inl ⟨hbacked, _, rfl⟩
  next hbacked => exact .inr ⟨hbacked, rfl⟩

/-- Masks can be folded exactly if every filter has one. -/
theorem exists_foldlM_both_iff (kept : List Bool) :
    (∃ mask, filters.foldlM (fun kept f => (f.mask data policy).map (both kept)) kept = .ok mask) ↔
      ∀ f ∈ filters, ∃ mask, f.mask data policy = .ok mask := by
  -- Combining cannot fail, so it does not matter what the masks so far have kept.
  induction filters generalizing kept with
  | nil => simp [pure, Except.pure]
  | cons f filters ih =>
    rw [List.forall_mem_cons, List.foldlM_cons]
    cases hown : f.mask data policy with
    | error err => simp [Except.map]
    | ok own =>
      have hmap : (Except.ok own : Except Error (List Bool)).map (both kept) =
          .ok (both kept own) := rfl
      rw [hmap, ok_bind, ih (both kept own)]
      simp

/-- There is room for a mask of the batch in front of all filters. -/
theorem reserveRows_of_maskable (hrows : data.checkRows = .ok n)
    (h : Maskable filters data n) : data.reserveRows (filters.map mnemonic) .flag = .ok () := by
  obtain ⟨rfl, haligned⟩ := FieldTable.checkRows_eq_ok_iff.1 hrows
  rcases h with hroom | ⟨hne, hcols⟩
  · rw [FieldTable.reserveRows]
    split
    next => rfl
    next => exact Size.reserve_eq_ok_iff.2 hroom
  · -- The field of any filter makes room for all rows.
    obtain ⟨f, hf⟩ := List.exists_mem_of_ne_nil _ hne
    obtain ⟨grid, hfind, hpos⟩ := hcols f hf
    have hname : f.mnemonic ∈ filters.map mnemonic := List.mem_map.2 ⟨f, hf, rfl⟩
    exact FieldTable.reserveRows_of_cols haligned hname hfind hpos .flag

/-- Filters have a common mask exactly if there is room for masks of the batch. -/
theorem exists_combinedMask_iff (hrows : data.checkRows = .ok n)
    (htargets : ∀ f ∈ filters, f.Targets data) :
    (∃ mask, (combinedMask filters data policy).outcome = .ok mask) ↔
      Maskable filters data n := by
  rw [outcome_combinedMask]
  constructor
  · rintro ⟨mask, hmask⟩
    obtain ⟨_, hreserve, hfold⟩ := bind_eq_ok_iff.1 hmask
    have hown := (exists_foldlM_both_iff _).1 ⟨mask, hfold⟩
    by_cases hroom : Size.Room .flag n
    · exact .inl hroom
    · refine .inr ⟨?_, fun f hf => ?_⟩
      · -- Without filters there is no field that could have made room.
        rintro rfl
        obtain ⟨rfl, -⟩ := FieldTable.checkRows_eq_ok_iff.1 hrows
        exact hroom (Size.reserve_eq_ok_iff.1 hreserve)
      · obtain ⟨own, hown⟩ := hown f hf
        rcases mask_cases hrows (htargets f hf) with ⟨hmaskable, -⟩ | ⟨-, hlarge⟩
        · exact (hmaskable.resolve_left hroom).2 f List.mem_cons_self
        · rw [hown] at hlarge
          contradiction
  · -- What makes room for all filters makes room for each.
    intro hmaskable
    rw [reserveRows_of_maskable hrows hmaskable, ok_bind, exists_foldlM_both_iff]
    intro f hf
    rcases mask_cases hrows (htargets f hf) with ⟨-, hok⟩ | ⟨hlarge, -⟩
    · exact hok
    · refine absurd (hmaskable.imp_right fun hcols => ⟨List.cons_ne_nil _ _, fun g hg => ?_⟩) hlarge
      rw [List.mem_singleton.1 hg]
      exact hcols.2 f hf

/-- Filters with numeric fields fail for the size of the batch alone. -/
theorem combinedMask_eq_error {err : Error} (hrows : data.checkRows = .ok n)
    (htargets : ∀ f ∈ filters, f.Targets data)
    (h : (combinedMask filters data policy).outcome = .error err) : err = .tooLarge := by
  rw [outcome_combinedMask] at h
  rcases bind_eq_error_iff.1 h with h | ⟨-, -, h⟩
  · unfold FieldTable.reserveRows at h
    split at h
    · contradiction
    · exact Size.reserve_eq_error h
  · obtain ⟨before, f, after, kept, rfl, -, h⟩ := foldlM_eq_error h
    rw [map_eq_error_iff] at h
    rcases mask_cases hrows (htargets f (by simp)) with ⟨-, mask, hmask⟩ | ⟨-, hlarge⟩
    · rw [hmask] at h
      contradiction
    · rw [hlarge] at h
      exact (Except.error.inj h).symm

/-- Filters retain the rows that pass them as far as these can be listed. -/
theorem PassingRows.sifts (h : PassingRows filters data policy n rows)
    (hrows : data.checkRows = .ok n) (htargets : ∀ f ∈ filters, f.Targets data) :
    Sifts filters data policy n rows := by
  have hiff := @exists_combinedMask_iff data policy n filters hrows htargets
  rw [Sifts, outcome_sift]
  cases hmask : (combinedMask filters data policy).outcome with
  | ok mask =>
    -- The mask is true at the rows that pass, so it is these that are listed.
    obtain ⟨hascending, hmem⟩ := retained_combinedMask hrows hmask
    obtain rfl : rows = retained mask :=
      h.ascending.eq_of_mem_iff hascending fun row => by rw [h.mem_iff, hmem]
    rw [ok_bind, Size.reserveGrowing, Size.reserve]
    split
    next hroom => exact ⟨fun _ => rfl, fun hnone => absurd ⟨hiff.1 ⟨mask, hmask⟩, hroom⟩ hnone⟩
    next hroom => exact ⟨fun hlist => absurd hlist.retained hroom, fun _ => rfl⟩
  | error err =>
    have hnone : ¬ Maskable filters data n := by
      rw [← hiff, hmask]
      simp
    rw [combinedMask_eq_error hrows htargets hmask]
    exact ⟨fun hlist => absurd hlist.mask hnone, fun _ => rfl⟩

/-! ### The second stage -/

/-- A row passes a filter in a smaller batch exactly if it does in the batch it comes from. -/
theorem passes_select {f : Filter} (h : FieldTable.select data kept = .ok smaller) {i row : Nat}
    (hi : kept[i]? = some row) : f.Passes smaller policy i ↔ f.Passes data policy row := by
  unfold Passes
  rcases FieldTable.find?_select h f.mnemonic with ⟨hnone, hnone'⟩ | ⟨v, w, hv, hw, hfind⟩
  · simp [hnone, hnone']
  · cases v with
    | text entries =>
      obtain ⟨-, out, -, rfl⟩ := Values.select_text_eq_ok_iff.1 hw
      simp [hv, hfind]
    | numeric grid =>
      obtain ⟨grid', hgrid', rfl⟩ := map_eq_ok_iff.1 hw
      have hcell : ∀ c, grid'.cell? i c = grid.cell? row c := by
        intro c
        rw [Grid.cell?_select hgrid', hi]
        rfl
      simp [hv, hfind, hcell]

/-- A filter whose field is numeric finds it numeric among selected rows. -/
theorem targets_select {f : Filter} (h : FieldTable.select data kept = .ok smaller)
    (hf : f.Targets data) : f.Targets smaller := by
  obtain ⟨grid, hgrid⟩ := hf
  rcases FieldTable.find?_select h f.mnemonic with ⟨hnone, -⟩ | ⟨v, w, hv, hw, hfind⟩
  · rw [hgrid] at hnone
    contradiction
  · obtain rfl : v = .numeric grid := Option.some.inj (hv.symm.trans hgrid)
    obtain ⟨grid', -, rfl⟩ := map_eq_ok_iff.1 hw
    exact ⟨grid', hfind⟩

/-- What passes the second stage has, by its numbers in the batch, passed the filters of both. -/
theorem PassingRows.stages (hkept : PassingRows A data policy n kept)
    (h : FieldTable.select data kept = .ok smaller)
    (hrest : PassingRows B smaller policy kept.length rest) (hrows : Composes kept rest rows) :
    PassingRows (A ++ B) data policy n rows := by
  refine ⟨hrows.pairwise hkept.ascending hrest.ascending, fun row => ?_⟩
  -- A place of the smaller batch is in the second stage for what its row is in the batch.
  have hplace : ∀ i, kept[i]? = some row →
      (i ∈ rest ↔ ∀ f ∈ B, f.Passes data policy row) := by
    intro i hi
    rw [hrest.mem_iff]
    simp only [passes_select h hi, (List.getElem?_eq_some_iff.1 hi).1, true_and]
  rw [hrows.mem_iff, List.forall_mem_append, ← and_assoc, ← hkept.mem_iff, List.mem_iff_getElem?]
  constructor
  · rintro ⟨i, hmem, hi⟩
    exact ⟨⟨i, hi⟩, (hplace i hi).1 hmem⟩
  · rintro ⟨⟨i, hi⟩, hpass⟩
    exact ⟨i, (hplace i hi).2 hpass, hi⟩

/-- Rows that passed some filters pass them again. -/
theorem PassingRows.again (h : PassingRows filters data policy n rows)
    (hselect : FieldTable.select data rows = .ok smaller) :
    PassingRows filters smaller policy rows.length (List.range rows.length) := by
  refine ⟨List.pairwise_lt_range, fun i => ?_⟩
  rw [List.mem_range]
  refine ⟨fun hi => ⟨hi, fun f hf => ?_⟩, And.left⟩
  have hrow : rows[i]? = some rows[i] := List.getElem?_eq_getElem hi
  rw [passes_select hselect hrow]
  exact ((h.mem_iff _).1 (List.getElem_mem hi)).2 f hf

/-- **Filters may be applied in stages and in any order.** The rows of a batch that pass two lists
of filters are retained by both lists together in any order, and by the second list among the rows
that the first one retains; filters that are applied to the rows they retained retain all of them.
Where rows are too many to be listed, filtering them fails for this reason only. -/
theorem filters_in_stages (hrows : data.checkRows = .ok n)
    (htargets : ∀ f ∈ A ++ B, f.Targets data) :
    ∃ rows, PassingRows (A ++ B) data policy n rows ∧
      (∀ filters : List Filter, filters.Perm (A ++ B) → Sifts filters data policy n rows) ∧
      (∃ kept smaller rest, Sifts A data policy n kept ∧ kept.length ≤ n ∧
        FieldTable.select data kept = .ok smaller ∧ smaller.checkRows = .ok kept.length ∧
        Sifts B smaller policy kept.length rest ∧ Composes kept rest rows) ∧
      ∃ smaller, FieldTable.select data rows = .ok smaller ∧
        smaller.checkRows = .ok rows.length ∧
        Sifts (A ++ B) smaller policy rows.length (List.range rows.length) := by
  obtain ⟨rows, hpass⟩ := exists_passingRows (A ++ B) data policy n
  refine ⟨rows, hpass, fun filters hperm => ?_, ?_, ?_⟩
  · -- The same filters in another order let the same rows pass.
    obtain ⟨rows', hpass'⟩ := exists_passingRows filters data policy n
    obtain rfl := hpass.eq_of_mem_iff hpass' fun f => hperm.symm.mem_iff
    exact hpass'.sifts hrows fun f hf => htargets f (hperm.mem_iff.1 hf)
  · obtain ⟨kept, hkept⟩ := exists_passingRows A data policy n
    obtain ⟨smaller, hsmaller⟩ :=
      FieldTable.exists_select_of_ascending hrows hkept.ascending hkept.lt
    have hcount := FieldTable.checkRows_select hrows hsmaller hkept.lt
    obtain ⟨rest, hrest⟩ := exists_passingRows B smaller policy kept.length
    obtain ⟨rows', hcomposes⟩ := exists_composes hrest.lt
    -- Both stages together let through what passes all filters, which are the rows above.
    obtain rfl := (hkept.stages hsmaller hrest hcomposes).eq_of_mem_iff hpass fun _ => Iff.rfl
    refine ⟨kept, smaller, rest, hkept.sifts hrows fun f hf => htargets f ?_, hkept.length_le,
      hsmaller, hcount, hrest.sifts hcount fun f hf => targets_select hsmaller (htargets f ?_),
      hcomposes⟩
    · exact List.mem_append_left B hf
    · exact List.mem_append_right A hf
  · obtain ⟨smaller, hsmaller⟩ :=
      FieldTable.exists_select_of_ascending hrows hpass.ascending hpass.lt
    have hcount := FieldTable.checkRows_select hrows hsmaller hpass.lt
    exact ⟨smaller, hsmaller, hcount, (hpass.again hsmaller).sifts hcount fun f hf =>
      targets_select hsmaller (htargets f hf)⟩

/-- Four records, of which the third has no latitude and the second no temperature. -/
def buoyRecords : FieldTable :=
  ⟨[("lat", .numeric (.ofColumn [95, 10, 1e11, -20])),
    ("temp", .numeric ⟨4, 2, [300, 310, 1e11, 1e11, 290, 295, 280, 1e11], by decide⟩)], by decide⟩

/-- Records on the globe. -/
def onGlobe : Filter := ⟨"lat", some (-90), some 90⟩

/-- Records that are warm wherever they were measured. -/
def warm : Filter := ⟨"temp", some 275, none⟩

/-- Of `buoyRecords` the last passes both filters, as the second of the two that pass the first. -/
theorem filters_in_stages_buoys :
    buoyRecords.checkRows = .ok 4 ∧
      (sift ([onGlobe] ++ [warm]) buoyRecords .standard).outcome = .ok [3] ∧
      (sift ([warm] ++ [onGlobe]) buoyRecords .standard).outcome = .ok [3] ∧
      (sift [onGlobe] buoyRecords .standard).outcome = .ok [1, 3] ∧
      ∃ smaller rest, FieldTable.select buoyRecords [1, 3] = .ok smaller ∧
        (sift [warm] smaller .standard).outcome = .ok rest ∧ Composes [1, 3] rest [3] := by
  have hrows : buoyRecords.checkRows = .ok 4 := rfl
  have hboth : (sift ([onGlobe] ++ [warm]) buoyRecords .standard).outcome = .ok [3] := rfl
  have hfirst : (sift [onGlobe] buoyRecords .standard).outcome = .ok [1, 3] := rfl
  have htargets : ∀ f ∈ [onGlobe] ++ [warm], f.Targets buoyRecords := by
    intro f hf
    simp only [List.singleton_append, List.mem_cons, List.not_mem_nil, or_false] at hf
    rcases hf with rfl | rfl
    · exact ⟨_, rfl⟩
    · exact ⟨_, rfl⟩
  obtain ⟨rows, hpass, hany, ⟨kept, smaller, rest, hkept, hle, hselect, -, hrest, hcomposes⟩, -⟩ :=
    @filters_in_stages buoyRecords .standard 4 [onGlobe] [warm] hrows htargets
  -- Of four rows or fewer any number can be listed.
  have hroom : ∀ filters data k (rows : List Nat), k ≤ 4 → rows.length ≤ 4 →
      Listable filters data k rows := fun _ _ k rows hk hlength =>
    ⟨.inl (Size.Room.mono (by decide : Size.Room .flag 4) hk),
      Size.Room.mono (by decide : Size.Room .number 8) (by omega)⟩
  obtain rfl : [3] = rows := Except.ok.inj
    (hboth.symm.trans ((hany _ (.refl _)).1 (hroom _ _ 4 _ (Nat.le_refl 4) hpass.length_le)))
  obtain rfl : [1, 3] = kept := Except.ok.inj
    (hfirst.symm.trans (hkept.1 (hroom _ _ 4 _ (Nat.le_refl 4) hle)))
  have hfewer : rest.length ≤ 4 := hcomposes.length ▸ (by decide)
  exact ⟨hrows, hboth, (hany _ List.perm_append_comm).1 (hroom _ _ 4 _ (Nat.le_refl 4) (by decide)),
    hfirst, smaller, rest, hselect, hrest.1 (hroom _ _ 2 _ (by decide) hfewer), hcomposes⟩

/-- Records that are counted and hold nothing. -/
def endlessRecords : FieldTable :=
  ⟨[("temp", .numeric ⟨0x8000000000000000, 0, [], by decide⟩)], by decide⟩

/-- No record of `endlessRecords` passes a filter, and still the filter does not answer that. -/
theorem sift_fails_endless :
    endlessRecords.checkRows = .ok 0x8000000000000000 ∧
      (∀ f ∈ [warm] ++ [], f.Targets endlessRecords) ∧
      PassingRows ([warm] ++ []) endlessRecords .standard 0x8000000000000000 [] ∧
      ∀ rows, (sift ([warm] ++ []) endlessRecords .standard).outcome ≠ .ok rows := by
  refine ⟨rfl, ?_, ⟨List.Pairwise.nil, fun row => ?_⟩, fun rows h => ?_⟩
  · intro f hf
    obtain rfl := List.mem_singleton.1 hf
    exact ⟨_, rfl⟩
  · -- There is no value in the row, let alone an observed one.
    refine ⟨fun h => absurd h List.not_mem_nil, ?_⟩
    rintro ⟨-, hpass⟩
    obtain ⟨grid, hfind, ⟨c, x, hcell, -⟩, -⟩ := hpass warm List.mem_cons_self
    obtain rfl : ⟨0x8000000000000000, 0, [], by decide⟩ = grid :=
      Values.numeric.inj (Option.some.inj hfind)
    simp [Grid.cell?] at hcell
  · have hlarge : (sift ([warm] ++ []) endlessRecords .standard).outcome = .error .tooLarge := rfl
    rw [hlarge] at h
    contradiction

end Filter

end ObsExport
