import ObsExport.Proofs.Batch.Tables
import ObsExport.Proofs.Export.Retained
import ObsExport.Proofs.Number.Difference

/-!
# Filters do not see padding

A filter works on the rows of an assembled table, and how wide such a row is and what stands in it
depends on all records of the batch. Still a record is kept for its own reading alone
(`Filter.Keeps`): what padding adds to a row is the sentinel, which counts as missing
(`isMissing_sentinel`), so that a row and the leaves of its record hold the same observations
(`present_cell_iff`). A field that no record holds is a column of sentinels, and no record is kept
for it (`padding_is_invisible`).
-/

namespace ObsExport

/-- The sentinel is missing, since taking away the tolerance does not increase it. -/
theorem MissingPolicy.isMissing_sentinel {p : MissingPolicy}
    (hsentinel : Binary.isFinite p.sentinel = true) (hepsilon : Binary.isFinite p.epsilon = true)
    (hnonneg : 0 ≤ p.epsilon) : p.isMissing p.sentinel = true := by
  simp [isMissing, isPresent, Number.not_lt_sub hsentinel hepsilon hnonneg]

namespace Filter

variable {f : Filter} {x : Float}

/-- A value lies within the bounds of a filter. -/
def Within (f : Filter) (x : Float) : Prop :=
  (∀ lower, f.lower = some lower → lower ≤ x) ∧ ∀ upper, f.upper = some upper → x ≤ upper

/-- A record is kept for its own reading of the field: it has one that is not flagged, with some
observed leaf, and every observed leaf is within the bounds. -/
def Keeps (f : Filter) (policy : MissingPolicy) (record : Record) : Prop :=
  ∃ reading, record.observed? f.mnemonic = some reading ∧
    (∃ x ∈ reading.leaves.numbers, policy.isPresent x = true) ∧
    ∀ x ∈ reading.leaves.numbers, policy.isPresent x = true → f.Within x

/-- A value is admitted exactly if it is within the bounds. -/
theorem admits_eq_true_iff : f.admits x = true ↔ f.Within x := by
  unfold admits Within
  cases f.lower <;> cases f.upper <;> simp

/-- The mask of a filter on a numeric field that has columns. -/
theorem mask_of_numeric {data : FieldTable} {policy : MissingPolicy} {grid : Grid}
    (h : data.find? f.mnemonic = some (.numeric grid)) (hcols : grid.cols ≠ 0) :
    f.mask data policy = .ok (grid.rows.map (f.keeps policy)) := by
  have hroom : Size.Backed grid.values.length .flag grid.height :=
    grid.backed_height_iff.2 (.inr (Nat.pos_of_ne_zero hcols))
  simp [mask, target_eq_ok_iff.2 h, Grid.reserveRows,
    (Size.reserveBeyond_eq_ok_iff (u := ())).2 hroom, pure, Except.pure]

/-- A filter with a mask has a numeric field. -/
theorem numeric_of_mask {data : FieldTable} {policy : MissingPolicy} {mask : List Bool}
    (h : f.mask data policy = .ok mask) :
    ∃ grid, data.find? f.mnemonic = some (.numeric grid) := by
  obtain ⟨grid, htarget, -⟩ := bind_eq_ok_iff.1 h
  exact ⟨grid, target_eq_ok_iff.1 htarget⟩

end Filter

namespace Batch

variable {b : Batch} {name : String} {table : FieldTable} {grid : Grid}

/-! ### A row and its record -/

/-- A leaf is a number exactly if it is one of the numbers. -/
theorem leaf?_eq_number_iff {leaves : Leaves} {i : Nat} {x : Float} :
    leaves.leaf? i = some (.number x) ↔ leaves.numbers[i]? = some x := by
  cases leaves with
  | numeric values => simp [Leaves.leaf?, Leaves.numbers]
  | text values => simp [Leaves.leaf?, Leaves.numbers]

/-- The observations in a row of an assembled field are those among the leaves of its record. -/
theorem present_cell_iff {array : FieldArray} {record : Nat} {x : Float}
    (hpadded : b.Padded name array) (hleaves : array.leaves = .numeric grid.values)
    (hcols : grid.cols = volume (b.maxima name)) (hrecord : record < b.size)
    (hsentinel : b.policy.isMissing b.policy.sentinel = true)
    (hx : b.policy.isPresent x = true) :
    (∃ c, grid.cell? record c = some x) ↔
      ∃ reading, b.reading? name record = some reading ∧ x ∈ reading.leaves.numbers := by
  -- What stands in a slot of the row, as a leaf of the array and as a cell of the grid.
  have hslot : ∀ c, c < volume (b.maxima name) →
      (array.leaves.leaf? (record * volume (b.maxima name) + c) = some (.number x) ↔
        grid.cell? record c = some x) := by
    intro c hc
    rw [leaf?_eq_number_iff, hleaves, ← hcols, ← grid.getElem?_values record (hcols ▸ hc)]
    rfl
  constructor
  · rintro ⟨c, hcell⟩
    have hc : c < volume (b.maxima name) := by
      rw [← hcols]
      exact (Grid.cell?_isSome_iff.1 (by rw [hcell]; rfl : (grid.cell? record c).isSome)).2
    by_cases hfree : ∀ reading positions l, b.reading? name record = some reading →
        reading.repeats.leafAt? positions = some l →
          Repeats.slot (b.maxima name) positions ≠ c
    · -- A slot without a leaf holds the sentinel, which is not observed.
      have hblank := hpadded.blank record c hrecord hc hfree
      rw [(hslot c hc).2 hcell, ← hpadded.kind, hleaves] at hblank
      obtain rfl : x = b.policy.sentinel := by
        simpa [Leaf.blank, Leaves.isText] using hblank
      rw [MissingPolicy.isMissing, hx] at hsentinel
      contradiction
    · -- The slot belongs to a leaf, so it holds that leaf.
      simp only [not_forall, not_not] at hfree
      obtain ⟨reading, positions, l, hreading, hl, rfl⟩ := hfree
      obtain ⟨-, -, hleaf⟩ := hpadded.leaf record reading positions l hreading hl
      rw [(hslot _ hc).2 hcell] at hleaf
      exact ⟨reading, hreading, List.mem_of_getElem? (leaf?_eq_number_iff.1 hleaf.symm)⟩
  · rintro ⟨reading, hreading, hmem⟩
    obtain ⟨l, hl⟩ := List.mem_iff_getElem?.1 hmem
    -- Only numeric leaves have numbers, and of those every leaf is one.
    have hlt : l < reading.leaves.size := by
      have hlt := (List.getElem?_eq_some_iff.1 hl).1
      cases hkind : reading.leaves with
      | numeric values => simpa [hkind, Leaves.size, Leaves.numbers] using hlt
      | text values => simp [hkind, Leaves.numbers] at hlt
    obtain ⟨positions, hpositions, -⟩ := hpadded.reached record reading l hreading hlt
    obtain ⟨-, hc, hleaf⟩ := hpadded.leaf record reading positions l hreading hpositions
    refine ⟨Repeats.slot (b.maxima name) positions, (hslot _ hc).1 ?_⟩
    rw [hleaf, leaf?_eq_number_iff, hl]

/-- What a filter makes of the row of a record, in terms of the record. -/
theorem keeps_iff {array : FieldArray} {f : Filter} {r : Nat} {record : Record}
    (hpadded : b.Padded f.mnemonic array) (hleaves : array.leaves = .numeric grid.values)
    (hcols : grid.cols = volume (b.maxima f.mnemonic))
    (hsentinel : b.policy.isMissing b.policy.sentinel = true)
    (hrecord : b.records[r]? = some record) :
    ((∃ c x, grid.cell? r c = some x ∧ b.policy.isPresent x = true) ∧
        ∀ c x, grid.cell? r c = some x → b.policy.isPresent x = true → f.admits x = true) ↔
      f.Keeps b.policy record := by
  have hlt : r < b.size := (List.getElem?_eq_some_iff.1 hrecord).1
  have hreading : b.reading? f.mnemonic r = record.observed? f.mnemonic := by
    rw [reading?, hrecord]
    rfl
  -- Both directions go through the observations, slot by slot and leaf by leaf.
  have hpresent : ∀ x, b.policy.isPresent x = true → ((∃ c, grid.cell? r c = some x) ↔
      ∃ reading, record.observed? f.mnemonic = some reading ∧ x ∈ reading.leaves.numbers) := by
    intro x hx
    rw [present_cell_iff hpadded hleaves hcols hlt hsentinel hx, hreading]
  constructor
  · rintro ⟨⟨c, x, hc, hx⟩, hall⟩
    obtain ⟨reading, hobs, hmem⟩ := (hpresent x hx).1 ⟨c, hc⟩
    refine ⟨reading, hobs, ⟨x, hmem, hx⟩, fun y hy hpy => ?_⟩
    obtain ⟨c, hc⟩ := (hpresent y hpy).2 ⟨reading, hobs, hy⟩
    exact Filter.admits_eq_true_iff.1 (hall c y hc hpy)
  · rintro ⟨reading, hobs, ⟨x, hmem, hx⟩, hall⟩
    obtain ⟨c, hc⟩ := (hpresent x hx).2 ⟨reading, hobs, hmem⟩
    refine ⟨⟨c, x, hc, hx⟩, fun c y hc hy => ?_⟩
    obtain ⟨reading', hobs', hmem'⟩ := (hpresent y hy).1 ⟨c, hc⟩
    obtain rfl := Option.some.inj (hobs.symm.trans hobs')
    exact Filter.admits_eq_true_iff.2 (hall y hmem' hy)

/-- A mask has an entry per record of a batch, true exactly for the records that a filter keeps for
their own readings. -/
structure Masks (b : Batch) (f : Filter) (mask : List Bool) : Prop where
  length : mask.length = b.size
  kept_iff : ∀ (r : Nat) record, b.records[r]? = some record →
    (mask[r]? = some true ↔ f.Keeps b.policy record)

/-- On the table of a batch every filter with a numeric field has a mask, which keeps records for
their own readings. -/
theorem masks_of_numeric {f : Filter} (hsentinel : b.policy.isMissing b.policy.sentinel = true)
    (htable : b.toTable.outcome = .ok table) (hdeclared : f.mnemonic ∈ b.names)
    (hnumeric : table.find? f.mnemonic = some (.numeric grid)) :
    ∃ mask, f.mask table b.policy = .ok mask ∧ b.Masks f mask := by
  obtain ⟨array, values, harray, hvalues, hfind⟩ := find?_of_toTable htable hdeclared
  obtain rfl : values = .numeric grid := Option.some.inj (hfind.symm.trans hnumeric)
  have hpadded := padded_of_get harray
  have hleaves := (FieldArray.toValues_eq_numeric_iff.1 hvalues).1
  obtain ⟨hrows, -, hwidth⟩ := values_of_padded hpadded hvalues
  have hheight : grid.height = b.size := hrows
  have hcols : grid.cols = volume (b.maxima f.mnemonic) := hwidth
  -- Every maximum is positive, so the field has a column to be looked at.
  have hpos : grid.cols ≠ 0 := hcols ▸ Nat.ne_of_gt (volume_maxima_pos b f.mnemonic)
  refine ⟨_, Filter.mask_of_numeric hnumeric hpos, by simp [hheight], fun r record hrecord => ?_⟩
  have hlt : r < grid.height := hheight ▸ (List.getElem?_eq_some_iff.1 hrecord).1
  obtain ⟨row, hrow, hkeeps⟩ := Filter.keeps_row_iff f b.policy hlt
  rw [List.getElem?_map, hrow, Option.map_some, Option.some.injEq, hkeeps,
    keeps_iff hpadded hleaves hcols hsentinel hrecord]

/-- What masks say of a record depends on nothing else in its batch. -/
theorem Masks.eq_of_record {b' : Batch} {f : Filter} {mask mask' : List Bool} {r r' : Nat}
    {record : Record} (h : b.Masks f mask) (h' : b'.Masks f mask') (hpolicy : b'.policy = b.policy)
    (hr : b.records[r]? = some record) (hr' : b'.records[r']? = some record) :
    mask'[r']? = mask[r]? := by
  have hlt : r < mask.length := by
    rw [h.length]
    exact (List.getElem?_eq_some_iff.1 hr).1
  have hlt' : r' < mask'.length := by
    rw [h'.length]
    exact (List.getElem?_eq_some_iff.1 hr').1
  -- Each mask is true exactly where the record is kept, and the record is the same.
  have hiff : mask'[r']? = some true ↔ mask[r]? = some true := by
    rw [h.kept_iff r record hr, h'.kept_iff r' record hr', hpolicy]
  rw [List.getElem?_eq_getElem hlt, List.getElem?_eq_getElem hlt'] at hiff ⊢
  rw [Option.some.injEq, Option.some.injEq] at hiff
  rw [Bool.eq_iff_iff.2 hiff]

/-- **Padding is invisible to filters.** On the table of a batch, a filter on a declared numeric
field has a mask, and the mask is true exactly for the records that the filter keeps for their own
readings. So the entry of a record is the same in every batch that the record is part of. -/
theorem padding_is_invisible {f : Filter}
    (hsentinel : Binary.isFinite b.policy.sentinel = true)
    (hepsilon : Binary.isFinite b.policy.epsilon = true) (hnonneg : 0 ≤ b.policy.epsilon)
    (htable : b.toTable.outcome = .ok table) (hdeclared : f.mnemonic ∈ b.names)
    (hnumeric : table.find? f.mnemonic = some (.numeric grid)) :
    ∃ mask, f.mask table b.policy = .ok mask ∧ b.Masks f mask ∧
      ∀ (b' : Batch) table' mask' (r r' : Nat) record, b'.policy = b.policy →
        b'.toTable.outcome = .ok table' → f.mnemonic ∈ b'.names →
        f.mask table' b'.policy = .ok mask' →
        b.records[r]? = some record → b'.records[r']? = some record →
          mask'[r']? = mask[r]? := by
  have hmissing := MissingPolicy.isMissing_sentinel hsentinel hepsilon hnonneg
  obtain ⟨mask, hmask, hmasks⟩ := masks_of_numeric hmissing htable hdeclared hnumeric
  refine ⟨mask, hmask, hmasks, ?_⟩
  intro b' table' mask' r r' record hpolicy htable' hdeclared' hmask' hr hr'
  -- In the other batch the field is numeric too, or there would be no mask.
  obtain ⟨grid', hnumeric'⟩ := Filter.numeric_of_mask hmask'
  obtain ⟨mask'', hmask'', hmasks'⟩ :=
    masks_of_numeric (hpolicy ▸ hmissing) htable' hdeclared' hnumeric'
  obtain rfl := Except.ok.inj (hmask'.symm.trans hmask'')
  exact hmasks.eq_of_record hmasks' hpolicy hr hr'

/-- A table with the field `T` of `unevenRecords`. -/
def unevenTable : FieldTable := Dict.empty.insert "T" (.numeric ⟨3, 6, [
  1, 1e11, 2, 3, 1e11, 1e11,
  1e11, 1e11, 1e11, 1e11, 1e11, 1e11,
  1e11, 1e11, 1e11, 1e11, 5, 6], by decide⟩)

/-- Bounds that the first record meets, the second has nothing for, and the third exceeds. -/
def lukewarm : Filter := ⟨"T", some 1, some 5⟩

/-- Of three records with two, one and no observed leaves the first alone has all of its leaves
within the bounds. -/
theorem padding_is_invisible_uneven :
    (ofOffers ["T"] .standard unevenRecords).toTable.outcome = .ok unevenTable ∧
      lukewarm.mask unevenTable .standard = .ok [true, false, false] ∧
      (ofOffers ["T"] .standard unevenRecords).Masks lukewarm [true, false, false] := by
  have htable : (ofOffers ["T"] .standard unevenRecords).toTable.outcome = .ok unevenTable := rfl
  have hmask : lukewarm.mask unevenTable .standard = .ok [true, false, false] := rfl
  obtain ⟨mask, hmask', hmasks, -⟩ := padding_is_invisible (f := lukewarm)
    (by decide +kernel) (by decide +kernel) (by decide +kernel) htable (by decide) rfl
  obtain rfl := Except.ok.inj (hmask.symm.trans hmask')
  exact ⟨htable, hmask, hmasks⟩

end Batch

end ObsExport
