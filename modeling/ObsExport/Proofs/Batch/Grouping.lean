import ObsExport.Proofs.Batch.Placement

/-!
# Grouped rows are parts of a record's row

`Batch.getGrouped` gives every innermost instance of the groups around a field a row of its own.
It does not look at what `Batch.get` makes of the same field: where the field is nested no deeper
it climbs from the instance to the enclosing value, where it is deeper it climbs from every leaf to
the instance around it.

The two agree. A record's row is cut at the positions of an enclosing instance (`partStart`), and
the row of the instance is the piece that starts there (`Batch.Grouped`, `grouped_of_get`). Both
branches of `groupBlock` come down to the positions of leaves: the first to `Repeats.ancestor_eq`
(`partsOf_enclosing`), the second to `Repeats.climb_eq` and to the slots being different
(`partsOf_spread`).
-/

namespace ObsExport

open Repeats

variable {α : Type}

/-! ### Parts of a row -/

/-- Where the part of a row starts that belongs to an instance around which there are `outer`
levels, given the positions of the instance. -/
def partStart (sizes : List Nat) (outer : Nat) (positions : List Nat) : Nat :=
  slot (sizes.take outer) (positions.take sizes.length) * volume (sizes.drop outer)

/-- The leaves of a reading by the instances of a group, as rows one after the other: the row of an
instance is the part of the reading's own row that its positions lead to. -/
structure PartsOf (blank : α) (pick : Leaves → List α) (sizes : List Nat) (outer : Nat)
    (reading group : Reading) (block : List α) : Prop where
  length : block.length = group.repeats.leafCount * volume (sizes.drop outer)
  leaf : ∀ positions row p l c, group.repeats.leafAt? positions = some row →
    c < volume (sizes.drop outer) → reading.repeats.leafAt? p = some l →
      slot sizes p = partStart sizes outer positions + c →
        block[row * volume (sizes.drop outer) + c]? = (pick reading.leaves)[l]?
  blank : ∀ positions row c, group.repeats.leafAt? positions = some row →
    c < volume (sizes.drop outer) →
      (∀ p l, reading.repeats.leafAt? p = some l →
        slot sizes p ≠ partStart sizes outer positions + c) →
      block[row * volume (sizes.drop outer) + c]? = some blank

/-- A reading that is nested in others has their counts at the levels that they share. -/
theorem levels_of_nestedIn {reading group : Reading} {shared : Nat}
    (h : reading.nestedIn group shared = true) :
    reading.repeats.levels.take shared = group.repeats.levels.take shared := by
  simp only [Reading.nestedIn, Bool.and_eq_true, beq_iff_eq] at h
  exact h.2

/-- A reading has no counts below its depth. -/
theorem take_depth (reading : Reading) :
    reading.repeats.levels.take reading.depth = reading.repeats.levels := List.take_length

section Parts

variable {blank : α} {pick : Leaves → List α} {sizes : List Nat} {reading group : Reading}
  {block : List α}

/-- A field that is nested no deeper than the group repeats its enclosing value. -/
theorem partsOf_enclosing (hfills : Fills pick sizes reading)
    (hle : reading.depth ≤ group.depth)
    (hlevels : group.repeats.levels.take reading.depth = reading.repeats.levels)
    (h : ((List.range group.repeats.leafCount).mapM fun row => do
        let source ← ancestor (group.repeats.levels.drop reading.depth) row
        required (pick reading.leaves)[source]?) = .ok block) :
    PartsOf blank pick sizes group.depth reading group block := by
  obtain ⟨hc, hcount, hbounded⟩ := hfills
  obtain ⟨hlen, hrows⟩ := mapM_eq_ok_iff.1 h
  have hsizes : sizes.length = reading.depth := hbounded.length_eq.symm
  have htake : sizes.take group.depth = sizes := List.take_of_length_le (by omega)
  have hdrop : volume (sizes.drop group.depth) = 1 := by
    rw [List.drop_of_length_le (by omega), volume_nil]
  -- The row of an instance holds the leaf that the outer positions of the instance lead to.
  have hrow : ∀ positions row, group.repeats.leafAt? positions = some row →
      ∃ k, reading.repeats.leafAt? (positions.take reading.depth) = some k ∧
        block[row]? = (pick reading.leaves)[k]? := by
    intro positions row hpos
    obtain ⟨k, houter, hinner⟩ := exists_reach?_cut hpos reading.depth
    rw [hlevels] at houter
    obtain ⟨a, ha, hget⟩ := hrows row row (List.getElem?_range (lt_leafCount hpos))
    rw [ancestor_eq hinner] at hget
    exact ⟨k, houter, by rw [ha, ← required_eq_ok_iff.1 hget]⟩
  refine ⟨by rw [hlen, List.length_range, hdrop, Nat.mul_one], ?_, ?_⟩
  · intro positions row p l c hpos hlt hl hslot
    obtain ⟨k, hk, hget⟩ := hrow positions row hpos
    rw [hdrop] at hlt ⊢
    obtain rfl : c = 0 := by omega
    -- The row has one place, and the part of the reading's row is the slot of one leaf.
    rw [partStart, htake, hdrop, hsizes, Nat.mul_one, Nat.add_zero] at hslot
    obtain rfl := slot_injective (within_of_reach? hbounded hl) (within_of_reach? hbounded hk) hslot
    rw [Nat.mul_one, Nat.add_zero, hget, Option.some.inj (hl.symm.trans hk)]
  · intro positions row c hpos hlt hfree
    -- The place is never blank: the enclosing value stands there.
    obtain ⟨k, hk, -⟩ := hrow positions row hpos
    rw [hdrop] at hlt
    refine absurd ?_ (hfree _ k hk)
    rw [partStart, htake, hdrop, hsizes]
    omega

/-- The places of the leaves of a reading that is nested deeper than the group, in the rows of all
instances one after the other: a leaf lies in the row of the instance around it, in the slot of its
inner positions. -/
structure Spread (sizes : List Nat) (reading group : Reading) (places : List Nat) : Prop where
  length : places.length = reading.repeats.leafCount
  place : ∀ p l, reading.repeats.leafAt? p = some l →
    ∃ row, group.repeats.leafAt? (p.take group.depth) = some row ∧
      slot (sizes.drop group.depth) (p.drop group.depth) < volume (sizes.drop group.depth) ∧
      places[l]? = some (row * volume (sizes.drop group.depth) +
        slot (sizes.drop group.depth) (p.drop group.depth))

/-- The slot of a leaf in the reading's own row, cut at the depth of the group. -/
theorem slot_of_leafAt? (hbounded : Bounded reading.repeats.levels sizes) {p : List Nat} {l : Nat}
    (hl : reading.repeats.leafAt? p = some l) (group : Reading) :
    slot sizes p = slot (sizes.take group.depth) (p.take group.depth) *
      volume (sizes.drop group.depth) + slot (sizes.drop group.depth) (p.drop group.depth) :=
  slot_cut ((within_of_reach? hbounded hl).length_eq) _

/-- Climbing from a leaf to the instance around it, in rows of which the slots can be counted. -/
theorem climb_inner (hbounded : Bounded reading.repeats.levels sizes)
    (hword : volume (sizes.drop group.depth) < Size.limit) {p : List Nat} {row l : Nat}
    (h : reach? row (reading.repeats.levels.drop group.depth) (p.drop group.depth) = some l) :
    slot (sizes.drop group.depth) (p.drop group.depth) < volume (sizes.drop group.depth) ∧
      climb (reading.repeats.levels.drop group.depth) (volumesBelow (sizes.drop group.depth)) l =
        .ok (row, slot (sizes.drop group.depth) (p.drop group.depth)) := by
  have hinner : Bounded (reading.repeats.levels.drop group.depth) (sizes.drop group.depth) :=
    List.forall₂_drop _ hbounded
  have hslot := slot_lt (within_of_reach? hinner h)
  refine ⟨hslot, ?_⟩
  rw [← offsetOf_volumesBelow] at hslot ⊢
  exact climb_eq ((length_volumesBelow _).trans hinner.length_eq.symm) h
    (Nat.lt_trans hslot hword)

/-- Climbing from every leaf to the instance around it finds these places. -/
theorem spread_of_mapM {places : List Nat} (hbounded : Bounded reading.repeats.levels sizes)
    (hword : volume (sizes.drop group.depth) < Size.limit)
    (hsize : reading.leaves.size = reading.repeats.leafCount)
    (hlevels : reading.repeats.levels.take group.depth = group.repeats.levels)
    (h : ((List.range reading.leaves.size).mapM fun leaf => do
        let (row, slot) ← climb (reading.repeats.levels.drop group.depth)
          (volumesBelow (sizes.drop group.depth)) leaf
        return row * volume (sizes.drop group.depth) + slot) = .ok places) :
    Spread sizes reading group places := by
  obtain ⟨hlen, hplaces⟩ := mapM_eq_ok_iff.1 h
  rw [List.length_range, hsize] at hlen
  refine ⟨hlen, fun p l hl => ?_⟩
  obtain ⟨row, hrow, hleaf⟩ := exists_reach?_cut hl group.depth
  rw [hlevels] at hrow
  obtain ⟨hslot, hclimb⟩ := climb_inner hbounded hword hleaf
  refine ⟨row, hrow, hslot, ?_⟩
  obtain ⟨s, hs, hplace⟩ := hplaces l l (List.getElem?_range (hsize ▸ lt_leafCount hl))
  rw [hclimb] at hplace
  rw [hs, ← Except.ok.inj hplace]

/-- Every one of these places belongs to a leaf. -/
theorem Spread.exists_of_mem {places : List Nat} {s : Nat}
    (hspread : Spread sizes reading group places) (hc : reading.repeats.Consistent)
    (h : s ∈ places) :
    ∃ p l row, reading.repeats.leafAt? p = some l ∧
      group.repeats.leafAt? (p.take group.depth) = some row ∧
      slot (sizes.drop group.depth) (p.drop group.depth) < volume (sizes.drop group.depth) ∧
      s = row * volume (sizes.drop group.depth) +
        slot (sizes.drop group.depth) (p.drop group.depth) := by
  obtain ⟨l, hl⟩ := List.mem_iff_getElem?.1 h
  have hlt : l < reading.repeats.leafCount := by
    rw [← hspread.length]
    exact (List.getElem?_eq_some_iff.1 hl).1
  obtain ⟨p, hp⟩ := exists_leafAt? hc hlt
  obtain ⟨row, hrow, hslot, hplace⟩ := hspread.place p l hp
  rw [hl, Option.some.injEq] at hplace
  exact ⟨p, l, row, hp, hrow, hslot, hplace⟩

/-- No two leaves have one place: with the place they would share their slot. -/
theorem Spread.nodup {places : List Nat} (hspread : Spread sizes reading group places)
    (hc : reading.repeats.Consistent) (hbounded : Bounded reading.repeats.levels sizes) :
    places.Nodup := by
  rw [List.nodup_iff_pairwise_ne, List.pairwise_iff_getElem]
  intro l k hl hk hlk heq
  obtain ⟨p, hp⟩ := exists_leafAt? hc (hspread.length ▸ hl)
  obtain ⟨q, hq⟩ := exists_leafAt? hc (hspread.length ▸ hk)
  obtain ⟨row, hprow, hplt, hpl⟩ := hspread.place p l hp
  obtain ⟨row', hqrow, hqlt, hqk⟩ := hspread.place q k hq
  rw [List.getElem?_eq_getElem hl, Option.some.injEq] at hpl
  rw [List.getElem?_eq_getElem hk, Option.some.injEq, ← heq, hpl] at hqk
  -- One place has one row and one column.
  obtain ⟨rfl, hslot⟩ := eq_of_mul_add hplt hqlt hqk
  have hpq : slot sizes p = slot sizes q := calc
    slot sizes p = slot (sizes.take group.depth) (p.take group.depth) *
        volume (sizes.drop group.depth) + slot (sizes.drop group.depth) (p.drop group.depth) :=
      slot_of_leafAt? hbounded hp group
    _ = slot (sizes.take group.depth) (q.take group.depth) *
        volume (sizes.drop group.depth) + slot (sizes.drop group.depth) (q.drop group.depth) := by
      rw [(reach?_injective hprow hqrow).2, hslot]
    _ = slot sizes q := (slot_of_leafAt? hbounded hq group).symm
  obtain rfl := slot_injective (within_of_reach? hbounded hp) (within_of_reach? hbounded hq) hpq
  rw [hp, Option.some.injEq] at hq
  omega

/-- A field that is nested deeper than the group spreads its inner levels over the row. -/
theorem partsOf_spread {places : List Nat} (hfills : Fills pick sizes reading)
    (hlevels : reading.repeats.levels.take group.depth = group.repeats.levels)
    (hspread : Spread sizes reading group places)
    (h : place (List.replicate (group.repeats.leafCount * volume (sizes.drop group.depth)) blank)
      (places.zip (pick reading.leaves)) = .ok block) :
    PartsOf blank pick sizes group.depth reading group block := by
  obtain ⟨hc, hcount, hbounded⟩ := hfills
  obtain ⟨hlength, hwritten, hother⟩ :=
    place_eq_ok h (hspread.length.trans hcount.symm) (hspread.nodup hc hbounded)
  have houter : Bounded group.repeats.levels (sizes.take group.depth) := by
    rw [← hlevels]
    exact List.forall₂_take _ hbounded
  have hdepth : min group.depth sizes.length = group.depth := by
    have hlen := congrArg List.length hlevels
    rwa [List.length_take, hbounded.length_eq] at hlen
  -- The positions of an instance are no longer than those of the leaves.
  have hstart : ∀ positions row, group.repeats.leafAt? positions = some row →
      partStart sizes group.depth positions =
        slot (sizes.take group.depth) positions * volume (sizes.drop group.depth) := by
    intro positions row hpos
    have hlength : positions.length = group.depth := length_of_reach? hpos
    rw [partStart, List.take_of_length_le (l := positions) (by omega)]
  refine ⟨by rw [hlength, List.length_replicate], ?_, ?_⟩
  · intro positions row p l c hpos hclt hl hslot
    -- The slot of the leaf lies in the part of this instance, so it is the instance around it.
    obtain ⟨row', hrow, hplt, hplace⟩ := hspread.place p l hl
    rw [slot_of_leafAt? hbounded hl group, hstart positions row hpos] at hslot
    obtain ⟨htake, rfl⟩ := eq_of_mul_add hplt hclt hslot
    obtain rfl := slot_injective (within_of_reach? houter hrow) (within_of_reach? houter hpos) htake
    obtain rfl : row' = row := Option.some.inj (hrow.symm.trans hpos)
    exact hwritten l _ hplace
  · intro positions row c hpos hclt hfree
    have hin : row * volume (sizes.drop group.depth) + c <
        group.repeats.leafCount * volume (sizes.drop group.depth) :=
      mul_add_lt (lt_leafCount hpos) hclt
    rw [hother, List.getElem?_replicate_of_lt hin]
    intro hmem
    -- A place that was written belongs to a leaf, and the leaf lies in this part of the row.
    obtain ⟨p, l, row', hl, hrow, hplt, heq⟩ := hspread.exists_of_mem hc hmem
    obtain ⟨rfl, rfl⟩ := eq_of_mul_add hclt hplt heq
    refine hfree p l hl ?_
    rw [slot_of_leafAt? hbounded hl group, hstart positions row hpos,
      (reach?_injective hrow hpos).2]

/-- The rows that a record has for a field among the groups of another. -/
theorem partsOf_groupBlock (hfills : Fills pick sizes reading)
    (hword : volume (sizes.drop group.depth) < Size.limit)
    (hsize : reading.leaves.size = reading.repeats.leafCount)
    (hnested : reading.nestedIn group (min reading.depth group.depth) = true)
    (h : groupBlock blank pick reading.depth group.depth (volume (sizes.drop group.depth))
      (volumesBelow (sizes.drop group.depth)) (some reading, some group) = .ok block) :
    PartsOf blank pick sizes group.depth reading group block := by
  have hlevels := levels_of_nestedIn hnested
  rw [groupBlock] at h
  split at h
  -- The reading lies no deeper than the instances: each of them takes the leaf that it is in.
  next hle =>
    rw [Nat.min_eq_left hle, take_depth reading] at hlevels
    exact partsOf_enclosing hfills hle hlevels.symm h
  -- The reading goes deeper: its leaves are spread over the rows of the instances.
  next hlt =>
    have hlt := Nat.lt_of_not_le hlt
    rw [Nat.min_eq_right (Nat.le_of_lt hlt), take_depth group] at hlevels
    obtain ⟨places, hplaces, h⟩ := bind_eq_ok_iff.1 h
    have hspread := spread_of_mapM hfills.bounded hword hsize hlevels hplaces
    exact partsOf_spread hfills hlevels hspread h

/-- The part of an instance lies within the row. -/
theorem partStart_add_le (hbounded : Bounded reading.repeats.levels sizes)
    (hnested : reading.nestedIn group (min reading.depth group.depth) = true)
    {positions : List Nat} {row : Nat} (hpos : group.repeats.leafAt? positions = some row) :
    partStart sizes group.depth positions + volume (sizes.drop group.depth) ≤ volume sizes := by
  have hsizes : sizes.length = reading.depth := hbounded.length_eq.symm
  have hlength : positions.length = group.depth := length_of_reach? hpos
  -- The levels that both go through, of the sizes and of the positions.
  have hsizes' : sizes.take (min reading.depth group.depth) = sizes.take group.depth := by
    rw [List.take_eq_take_min (i := group.depth), hsizes, Nat.min_comm]
  have hpos' : positions.take (min reading.depth group.depth) = positions.take sizes.length := by
    rw [List.take_eq_take_min (i := sizes.length), hsizes, hlength]
  obtain ⟨k, hk, -⟩ := exists_reach?_cut hpos (min reading.depth group.depth)
  rw [← levels_of_nestedIn hnested] at hk
  have hlt := slot_lt (within_of_reach? (List.forall₂_take _ hbounded) hk)
  rw [hsizes', hpos'] at hlt
  calc partStart sizes group.depth positions + volume (sizes.drop group.depth)
      = (slot (sizes.take group.depth) (positions.take sizes.length) + 1) *
          volume (sizes.drop group.depth) := by rw [partStart, Nat.succ_mul]
    _ ≤ volume (sizes.take group.depth) * volume (sizes.drop group.depth) :=
        Nat.mul_le_mul_right _ (Nat.succ_le_of_lt hlt)
    _ = volume sizes := by rw [← volume_append, List.take_append_drop]

end Parts

/-! ### Rows of a batch -/

namespace Batch

/-- How many rows a record has among the groups around a field: one per innermost instance, and
one if the record lacks the field. -/
def rowsOf (b : Batch) (group : String) (record : Nat) : Nat := groupRows (b.reading? group record)

/-- The first row of a record. -/
def startOf (b : Batch) (group : String) (record : Nat) : Nat :=
  total ((List.range record).map (b.rowsOf group))

variable {b : Batch} {name group : String}

/-- Rows of one width have together as many slots as there are rows, times the width. -/
private theorem total_map_mul (l : List Nat) (f : Nat → Nat) (w : Nat) :
    total (l.map fun a => f a * w) = total (l.map f) * w := by
  induction l with
  | nil => simp
  | cons a l ih => simp [ih, Nat.add_mul]

/-- All records together have as many rows as the place where the next record would start. -/
theorem total_groupRows (b : Batch) (group : String) :
    total ((b.cells group).map groupRows) = b.startOf group b.size := by
  rw [map_cells, startOf]
  rfl

/-- Blocks of the rows of every record start where the rows of the record do. -/
theorem getElem?_flatten_blocks {blocks : List (List α)} {w record row c : Nat} {block : List α}
    (hlen : blocks.map List.length =
      (List.range b.size).map fun record => b.rowsOf group record * w)
    (hblock : blocks[record]? = some block) (hlt : row < b.rowsOf group record) (hc : c < w) :
    blocks.flatten[(b.startOf group record + row) * w + c]? = block[row * w + c]? := by
  have hrecord : record < b.size := by
    have hlength := congrArg List.length hlen
    rw [List.length_map, List.length_map, List.length_range] at hlength
    exact hlength ▸ (List.getElem?_eq_some_iff.1 hblock).1
  have hstart : total ((blocks.map List.length).take record) = b.startOf group record * w := by
    rw [hlen, ← List.map_take, List.take_range, Nat.min_eq_left (Nat.le_of_lt hrecord),
      total_map_mul, startOf]
  have hlength : block.length = b.rowsOf group record * w := by
    have hget := congrArg (fun l => l[record]?) hlen
    simpa [hblock, List.getElem?_range hrecord] using hget
  have hin : row * w + c < block.length := hlength ▸ mul_add_lt hlt hc
  -- The blocks before take the rows before, each as wide as all others.
  calc blocks.flatten[(b.startOf group record + row) * w + c]?
      = blocks.flatten[total ((blocks.map List.length).take record) + (row * w + c)]? := by
        rw [hstart, Nat.add_mul, Nat.add_assoc]
    _ = block[row * w + c]? := getElem?_flatten_parts hblock hin

/-- Blocks of rows make up as many values as rows times width. -/
theorem length_flatten_blocks {blocks : List (List α)} {w : Nat}
    (hlen : blocks.map List.length =
      (List.range b.size).map fun record => b.rowsOf group record * w) :
    blocks.flatten.length = b.startOf group b.size * w := by
  rw [length_flatten_parts, hlen, total_map_mul, startOf]

/-- An array of a field with a row per innermost instance of the groups around another, compared
with the array that has a row per record: the row of an instance is the part of its record's row
that the positions of the instance lead to. -/
structure Grouped (b : Batch) (name group : String) (whole grouped : FieldArray) : Prop where
  /-- One row per instance, record after record, and the sizes of the levels below the group. -/
  dims : grouped.dims = b.startOf group b.size :: whole.dims.tail.drop (b.depthOf group)
  sizes : whole.dims = b.size :: b.maxima name
  kind : grouped.leaves.isText = whole.leaves.isText
  size : grouped.leaves.size =
    b.startOf group b.size * volume ((b.maxima name).drop (b.depthOf group))
  /-- The rows of a record that holds the group field are its instances, one by one. -/
  reached : ∀ record instances, b.reading? group record = some instances →
    instances.depth = b.depthOf group ∧
      (∀ positions row, instances.repeats.leafAt? positions = some row →
        row < b.rowsOf group record) ∧
      ∀ row, row < b.rowsOf group record →
        ∃! positions, instances.repeats.leafAt? positions = some row
  /-- The row of an instance is a contiguous part of the row of its record. -/
  part : ∀ record reading instances positions row c, b.reading? name record = some reading →
    b.reading? group record = some instances →
      instances.repeats.leafAt? positions = some row →
        c < volume ((b.maxima name).drop (b.depthOf group)) →
          partStart (b.maxima name) (b.depthOf group) positions + c < volume (b.maxima name) ∧
            grouped.leaves.leaf? ((b.startOf group record + row) *
                volume ((b.maxima name).drop (b.depthOf group)) + c) =
              whole.leaves.leaf? (record * volume (b.maxima name) +
                (partStart (b.maxima name) (b.depthOf group) positions + c))
  /-- A record that lacks one of the fields has blank rows. -/
  blank : ∀ record row c, record < b.size →
    b.reading? name record = .none ∨ b.reading? group record = .none →
      row < b.rowsOf group record → c < volume ((b.maxima name).drop (b.depthOf group)) →
        grouped.leaves.leaf? ((b.startOf group record + row) *
            volume ((b.maxima name).drop (b.depthOf group)) + c) =
          some (Leaf.blank (b.isTextual name) b.policy)

/-- The readings of two fields stand side by side, record by record. -/
private theorem getElem?_pairs {record : Nat} (h : record < b.size) :
    ((b.cells name).zip (b.cells group))[record]? =
      some (b.reading? name record, b.reading? group record) := by
  rw [List.getElem?_zip_eq_some]
  exact ⟨getElem?_cells h, getElem?_cells h⟩

/-- No record has the two fields in different groups. -/
theorem nestedIn_of_firstNotNested {shared record : Nat} {reading instances : Reading}
    (h : firstNotNested shared ((b.cells name).zip (b.cells group)) = .none)
    (hr : b.reading? name record = some reading) (hg : b.reading? group record = some instances) :
    reading.nestedIn instances shared = true := by
  have hpair := @getElem?_pairs b name group _ (lt_size_of_reading? hr)
  rw [hr, hg] at hpair
  have hfault := List.findSome?_eq_none_iff.1 h ((some reading, some instances), record)
    (List.mem_zipIdx_iff_getElem?.2 hpair)
  simpa using hfault

/-- The rows of one record among the groups of another field, one behind the other: parts of the
record's row if the record holds both fields, and blanks otherwise. -/
structure BlockOf (b : Batch) (name group : String) (blank : α) (pick : Leaves → List α)
    (record : Nat) (block : List α) : Prop where
  length : block.length =
    b.rowsOf group record * volume ((b.maxima name).drop (b.depthOf group))
  parts : ∀ reading instances, b.reading? name record = some reading →
    b.reading? group record = some instances →
      PartsOf blank pick (b.maxima name) (b.depthOf group) reading instances block
  blank : b.reading? name record = .none ∨ b.reading? group record = .none →
    ∀ i, i < block.length → block[i]? = some blank

section Blocks

variable {blank : α} {pick : Leaves → List α} {wrap : α → Leaf} {blocks : List (List α)}
  {whole grouped : FieldArray}

/-- The rows of a record are as they must be. -/
theorem blockOf_groupBlock {record : Nat} {block : List α} (hu : b.Uniform name)
    (hug : b.Uniform group)
    (hword : volume ((b.maxima name).drop (b.depthOf group)) < Size.limit)
    (hpick : ∀ ls : Leaves, ls.isText = b.isTextual name → (pick ls).length = ls.size)
    (hnested : firstNotNested (min (b.depthOf name) (b.depthOf group))
      ((b.cells name).zip (b.cells group)) = .none)
    (h : groupBlock blank pick (b.depthOf name) (b.depthOf group)
      (volume ((b.maxima name).drop (b.depthOf group)))
      (volumesBelow ((b.maxima name).drop (b.depthOf group)))
      (b.reading? name record, b.reading? group record) = .ok block) :
    b.BlockOf name group blank pick record block := by
  cases hr : b.reading? name record with
  | none =>
    rw [hr] at h
    obtain rfl := Except.ok.inj h
    refine ⟨List.length_replicate, by simp [hr], fun _ i hi => ?_⟩
    rw [List.getElem?_replicate_of_lt (by simpa using hi)]
  | some reading =>
    cases hg : b.reading? group record with
    | none =>
      rw [hr, hg] at h
      obtain rfl := Except.ok.inj h
      refine ⟨?_, by simp [hg], fun _ i hi => ?_⟩
      · rw [List.length_replicate, rowsOf, hg]
      · rw [List.getElem?_replicate_of_lt (by simpa using hi)]
    | some instances =>
      -- Only a record with both fields has anything but blanks.
      have hheld := mem_held_of_reading? hr
      have hdepth := (hu reading hheld).1
      have hgdepth := (hug instances (mem_held_of_reading? hg)).1
      have hin := nestedIn_of_firstNotNested hnested hr hg
      rw [hr, hg, ← hdepth, ← hgdepth] at h
      rw [← hdepth, ← hgdepth] at hin
      rw [← hgdepth] at hword
      have hparts := partsOf_groupBlock (fills_of_held hu hpick hheld) hword
        (consistent_of_held hheld).2 hin h
      rw [hgdepth] at hparts
      refine ⟨by rw [hparts.length, rowsOf, hg]; rfl, ?_, by simp [hr, hg]⟩
      rintro _ _ hr' hg'
      rwa [← Option.some.inj (hr.symm.trans hr'), ← Option.some.inj (hg.symm.trans hg')]

/-- The blocks of an assembled field, each as its record demands. -/
theorem blockOf_mapM (hu : b.Uniform name) (hug : b.Uniform group)
    (hword : volume ((b.maxima name).drop (b.depthOf group)) < Size.limit)
    (hpick : ∀ ls : Leaves, ls.isText = b.isTextual name → (pick ls).length = ls.size)
    (hnested : firstNotNested (min (b.depthOf name) (b.depthOf group))
      ((b.cells name).zip (b.cells group)) = .none)
    (h : ((b.cells name).zip (b.cells group)).mapM (groupBlock blank pick (b.depthOf name)
      (b.depthOf group) (volume ((b.maxima name).drop (b.depthOf group)))
      (volumesBelow ((b.maxima name).drop (b.depthOf group)))) = .ok blocks) :
    blocks.length = b.size ∧ ∀ record, record < b.size → ∃ block, blocks[record]? = some block ∧
      b.BlockOf name group blank pick record block := by
  obtain ⟨hlen, hblocks⟩ := mapM_eq_ok_iff.1 h
  refine ⟨by simpa using hlen, fun record hlt => ?_⟩
  obtain ⟨block, hblock, hgroup⟩ := hblocks record _ (getElem?_pairs hlt)
  exact ⟨block, hblock, blockOf_groupBlock hu hug hword hpick hnested hgroup⟩

/-- Blocks are as long as the rows of their records. -/
theorem map_length_blocks (hcount : blocks.length = b.size)
    (hblocks : ∀ record, record < b.size → ∃ block, blocks[record]? = some block ∧
      b.BlockOf name group blank pick record block) :
    blocks.map List.length = (List.range b.size).map fun record =>
      b.rowsOf group record * volume ((b.maxima name).drop (b.depthOf group)) := by
  refine List.ext_getElem (by simpa using hcount) fun record hlt hlt' => ?_
  obtain ⟨block, hblock, hof⟩ := hblocks record (by simpa using hlt')
  obtain ⟨_, rfl⟩ := List.getElem?_eq_some_iff.1 hblock
  rw [List.getElem_map, List.getElem_map, List.getElem_range, hof.length]

/-- The row of an instance, read as leaves, is the part of the row of its record: both have a leaf of
the record in the same places. -/
theorem map_part {blank : α} {pick : Leaves → List α} {wrap : α → Leaf} {whole : FieldArray}
    {block : List α} {reading instances : Reading} {positions : List Nat} {outer record row c : Nat}
    (hpadded : b.Padded name whole) (hr : b.reading? name record = some reading)
    (hpart : PartsOf blank pick (b.maxima name) outer reading instances block)
    (hblank : wrap blank = Leaf.blank (b.isTextual name) b.policy)
    (hpick : ∀ i, reading.leaves.leaf? i = (pick reading.leaves)[i]?.map wrap)
    (hpos : instances.repeats.leafAt? positions = some row)
    (hc : c < volume ((b.maxima name).drop outer))
    (hin : partStart (b.maxima name) outer positions + c < volume (b.maxima name)) :
    block[row * volume ((b.maxima name).drop outer) + c]?.map wrap =
      whole.leaves.leaf? (record * volume (b.maxima name) +
        (partStart (b.maxima name) outer positions + c)) := by
  by_cases hleaf : ∃ p l, reading.repeats.leafAt? p = some l ∧
      slot (b.maxima name) p = partStart (b.maxima name) outer positions + c
  · obtain ⟨p, l, hl, heq⟩ := hleaf
    rw [hpart.leaf positions row p l c hpos hc hl heq, ← heq,
      (hpadded.leaf record reading p l hr hl).2.2, hpick]
  · -- Neither row has a leaf in this place.
    have hfree : ∀ p l, reading.repeats.leafAt? p = some l → slot (b.maxima name) p ≠
        partStart (b.maxima name) outer positions + c :=
      fun p l hl heq => hleaf ⟨p, l, hl, heq⟩
    rw [hpart.blank positions row c hpos hc hfree,
      hpadded.blank record _ (lt_size_of_reading? hr) hin, ← hblank]
    · rfl
    · intro reading' p l hr' hl
      obtain rfl : reading = reading' := Option.some.inj (hr.symm.trans hr')
      exact hfree p l hl

/-- What stands in a row of a record. -/
theorem leaf?_of_blocks
    (hout : Assembled blank pick wrap (b.isTextual name) b.policy grouped.leaves blocks.flatten)
    (hcount : blocks.length = b.size)
    (hblocks : ∀ record, record < b.size → ∃ block, blocks[record]? = some block ∧
      b.BlockOf name group blank pick record block)
    {record row c : Nat} {block : List α} (hblock : blocks[record]? = some block)
    (hrow : row < b.rowsOf group record)
    (hc : c < volume ((b.maxima name).drop (b.depthOf group))) :
    grouped.leaves.leaf? ((b.startOf group record + row) *
        volume ((b.maxima name).drop (b.depthOf group)) + c) =
      block[row * volume ((b.maxima name).drop (b.depthOf group)) + c]?.map wrap := by
  rw [hout.leaf, getElem?_flatten_blocks (map_length_blocks hcount hblocks) hblock hrow hc]

/-- An array that is made of the blocks of all records, one behind the other, agrees with the one
that has a row per record. -/
theorem grouped_of_blocks
    (hout : Assembled blank pick wrap (b.isTextual name) b.policy grouped.leaves blocks.flatten)
    (hpadded : b.Padded name whole) (hug : b.Uniform group)
    (hdims : grouped.dims = b.startOf group b.size :: (b.maxima name).drop (b.depthOf group))
    (hnested : firstNotNested (min (b.depthOf name) (b.depthOf group))
      ((b.cells name).zip (b.cells group)) = .none)
    (hcount : blocks.length = b.size)
    (hblocks : ∀ record, record < b.size → ∃ block, blocks[record]? = some block ∧
      b.BlockOf name group blank pick record block) :
    b.Grouped name group whole grouped := by
  have hu := hpadded.uniform
  refine ⟨?_, hpadded.dims, hout.kind.trans hpadded.kind.symm, ?_, ?_, ?_, ?_⟩
  · rw [hdims, hpadded.dims]
    rfl
  · rw [hout.size, length_flatten_blocks (map_length_blocks hcount hblocks)]
  · intro record instances hr
    have hheld := mem_held_of_reading? hr
    rw [rowsOf, hr]
    exact ⟨(hug instances hheld).1, fun positions row hpos => lt_leafCount hpos,
      fun row hrow => existsUnique_leafAt? (consistent_of_held hheld).1 hrow⟩
  · intro record reading instances positions row c hr hg hpos hc
    have hheld := mem_held_of_reading? hr
    have hgdepth := (hug instances (mem_held_of_reading? hg)).1
    obtain ⟨block, hblock, hof⟩ := hblocks record (lt_size_of_reading? hr)
    have hrow : row < b.rowsOf group record := by
      rw [rowsOf, hg]
      exact lt_leafCount hpos
    -- The part of the instance ends inside the row of its record.
    have hinside := partStart_add_le (bounded_of_held hu hheld) (by
      rw [(hu reading hheld).1, hgdepth]
      exact nestedIn_of_firstNotNested hnested hr hg) hpos
    rw [hgdepth] at hinside
    have hin : partStart (b.maxima name) (b.depthOf group) positions + c <
        volume (b.maxima name) := by omega
    refine ⟨hin, ?_⟩
    rw [leaf?_of_blocks hout hcount hblocks hblock hrow hc]
    exact map_part hpadded hr (hof.parts reading instances hr hg) hout.blank
      (hout.pick _ (hu reading hheld).2).2 hpos hc hin
  · intro record row c hlt hnone hrow hc
    obtain ⟨block, hblock, hof⟩ := hblocks record hlt
    have hin : row * volume ((b.maxima name).drop (b.depthOf group)) + c < block.length :=
      hof.length ▸ mul_add_lt hrow hc
    rw [leaf?_of_blocks hout hcount hblocks hblock hrow hc, hof.blank hnone _ hin, ← hout.blank]
    rfl

end Blocks

/-- The grouped array of a field agrees with the array that has a row per record. -/
theorem grouped_of_get {whole grouped : FieldArray} (h : (b.get name).outcome = .ok whole)
    (hg : (b.getGrouped name group).outcome = .ok grouped) :
    b.Grouped name group whole grouped := by
  unfold getGrouped at hg
  simp only [Logged.outcome_bind, Logged.outcome_monadLift, bind_eq_ok_iff] at hg
  obtain ⟨cells, hcells, groups, hgroups, shape, hshape, gshape, hgshape, hg⟩ := hg
  obtain ⟨-, rfl⟩ := observed_eq_ok hcells
  obtain ⟨-, rfl⟩ := observed_eq_ok hgroups
  obtain ⟨hu, hdefault⟩ := uniform_of_commonShape hshape
  obtain ⟨hug, -⟩ := uniform_of_commonShape hgshape
  rw [hdefault, depth_of_commonShape hgshape] at hg
  split at hg
  next => simp at hg
  next hnested =>
    simp only [Logged.outcome_bind, Logged.outcome_monadLift, Logged.outcome_pure,
      Logged.outcome_report, bind_eq_ok_iff, Except.ok.injEq] at hg
    rw [commonMaxima_eq hu, total_groupRows] at hg
    obtain ⟨width, hwidth, strides, hstrides, -, -, leaves, hleaves, -, -, rfl⟩ := hg
    rw [Size.product_of_pos fun _ hm => pos_of_mem_maxima (List.mem_of_mem_drop hm)] at hwidth
    obtain ⟨hword, rfl⟩ := Size.checked_eq_ok_iff.1 hwidth
    obtain rfl := eq_volumesBelow hstrides
    obtain ⟨α, blank, pick, wrap, out, hout, hassembled⟩ := assemble_eq_ok hleaves
    -- The array is the blocks of the records, one behind the other.
    obtain ⟨blocks, hmapM, rfl⟩ := map_eq_ok_iff.1 hout
    obtain ⟨hcount, hblocks⟩ := blockOf_mapM hu hug hword
      (fun ls hls => (hassembled.pick ls hls).1) hnested hmapM
    exact grouped_of_blocks hassembled (padded_of_get h) hug rfl hnested hcount hblocks

/-- **Grouped rows are parts of record rows.** Whatever records are offered, where a field has both
an array with a row per record and one with a row per instance of the groups around another field,
the row of an instance is the part of its record's row that the positions of the instance lead to,
and which rows there are depends on the other field only. -/
theorem grouped_rows_are_parts (names : List String) (policy : MissingPolicy)
    (offered : List Record) {name group : String} {whole grouped : FieldArray}
    (h : ((ofOffers names policy offered).get name).outcome = .ok whole)
    (hg : ((ofOffers names policy offered).getGrouped name group).outcome = .ok grouped) :
    (ofOffers names policy offered).Grouped name group whole grouped :=
  grouped_of_get h hg

/-- A field below another one, a record that lacks the outer field, and a record without any
instance. -/
def nestedRecords : List Record := [
  ⟨[.repeated "G" (.numeric [10, 20]) [1] ⟨[[2]]⟩,
    .repeated "T" (.numeric [1, 2, 3]) [1, 2] ⟨[[2], [1, 2]]⟩], by decide⟩,
  ⟨[.repeated "T" (.numeric [4]) [1, 2] ⟨[[1], [1]]⟩], by decide⟩,
  ⟨[.repeated "G" (.numeric []) [1] ⟨[[0]]⟩,
    .repeated "T" (.numeric []) [1, 2] ⟨[[0], []]⟩], by decide⟩]

/-- The rows of `nestedRecords` by the instances of the outer field: two, one and none. -/
theorem grouped_rows_are_parts_nested :
    ((ofOffers ["G", "T"] .standard nestedRecords).get "T").outcome =
        .ok ⟨"T", none, [3, 2, 2], [], .numeric [
          1, 1e11, 2, 3,  4, 1e11, 1e11, 1e11,  1e11, 1e11, 1e11, 1e11]⟩ ∧
      ((ofOffers ["G", "T"] .standard nestedRecords).getGrouped "T" "G").outcome =
        .ok ⟨"T", some "G", [3, 2], [], .numeric [1, 1e11,  2, 3,  1e11, 1e11]⟩ ∧
      (ofOffers ["G", "T"] .standard nestedRecords).Grouped "T" "G"
        ⟨"T", none, [3, 2, 2], [], .numeric [
          1, 1e11, 2, 3,  4, 1e11, 1e11, 1e11,  1e11, 1e11, 1e11, 1e11]⟩
        ⟨"T", some "G", [3, 2], [], .numeric [1, 1e11,  2, 3,  1e11, 1e11]⟩ :=
  ⟨rfl, rfl, grouped_rows_are_parts ["G", "T"] .standard nestedRecords rfl rfl⟩

end Batch

end ObsExport
