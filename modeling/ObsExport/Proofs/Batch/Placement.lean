import ObsExport.Proofs.Batch.Held
import ObsExport.Proofs.Repeats.Order

/-!
# Where assembly puts the leaves of a field

`Batch.get` writes the leaves of a record one after the other into a row of blanks. The row is
right because no two leaves have one slot and no slot lies outside the row (`place_eq_ok` with
`Repeats.nodup_leafSlots`): then every written value stays (`RowOf`).

`Batch.Padded` is the whole layout: the sizes, the slot of every leaf, and blanks everywhere else.
It holds of every array that `Batch.get` answers (`padded_of_get`), whatever else the batch holds,
and of every batch that offering records leads to (`leaves_keep_places`).
-/

namespace ObsExport

open Repeats

variable {α : Type}

/-! ### Writing into a row -/

/-- Values written to different slots stay there, and other slots stay as they are. -/
theorem place_eq_ok {row out values : List α} {slots : List Nat}
    (h : place row (slots.zip values) = .ok out) (hlen : slots.length = values.length)
    (hnd : slots.Nodup) :
    out.length = row.length ∧ (∀ l s : Nat, slots[l]? = some s → out[s]? = values[l]?) ∧
      ∀ s, s ∉ slots → out[s]? = row[s]? := by
  induction slots generalizing row values with
  | nil =>
    obtain rfl : row = out := by simpa [place] using h
    simp
  | cons first slots ih =>
    cases values with
    | nil => simp at hlen
    | cons a values =>
      rw [List.nodup_cons] at hnd
      rw [List.zip_cons_cons, place] at h
      split at h
      next hfirst =>
        obtain ⟨hsame, hwritten, hother⟩ := ih h (Nat.succ.inj hlen) hnd.2
        refine ⟨by rw [hsame, List.length_set], fun l s hs => ?_, fun s hs => ?_⟩
        · cases l with
          | zero =>
            -- No later value goes to the first slot.
            obtain rfl : first = s := by simpa using hs
            rw [hother first hnd.1, List.getElem?_set_self hfirst]
            rfl
          | succ l => exact hwritten l s hs
        · rw [List.mem_cons, not_or] at hs
          rw [hother s hs.2, List.getElem?_set_ne (Ne.symm hs.1)]
      next => contradiction

/-- A row of a padded block: every leaf in the slot of its positions, blanks everywhere else. A
place without a reading is a row of blanks. -/
structure RowOf (blank : α) (pick : Leaves → List α) (sizes : List Nat) (cell : Option Reading)
    (row : List α) : Prop where
  length : row.length = volume sizes
  leaf : ∀ reading positions l, cell = some reading →
    reading.repeats.leafAt? positions = some l →
      row[slot sizes positions]? = (pick reading.leaves)[l]?
  blank : ∀ s, s < volume sizes →
    (∀ reading positions l, cell = some reading →
      reading.repeats.leafAt? positions = some l → slot sizes positions ≠ s) →
    row[s]? = some blank

/-- What is needed of a reading so that its leaves fill a row of a padded block. -/
structure Fills (pick : Leaves → List α) (sizes : List Nat) (reading : Reading) : Prop where
  consistent : reading.repeats.Consistent
  count : (pick reading.leaves).length = reading.repeats.leafCount
  bounded : Bounded reading.repeats.levels sizes

/-- A record without the field has a blank row. -/
theorem rowOf_none (blank : α) (pick : Leaves → List α) (sizes : List Nat) :
    RowOf blank pick sizes none (List.replicate (volume sizes) blank) where
  length := List.length_replicate
  leaf := fun _ _ _ h => by simp at h
  blank := fun s hs _ => List.getElem?_replicate_of_lt hs

/-- The row of a record is as it must be. -/
theorem rowOf_recordRow {blank : α} {pick : Leaves → List α} {sizes : List Nat}
    {cell : Option Reading} {row : List α}
    (hfills : ∀ reading, cell = some reading → Fills pick sizes reading)
    (h : recordRow blank pick (volume sizes) (volumesBelow sizes) cell = .ok row) :
    RowOf blank pick sizes cell row := by
  cases cell with
  | none =>
    simp only [recordRow, Except.ok.injEq] at h
    exact h ▸ rowOf_none blank pick sizes
  | some reading =>
    obtain ⟨hc, hcount, hbounded⟩ := hfills reading rfl
    obtain ⟨slots, hslots, h⟩ := bind_eq_ok_iff.1 h
    obtain ⟨rfl, -⟩ := eq_leafSlots hslots
    have hs : (volumesBelow sizes).length = reading.depth :=
      (length_volumesBelow sizes).trans hbounded.length_eq.symm
    have hlength : (reading.repeats.leafSlots (volumesBelow sizes)).length =
        (pick reading.leaves).length := (length_leafSlots hc hs).trans hcount.symm
    -- Since no slot occurs twice, no leaf is overwritten by a later one.
    obtain ⟨hlen, hwritten, hother⟩ := place_eq_ok h hlength (nodup_leafSlots hbounded)
    refine ⟨by rw [hlen, List.length_replicate], ?_, ?_⟩
    · rintro _ positions l ⟨⟩ hl
      apply hwritten
      rw [getElem?_leafSlots hc hs hl, offsetOf_volumesBelow]
    · intro s hlt hfree
      rw [hother s, List.getElem?_replicate_of_lt hlt]
      intro hmem
      -- A slot that was written is the slot of some leaf.
      obtain ⟨positions, l, hp, heq⟩ := exists_of_mem_leafSlots hc hbounded hmem
      exact hfree reading positions l rfl hp heq

/-! ### Numbers and texts alike -/

/-- Leaves of a kind are made of a list of plain values, and leaves of that kind are read as such
lists. -/
structure Assembled (blank : α) (pick : Leaves → List α) (wrap : α → Leaf) (isText : Bool)
    (policy : MissingPolicy) (leaves : Leaves) (out : List α) : Prop where
  blank : wrap blank = Leaf.blank isText policy
  kind : leaves.isText = isText
  size : leaves.size = out.length
  leaf : ∀ i, leaves.leaf? i = out[i]?.map wrap
  pick : ∀ ls : Leaves, ls.isText = isText →
    (pick ls).length = ls.size ∧ ∀ i, ls.leaf? i = (pick ls)[i]?.map wrap

/-- Whichever kind is assembled, the leaves are made of what was built of plain values. -/
theorem assemble_eq_ok {isText : Bool} {policy : MissingPolicy}
    {build : {α : Type} → α → (Leaves → List α) → Except Error (List α)} {leaves : Leaves}
    (h : assemble isText policy build = .ok leaves) :
    ∃ (α : Type) (blank : α) (pick : Leaves → List α) (wrap : α → Leaf) (out : List α),
      build blank pick = .ok out ∧ Assembled blank pick wrap isText policy leaves out := by
  unfold assemble at h
  cases isText with
  | true =>
    obtain ⟨out, hout, rfl⟩ := map_eq_ok_iff.1 h
    refine ⟨String, "", Leaves.texts, .text, out, hout, rfl, rfl, rfl, fun _ => rfl, ?_⟩
    -- Of leaves of the other kind nothing is picked, so they are excluded.
    intro ls hls
    cases ls with
    | numeric values => simp [Leaves.isText] at hls
    | text values => exact ⟨rfl, fun _ => rfl⟩
  | false =>
    obtain ⟨out, hout, rfl⟩ := map_eq_ok_iff.1 h
    refine ⟨Float, _, Leaves.numbers, .number, out, hout, rfl, rfl, rfl, fun _ => rfl, ?_⟩
    intro ls hls
    cases ls with
    | numeric values => exact ⟨rfl, fun _ => rfl⟩
    | text values => simp [Leaves.isText] at hls

namespace Batch

variable {b : Batch} {name : String}

/-- A reading of a uniform field fills a row of the field's block. -/
theorem fills_of_held {pick : Leaves → List α} {reading : Reading} (hu : b.Uniform name)
    (hpick : ∀ ls : Leaves, ls.isText = b.isTextual name → (pick ls).length = ls.size)
    (h : reading ∈ b.held name) : Fills pick (b.maxima name) reading where
  consistent := (consistent_of_held h).1
  count := (hpick _ (hu reading h).2).trans (consistent_of_held h).2
  bounded := bounded_of_held hu h

/-! ### The layout -/

/-- An array with a row per record in which every level of a field is padded to its largest count:
each leaf of a record stands in the record's row, in the slot of its positions, and all other slots
are blank. -/
structure Padded (b : Batch) (name : String) (array : FieldArray) : Prop where
  /-- The records that hold the field agree on its depth and kind. -/
  uniform : b.Uniform name
  dims : array.dims = b.size :: b.maxima name
  kind : array.leaves.isText = b.isTextual name
  size : array.leaves.size = b.size * volume (b.maxima name)
  /-- Every leaf of a record is reached by positions, and by one list of positions only. -/
  reached : ∀ record reading l, b.reading? name record = some reading → l < reading.leaves.size →
    ∃! positions, reading.repeats.leafAt? positions = some l
  /-- A leaf stands in the row of its record, in the row-major slot of its positions. -/
  leaf : ∀ record reading positions l, b.reading? name record = some reading →
    reading.repeats.leafAt? positions = some l →
      l < reading.leaves.size ∧ slot (b.maxima name) positions < volume (b.maxima name) ∧
        array.leaves.leaf? (record * volume (b.maxima name) + slot (b.maxima name) positions) =
          reading.leaves.leaf? l
  /-- Different leaves of a record stand in different slots. -/
  apart : ∀ record reading p q l k, b.reading? name record = some reading →
    reading.repeats.leafAt? p = some l → reading.repeats.leafAt? q = some k →
      slot (b.maxima name) p = slot (b.maxima name) q → l = k
  /-- A slot of a row that no leaf of the record stands in is blank. -/
  blank : ∀ record s, record < b.size → s < volume (b.maxima name) →
    (∀ reading positions l, b.reading? name record = some reading →
      reading.repeats.leafAt? positions = some l → slot (b.maxima name) positions ≠ s) →
    array.leaves.leaf? (record * volume (b.maxima name) + s) =
      some (Leaf.blank (b.isTextual name) b.policy)

/-- The rows of an assembled field, each as its record demands. -/
theorem rowOf_mapM {cells : List (Option Reading)} {blank : α} {pick : Leaves → List α}
    {sizes : List Nat} {rows : List (List α)}
    (hfills : ∀ reading, some reading ∈ cells → Fills pick sizes reading)
    (h : cells.mapM (recordRow blank pick (volume sizes) (volumesBelow sizes)) = .ok rows) :
    (∀ row ∈ rows, row.length = volume sizes) ∧ rows.length = cells.length ∧
      ∀ (record : Nat) (cell : Option Reading), cells[record]? = some cell →
        ∃ row, rows[record]? = some row ∧ RowOf blank pick sizes cell row := by
  obtain ⟨hlen, hrows⟩ := mapM_eq_ok_iff.1 h
  refine ⟨fun row hrow => ?_, hlen, fun record cell hcell => ?_⟩
  · obtain ⟨cell, hcell, hrow⟩ := exists_of_mem_mapM h hrow
    exact (rowOf_recordRow (fun reading hr => hfills reading (hr ▸ hcell)) hrow).length
  · obtain ⟨row, hrow, hrec⟩ := hrows record cell hcell
    have hmem := List.mem_iff_getElem?.2 ⟨record, hcell⟩
    exact ⟨row, hrow, rowOf_recordRow (fun reading hr => hfills reading (hr ▸ hmem)) hrec⟩

/-- A field that nobody holds is a column of blanks. -/
theorem padded_of_held_nil (hu : b.Uniform name) (hheld : b.held name = []) (dimPaths : List String) :
    b.Padded name ⟨name, none, [b.size], dimPaths,
      .numeric (List.replicate b.size b.policy.sentinel)⟩ := by
  -- There are no readings to speak about.
  have hnone : ∀ record reading, b.reading? name record ≠ some reading := fun record reading hr =>
    absurd (mem_held_of_reading? hr) (by simp [hheld])
  have hmaxima := maxima_of_held_nil hheld
  have htext := isTextual_of_held_nil hheld
  refine ⟨hu, by rw [hmaxima], by rw [htext]; rfl, by simp [hmaxima, Leaves.size], ?_, ?_, ?_, ?_⟩
  · exact fun record reading _ hr _ => absurd hr (hnone record reading)
  · exact fun record reading _ _ hr _ => absurd hr (hnone record reading)
  · exact fun record reading _ _ _ _ hr _ _ _ => absurd hr (hnone record reading)
  · intro record s hrecord hs _
    obtain rfl : s = 0 := by simpa [hmaxima] using hs
    simp [hmaxima, htext, Leaves.leaf?, Leaf.blank, hrecord]

section Rows

variable {blank : α} {pick : Leaves → List α} {wrap : α → Leaf} {rows : List (List α)}
  {array : FieldArray}

/-- The readings of a uniform field fill rows of the field's block. -/
theorem fills_of_mem_cells
    (hout : Assembled blank pick wrap (b.isTextual name) b.policy array.leaves rows.flatten)
    (hu : b.Uniform name) {reading : Reading} (hmem : some reading ∈ b.cells name) :
    Fills pick (b.maxima name) reading :=
  fills_of_held hu (fun ls hls => (hout.pick ls hls).1)
    (filterMap_cells b name ▸ List.mem_filterMap.2 ⟨_, hmem, rfl⟩)

/-- What stands in a slot of a record's row. -/
theorem exists_rowOf
    (hout : Assembled blank pick wrap (b.isTextual name) b.policy array.leaves rows.flatten)
    (hu : b.Uniform name)
    (hrows : (b.cells name).mapM
      (recordRow blank pick (volume (b.maxima name)) (volumesBelow (b.maxima name))) = .ok rows)
    {record s : Nat} (hrecord : record < b.size) (hs : s < volume (b.maxima name)) :
    ∃ row, RowOf blank pick (b.maxima name) (b.reading? name record) row ∧
      array.leaves.leaf? (record * volume (b.maxima name) + s) = row[s]?.map wrap := by
  obtain ⟨huniform, -, hrow⟩ := rowOf_mapM (fun _ => fills_of_mem_cells hout hu) hrows
  obtain ⟨row, hget, hof⟩ := hrow record _ (getElem?_cells hrecord)
  refine ⟨row, hof, ?_⟩
  rw [hout.leaf, Grid.getElem?_flatten_of_uniform huniform record hs, hget]
  rfl

/-- An array that is made of the rows of all records, one behind the other, is laid out so. -/
theorem padded_of_rows
    (hout : Assembled blank pick wrap (b.isTextual name) b.policy array.leaves rows.flatten)
    (hu : b.Uniform name) (hdims : array.dims = b.size :: b.maxima name)
    (hrows : (b.cells name).mapM
      (recordRow blank pick (volume (b.maxima name)) (volumesBelow (b.maxima name))) = .ok rows) :
    b.Padded name array := by
  refine ⟨hu, hdims, hout.kind, ?_, ?_, ?_, ?_, ?_⟩
  · obtain ⟨huniform, hlen, -⟩ := rowOf_mapM (fun _ => fills_of_mem_cells hout hu) hrows
    rw [hout.size, Grid.length_flatten_of_uniform huniform, hlen, length_cells]
  · intro record reading l hr hl
    obtain ⟨hc, hcount⟩ := consistent_of_held (mem_held_of_reading? hr)
    exact existsUnique_leafAt? hc (hcount ▸ hl)
  · intro record reading positions l hr hl
    have hheld := mem_held_of_reading? hr
    have hlt := slot_lt (within_of_reach? (bounded_of_held hu hheld) hl)
    obtain ⟨row, hof, hget⟩ := exists_rowOf hout hu hrows (lt_size_of_reading? hr) hlt
    refine ⟨(consistent_of_held hheld).2 ▸ lt_leafCount hl, hlt, ?_⟩
    rw [hget, hof.leaf reading positions l hr hl, (hout.pick _ (hu reading hheld).2).2]
  · -- One slot, so the same positions, so one leaf.
    intro record reading p q l k hr hp hq heq
    have hbounded := bounded_of_held hu (mem_held_of_reading? hr)
    obtain rfl := slot_injective (within_of_reach? hbounded hp) (within_of_reach? hbounded hq) heq
    exact Option.some.inj (hp.symm.trans hq)
  · intro record s hrecord hs hfree
    obtain ⟨row, hof, hget⟩ := exists_rowOf hout hu hrows hrecord hs
    rw [hget, hof.blank s hs hfree, ← hout.blank]
    rfl

end Rows

/-- Every array that is answered for a field is laid out so. -/
theorem padded_of_get {array : FieldArray} (h : (b.get name).outcome = .ok array) :
    b.Padded name array := by
  unfold get at h
  simp only [Logged.outcome_bind, Logged.outcome_monadLift, bind_eq_ok_iff] at h
  obtain ⟨cells, hcells, shape, hshape, h⟩ := h
  obtain ⟨-, rfl⟩ := observed_eq_ok hcells
  obtain ⟨hu, hdefault⟩ := uniform_of_commonShape hshape
  cases shape with
  | none =>
    rw [← Except.ok.inj h]
    exact padded_of_held_nil hu ((held_eq_nil_iff_of_shape hshape).2 rfl) []
  | some shape =>
    obtain ⟨depth, isText⟩ := shape
    simp only [Option.getD_some, Prod.mk.injEq] at hdefault
    obtain ⟨rfl, rfl⟩ := hdefault
    simp only [Logged.outcome_bind, Logged.outcome_monadLift, Logged.outcome_pure,
      Logged.outcome_report, bind_eq_ok_iff, Except.ok.injEq] at h
    -- The sizes are the maxima of the batch, and neither their product nor a stride overflowed.
    rw [commonMaxima_eq hu, List.drop_zero] at h
    obtain ⟨width, hwidth, strides, hstrides, -, -, leaves, hleaves, -, -, rfl⟩ := h
    obtain rfl := Size.product_eq_ok hwidth
    obtain rfl := eq_volumesBelow hstrides
    obtain ⟨α, blank, pick, wrap, out, hout, hassembled⟩ := assemble_eq_ok hleaves
    obtain ⟨rows, hrows, rfl⟩ := map_eq_ok_iff.1 hout
    exact padded_of_rows hassembled hu rfl hrows

/-- **Every leaf keeps its place.** Whatever records are offered, those that are consistent stay,
and an array that is answered for a field has the leaves of every one of them in its row, each in
the slot of its positions, and blanks in all other slots. -/
theorem leaves_keep_places (names : List String) (policy : MissingPolicy) (offered : List Record)
    {name : String} {array : FieldArray}
    (h : ((ofOffers names policy offered).get name).outcome = .ok array) :
    (ofOffers names policy offered).policy = policy ∧
      (ofOffers names policy offered).records = offered.filter (fun r => r.fault?.isNone) ∧
        (ofOffers names policy offered).Padded name array :=
  ⟨policy_ofOffers names policy offered, records_ofOffers names policy offered, padded_of_get h⟩

/-- Records with uneven counts, of which the second has counts that do not fit together. -/
def unevenRecords : List Record := [
  ⟨[.repeated "T" (.numeric [1, 2, 3]) [1, 2] ⟨[[2], [1, 2]]⟩], by decide⟩,
  ⟨[.repeated "T" (.numeric [4]) [1, 2] ⟨[[2], [1]]⟩], by decide⟩,
  ⟨[.absent "T"], by decide⟩,
  ⟨[.repeated "T" (.numeric [5, 6]) [1, 2] ⟨[[3], [0, 0, 2]]⟩], by decide⟩]

/-- The array of `unevenRecords`: three records, three outer and two inner slots. -/
theorem leaves_keep_places_uneven :
    ((ofOffers ["T"] .standard unevenRecords).get "T").outcome =
        .ok ⟨"T", none, [3, 3, 2], [], .numeric [
          1, 1e11, 2, 3, 1e11, 1e11,
          1e11, 1e11, 1e11, 1e11, 1e11, 1e11,
          1e11, 1e11, 1e11, 1e11, 5, 6]⟩ ∧
      (ofOffers ["T"] .standard unevenRecords).Padded "T" ⟨"T", none, [3, 3, 2], [], .numeric [
          1, 1e11, 2, 3, 1e11, 1e11,
          1e11, 1e11, 1e11, 1e11, 1e11, 1e11,
          1e11, 1e11, 1e11, 1e11, 5, 6]⟩ :=
  ⟨rfl, (leaves_keep_places ["T"] .standard unevenRecords rfl).2.2⟩

end Batch

end ObsExport
