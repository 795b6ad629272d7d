import ObsExport.Proofs.Observed
import ObsExport.Proofs.Selection

/-!
# Grids as sheets

A grid keeps its values in one list, and every access computes a place in it. A sheet is the same
grid without the list: a shape, and what stands in each cell (`Sheet`). A grid shows a sheet
(`Grid.Shows`) if all ways to an element, by its cell, through its row, through its column and by
its number in row-major order, lead to the value of the sheet.

A grid is made in one of four ways (`Grid.Origin`), and edited by selecting rows and by writing
single values (`Grid.Edit`). What an edit does is said twice: of the list of values (`Edit.apply`)
and of cells (`Sheet.edit`). An edit inside the shape can be applied to a grid as far as there is
room for the rows it lists (`Sheet.RoomFor`), and the grid still shows its sheet (`Shows.edit`);
hence so does every run of edits (`Shows.run`).

`cells_survive_selections` says this of all grids, and of tables of fields that rows selected from
selected rows are rows of the table. A shape that can be counted need not be one that can be filled,
and rows that are listed over and over may be too many (`cells_lost_for_room`).
-/

namespace ObsExport

/-- A shape and what stands in each of its cells. -/
structure Sheet where
  height : Nat
  cols : Nat
  cell : Nat → Nat → Option Float

namespace Grid

/-- How a grid is made. -/
inductive Origin where
  | ofValues (rows cols : Nat) (values : List Float)
  | filled (rows cols : Nat) (x : Float)
  | ofColumn (xs : List Float)
  | ofRows (rows : List (List Float))

/-- What changes a grid. -/
inductive Edit where
  | select (indices : List Nat)
  /-- One value, counted in row-major order, becomes another. -/
  | write (i : Nat) (x : Float)

/-- Makes a grid. -/
def Origin.make : Origin → Except Error Grid
  | .ofValues rows cols xs => ofValues? rows cols xs
  | .filled rows cols x => Grid.filled rows cols x
  | .ofColumn xs => .ok (Grid.ofColumn xs)
  | .ofRows rows => ofRows? rows

/-- Edits a grid. -/
def Edit.apply (g : Grid) : Edit → Except Error Grid
  | .select indices => g.select indices
  | .write i x => g.set i x

/-- Makes a grid and edits it. -/
def Origin.run (o : Origin) (edits : List Edit) : Except Error Grid := do
  edits.foldlM Edit.apply (← o.make)

/-! ### Sheets of origins and edits -/

/-- Values that fill a shape that can be counted, a shape for the values of which there is room, rows
of one width. -/
def Origin.Proper : Origin → Prop
  | .ofValues rows cols xs => rows * cols < Size.limit ∧ xs.length = rows * cols
  | .filled rows cols _ => Size.Room .number (rows * cols)
  | .ofColumn _ => True
  | .ofRows rows => ∀ row ∈ rows, row.length = (rows.head?.map List.length).getD 1

/-- The sheet that is made. -/
def Origin.sheet : Origin → Sheet
  | .ofValues rows cols xs => ⟨rows, cols, fun r c => xs[r * cols + c]?⟩
  | .filled rows cols x => ⟨rows, cols, fun _ _ => some x⟩
  | .ofColumn xs => ⟨xs.length, 1, fun r _ => xs[r]?⟩
  | .ofRows rows =>
    ⟨rows.length, (rows.head?.map List.length).getD 1, fun r c => rows[r]?.bind fun row => row[c]?⟩

end Grid

namespace Sheet

open Grid (Edit)

/-- Row `r` becomes the row that is listed in place `r`; of the cells one changes its value. -/
def edit (s : Sheet) : Edit → Sheet
  | .select indices =>
    ⟨indices.length, s.cols, fun r c => indices[r]?.bind fun i => s.cell i c⟩
  | .write i x => ⟨s.height, s.cols, fun r c => if r * s.cols + c = i then some x else s.cell r c⟩

/-- Whether an edit stays inside the shape. -/
def Admits (s : Sheet) : Edit → Prop
  | .select indices => ∀ i ∈ indices, i < s.height
  | .write i _ => i < s.height * s.cols

/-- Whether every edit stays inside the shape that the edits before it leave. -/
def AdmitsAll (s : Sheet) : List Edit → Prop
  | [] => True
  | e :: edits => s.Admits e ∧ (s.edit e).AdmitsAll edits

/-- Whether there is room for what an edit makes. Rows may be listed over and over, so a selection
may have more values than the grid. -/
def RoomFor (s : Sheet) : Edit → Prop
  | .select indices => Size.Backed (s.height * s.cols) .number (indices.length * s.cols)
  | .write _ _ => True

/-- Whether there is room for every edit, given what the edits before it leave. -/
def RoomForAll (s : Sheet) : List Edit → Prop
  | [] => True
  | e :: edits => s.RoomFor e ∧ (s.edit e).RoomForAll edits

end Sheet

namespace Grid

variable {g : Grid} {s : Sheet} {o : Origin} {e : Edit}

/-- A grid of the shape of a sheet, with the value of the sheet in every cell, whichever way it is
reached. -/
structure Shows (g : Grid) (s : Sheet) : Prop where
  height : g.height = s.height
  cols : g.cols = s.cols
  size : g.values.length = s.height * s.cols
  cells : ∀ r c, r < s.height → c < s.cols → ∃ x row column, s.cell r c = some x ∧
    g.cell? r c = some x ∧ (g.row r = .ok row ∧ row[c]? = some x) ∧
    (g.column c = .ok column ∧ column[r]? = some x) ∧ g.values[r * s.cols + c]? = some x

/-- The other ways to an element lead to its cell. -/
theorem shows_of_cells (hheight : g.height = s.height) (hcols : g.cols = s.cols)
    (hcells : ∀ r c, r < s.height → c < s.cols → g.cell? r c = s.cell r c) : g.Shows s := by
  refine ⟨hheight, hcols, by rw [g.length_values, hheight, hcols], fun r c hr hc => ?_⟩
  have hr' : r < g.height := hheight ▸ hr
  have hc' : c < g.cols := hcols ▸ hc
  obtain ⟨x, hx⟩ := Option.isSome_iff_exists.1 (cell?_isSome_iff.2 ⟨hr', hc'⟩)
  have hrow : g.row r = .ok _ := if_pos (.inl hr')
  -- The value is where cell, row, column and number meet, so it is named once.
  obtain ⟨column, hcolumn⟩ := exists_column hc'
  refine ⟨x, _, column, ?_, hx, ⟨hrow, ?_⟩, ⟨hcolumn, ?_⟩, ?_⟩
  · rw [← hcells r c hr hc, hx]
  · rw [getElem?_row hrow, hx]
  · rw [getElem?_column hcolumn, hx]
  · rw [← hcols, g.getElem?_values r hc', hx]

/-- The cells of a grid are those of the sheet that it shows. -/
theorem Shows.cell?_eq (h : g.Shows s) {r c : Nat} (hr : r < s.height) (hc : c < s.cols) :
    g.cell? r c = s.cell r c := by
  obtain ⟨x, _, _, hcell, hx, -⟩ := h.cells r c hr hc
  rw [hcell, hx]

/-! ### Making -/

/-- Proper origins can be made, and no others. -/
theorem exists_make_iff : (∃ g, o.make = .ok g) ↔ o.Proper := by
  -- A column of numbers is there already, so only the other three can fail.
  cases o with
  | ofValues rows cols xs =>
    simp only [Origin.make, Origin.Proper, ofValues?_eq_ok_iff]
    constructor
    · rintro ⟨g, hword, rfl, rfl, rfl⟩
      exact ⟨hword, g.length_values⟩
    · rintro ⟨hword, hlength⟩
      exact ⟨⟨rows, cols, xs, hlength⟩, hword, rfl, rfl, rfl⟩
  | filled rows cols x =>
    simp only [Origin.make, Origin.Proper, filled_eq_ok_iff]
    constructor
    · rintro ⟨g, hroom, -⟩
      exact hroom
    · intro hroom
      exact ⟨⟨rows, cols, List.replicate (rows * cols) x, by simp⟩, hroom, rfl, rfl, rfl⟩
  | ofColumn xs => exact ⟨fun _ => trivial, fun _ => ⟨_, rfl⟩⟩
  | ofRows rows =>
    simp only [Origin.make, Origin.Proper, ofRows?_eq_ok_iff]
    constructor
    · rintro ⟨g, huniform, -⟩
      exact huniform
    · intro huniform
      exact ⟨⟨_, _, rows.flatten, length_flatten_of_uniform huniform⟩, huniform, rfl, rfl, rfl⟩

/-- A grid that was made shows the sheet of its origin. -/
theorem shows_of_make (h : o.make = .ok g) : g.Shows o.sheet := by
  cases o with
  | ofValues rows cols xs =>
    obtain ⟨-, rfl, rfl, rfl⟩ := ofValues?_eq_ok_iff.1 h
    exact shows_of_cells rfl rfl fun r c _ hc => (g.getElem?_values r hc).symm
  | filled rows cols x =>
    obtain ⟨-, rfl, rfl, hvalues⟩ := filled_eq_ok_iff.1 h
    refine shows_of_cells rfl rfl fun r c hr hc => ?_
    obtain ⟨y, hy⟩ := Option.isSome_iff_exists.1 (cell?_isSome_iff.2 ⟨hr, hc⟩)
    -- There is a value in the cell, and all values are the same.
    have hmem : y ∈ g.values := List.mem_of_getElem? ((g.getElem?_values r hc).trans hy)
    rw [hvalues] at hmem
    rw [hy, List.eq_of_mem_replicate hmem]
    rfl
  | ofColumn xs =>
    obtain rfl := Except.ok.inj h
    refine shows_of_cells rfl rfl fun r c _ hc => ?_
    obtain rfl : c = 0 := Nat.lt_one_iff.1 hc
    exact cell?_ofColumn xs r
  | ofRows rows =>
    obtain ⟨huniform, hheight, hcols, hvalues⟩ := ofRows?_eq_ok_iff.1 h
    refine shows_of_cells hheight hcols fun r c _ hc => ?_
    rw [← g.getElem?_values r (hcols ▸ hc), hvalues, hcols,
      getElem?_flatten_of_uniform huniform r hc]
    rfl

/-! ### Editing -/

/-- **One edit.** An edit inside the shape succeeds if there is room for what it makes, and then the
grid shows the edited sheet. -/
theorem Shows.edit (h : g.Shows s) (he : s.Admits e) :
    ((∃ g', e.apply g = .ok g') ↔ s.RoomFor e) ∧
      ∀ g', e.apply g = .ok g' → g'.Shows (s.edit e) := by
  -- Rows may be listed more often than they are, so a selection needs room, and a write needs none.
  cases e with
  | select indices =>
    have hlt : ∀ i ∈ indices, i < s.height := he
    have hroom : g.HasRoom indices.length ↔ s.RoomFor (.select indices) := by
      rw [HasRoom, h.size, h.cols, Sheet.RoomFor]
    have hselect : (∃ g', g.select indices = .ok g') ↔ g.HasRoom indices.length :=
      exists_select_iff fun i hi => h.height.symm ▸ hlt i hi
    refine ⟨hselect.trans hroom, fun g' hg' => ?_⟩
    obtain ⟨hheight, hcols, -⟩ := select_eq_ok hg'
    refine shows_of_cells hheight (hcols.trans h.cols) fun r c _ hc => ?_
    -- A listed row is in range, so its cells are those of the sheet.
    rw [cell?_select hg' r c]
    show _ = indices[r]?.bind fun i => s.cell i c
    cases hi : indices[r]? with
    | none => rfl
    | some i => exact h.cell?_eq (hlt i (List.mem_of_getElem? hi)) hc
  | write i x =>
    have hlt : i < g.height * g.cols := by
      rw [h.height, h.cols]
      exact he
    refine ⟨iff_of_true ⟨_, if_pos hlt⟩ trivial, fun g' hset => ?_⟩
    obtain ⟨-, hheight, hcols, -⟩ := set_eq_ok hset
    refine shows_of_cells (hheight.trans h.height) (hcols.trans h.cols) fun r c hr hc => ?_
    rw [cell?_set hset r (h.cols.symm ▸ hc), h.cols, h.cell?_eq hr hc]
    rfl

/-- **A run of edits.** Edits that stay inside the shape succeed one after another as far as there is
room, and in the end the grid shows the sheet that they make. -/
theorem Shows.run {edits : List Edit} (h : g.Shows s) (he : s.AdmitsAll edits) :
    ((∃ g', edits.foldlM Edit.apply g = .ok g') ↔ s.RoomForAll edits) ∧
      ∀ g', edits.foldlM Edit.apply g = .ok g' → g'.Shows (edits.foldl Sheet.edit s) := by
  -- Every edit is inside the shape that the sheet has by then, so the sheet goes along.
  induction edits generalizing g s with
  | nil =>
    refine ⟨iff_of_true ⟨g, rfl⟩ trivial, fun g' hg' => ?_⟩
    obtain rfl := Except.ok.inj hg'
    exact h
  | cons e edits ih =>
    obtain ⟨hfirst, hrest⟩ := he
    obtain ⟨hroom, hshows⟩ := h.edit hfirst
    simp only [List.foldlM_cons, bind_eq_ok_iff]
    constructor
    · constructor
      · rintro ⟨g', next, hnext, hg'⟩
        exact ⟨hroom.1 ⟨next, hnext⟩, (ih (hshows next hnext) hrest).1.1 ⟨g', hg'⟩⟩
      · rintro ⟨hfor, hforAll⟩
        obtain ⟨next, hnext⟩ := hroom.2 hfor
        -- The first edit is made, and what it leaves shows the sheet for the rest.
        obtain ⟨g', hg'⟩ := (ih (hshows next hnext) hrest).1.2 hforAll
        exact ⟨g', next, hnext, hg'⟩
    · rintro g' ⟨next, hnext, hg'⟩
      exact (ih (hshows next hnext) hrest).2 g' hg'

end Grid

open Grid

/-- **Cells survive selections.** A grid can be made exactly from a proper origin, and then be
edited inside its shape as often as there is room for the rows that are listed: it shows the sheet
that the origin and the edits make, so that all ways to an element agree. Of a table with as many
rows in every field, all rows in their order are the table. Rows can be selected as far as there is
room for them in every field; a selection has as many rows as were listed, and rows selected from
selected rows are those that are listed where the second list says. -/
theorem cells_survive_selections :
    (∀ (o : Origin) (edits : List Edit), o.sheet.AdmitsAll edits →
      ((∃ g, o.run edits = .ok g) ↔ o.Proper ∧ o.sheet.RoomForAll edits) ∧
        ∀ g, o.run edits = .ok g → g.Shows (edits.foldl Sheet.edit o.sheet)) ∧
    ∀ (t : FieldTable) (n : Nat), t.checkRows = .ok n →
      t.select (List.range n) = .ok t ∧
        ∀ indices, (∀ i ∈ indices, i < n) →
          ((∃ t', t.select indices = .ok t') ↔ t.HasRoom indices.length) ∧
          ∀ t', t.select indices = .ok t' → t'.checkRows = .ok indices.length ∧
            ∀ rows t'', (∀ r ∈ rows, r < indices.length) → t'.select rows = .ok t'' →
              t.select (rows.map fun r => indices[r]?.getD 0) = .ok t'' := by
  constructor
  · intro o edits hadmits
    -- What is made shows the sheet of its origin, and the edits take it from there.
    have hrun : ∀ g, o.make = .ok g →
        ((∃ g', edits.foldlM Edit.apply g = .ok g') ↔ o.sheet.RoomForAll edits) ∧
          ∀ g', edits.foldlM Edit.apply g = .ok g' → g'.Shows (edits.foldl Sheet.edit o.sheet) :=
      fun g hg => (shows_of_make hg).run hadmits
    simp only [Origin.run, bind_eq_ok_iff, ← exists_make_iff]
    constructor
    · constructor
      · rintro ⟨g', g, hg, hg'⟩
        exact ⟨⟨g, hg⟩, (hrun g hg).1.1 ⟨g', hg'⟩⟩
      · rintro ⟨⟨g, hg⟩, hroom⟩
        obtain ⟨g', hg'⟩ := (hrun g hg).1.2 hroom
        exact ⟨g', g, hg, hg'⟩
    · rintro g' ⟨g, hg, hg'⟩
      exact (hrun g hg).2 g' hg'
  · intro t n hrows
    -- The second list looks up places of the first, and that is one list.
    refine ⟨FieldTable.select_range hrows, fun indices hindices => ?_⟩
    refine ⟨FieldTable.exists_select_iff hrows hindices, fun t' ht' => ?_⟩
    refine ⟨FieldTable.checkRows_select hrows ht' hindices, fun rows t'' hplaces ht'' => ?_⟩
    exact FieldTable.select_select (composes_map hplaces) ht' ht''

/-- Stations and winds of three records. -/
def threeRecords : FieldTable :=
  ⟨[("station", .text ["EDDM", "KSFO", "RJTT"]),
    ("wind", .numeric ⟨3, 2, [1, 2, 3, 4, 5, 6], rfl⟩)], by decide⟩

/-- The last row twice with the first between them: the value that is written lands in the middle
row, and the rows around it are those that were listed. -/
theorem cells_survive_selections_last_first_last :
    (∃ g, (Origin.ofRows [[1, 2], [3, 4], [5, 6]]).run [.select [2, 0, 2], .write 3 9] = .ok g ∧
      g.cell? 0 0 = some 5 ∧ g.cell? 1 1 = some 9 ∧ g.cell? 2 1 = some 6) ∧
    threeRecords.checkRows = .ok 3 ∧
    ∃ t' t'', threeRecords.select [2, 0, 2] = .ok t' ∧ t'.checkRows = .ok 3 ∧
      t'.select [1, 2, 1] = .ok t'' ∧ threeRecords.select [0, 2, 0] = .ok t'' := by
  have hrows : threeRecords.checkRows = .ok 3 := rfl
  have hadmits : (Origin.ofRows [[1, 2], [3, 4], [5, 6]]).sheet.AdmitsAll
      [.select [2, 0, 2], .write 3 9] := by
    refine ⟨?_, ?_, trivial⟩
    · show ∀ i ∈ [2, 0, 2], i < 3
      decide
    · show 3 < 3 * 2
      decide
  have hroom : (Origin.ofRows [[1, 2], [3, 4], [5, 6]]).sheet.RoomForAll
      [.select [2, 0, 2], .write 3 9] :=
    ⟨(by decide : Size.Backed (3 * 2) .number (3 * 2)), trivial, trivial⟩
  obtain ⟨hmade, hshows⟩ := cells_survive_selections.1 _ _ hadmits
  obtain ⟨g, hg⟩ := hmade.2 ⟨by simp [Origin.Proper], hroom⟩
  have hcell {r c : Nat} (hr : r < 3) (hc : c < 2) := (hshows g hg).cell?_eq hr hc
  -- Three rows are no more than there are, so there is room for both selections.
  obtain ⟨-, hselections⟩ := cells_survive_selections.2 threeRecords 3 hrows
  obtain ⟨hselect, hselected⟩ := hselections [2, 0, 2] (by decide)
  obtain ⟨t', ht'⟩ := hselect.2 (FieldTable.hasRoom_of_le hrows (Nat.le_refl 3))
  obtain ⟨hrows', hagain⟩ := hselected t' ht'
  obtain ⟨-, hselections'⟩ := cells_survive_selections.2 t' 3 hrows'
  obtain ⟨t'', ht''⟩ :=
    (hselections' [1, 2, 1] (by decide)).1.2 (FieldTable.hasRoom_of_le hrows' (Nat.le_refl 3))
  exact ⟨⟨g, hg, hcell (by decide) (by decide), hcell (by decide) (by decide),
    hcell (by decide) (by decide)⟩, hrows, t', t'', ht', hrows', ht'',
    hagain [1, 2, 1] t'' (by decide) ht''⟩

/-- How many numbers `wideRecord` has, which is `2 ^ 30`. -/
def wide : Nat := 0x40000000

/-- One record of many numbers. -/
def wideRecord : FieldTable :=
  ⟨[("spectrum", .numeric ⟨1, wide, List.replicate wide 0, by
    rw [List.length_replicate, Nat.one_mul]⟩)], List.pairwise_singleton _ _⟩

/-- **Room is not always there.** A shape of `2 ^ 60` values can be counted and not be filled. The
one row of `wideRecord` cannot be selected `2 ^ 30` times, so nothing can be selected from these
repetitions, while nothing can well be selected from the record itself. -/
theorem cells_lost_for_room :
    (0x1000000000000000 * 1 < Size.limit ∧
      ∀ g, (Origin.filled 0x1000000000000000 1 0).run [] ≠ .ok g) ∧
    wideRecord.checkRows = .ok 1 ∧ (∀ i ∈ List.replicate wide 0, i < 1) ∧
    (∀ t', wideRecord.select (List.replicate wide 0) ≠ .ok t') ∧
    ∃ t'', wideRecord.select [] = .ok t'' := by
  have hrows : wideRecord.checkRows = .ok 1 := rfl
  have hzeros : ∀ i ∈ List.replicate wide 0, i < 1 := by
    intro i hi
    rw [List.eq_of_mem_replicate hi]
    exact Nat.one_pos
  refine ⟨⟨by decide, fun g hg => ?_⟩, hrows, hzeros, fun t' ht' => ?_, ?_⟩
  · obtain ⟨made, hmade, -⟩ := bind_eq_ok_iff.1 hg
    have hroom : Size.Room .number (0x1000000000000000 * 1) := exists_make_iff.1 ⟨made, hmade⟩
    exact absurd hroom (by decide)
  · -- The repetitions have `2 ^ 60` values: more than the record backs, and more than fit.
    have hroom := (FieldTable.exists_select_iff hrows hzeros).1 ⟨t', ht'⟩ "spectrum" _ rfl
    rw [Values.HasRoom, Grid.HasRoom, List.length_replicate, List.length_replicate] at hroom
    exact absurd hroom (by decide)
  · exact FieldTable.exists_select_of_ascending hrows List.Pairwise.nil
      fun i hi => absurd hi List.not_mem_nil

end ObsExport
