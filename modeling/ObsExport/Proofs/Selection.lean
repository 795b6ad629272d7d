import ObsExport.FieldTable
import Mathlib.Data.List.Perm.Subperm

/-!
# Selected rows

A selection of rows lists row numbers; row `r` of the selection is the row that the list names in
place `r` (`Grid.cell?_select`). So a selection from a selection is a selection: the row numbers are
looked up in the first list (`FieldTable.select_select`). All rows in their order select the table
itself (`FieldTable.select_range`).

Row numbers below the number of rows can be selected if there is room for so many rows
(`FieldTable.exists_select_iff`). There is if they ascend, as the rows do that filters leave and
that a partition lists (`FieldTable.exists_select_of_ascending`), but rows may also be listed over
and over.
-/

namespace ObsExport

/-- Places that are picked from a list are ascending. -/
theorem pairwise_filter_zipIdx {α : Type} (l : List α) (p : α × Nat → Bool) :
    ((l.zipIdx.filter p).map Prod.snd).Pairwise (· < ·) := by
  have hall : (l.zipIdx.map Prod.snd).Pairwise (· < ·) := by
    rw [List.zipIdx_map_snd]
    exact List.pairwise_lt_range'
  exact hall.sublist (List.filter_sublist.map Prod.snd)

/-- Ascending numbers below a bound are at most as many as the bound says. -/
theorem length_le_of_ascending {l : List Nat} {n : Nat} (hascending : l.Pairwise (· < ·))
    (hlt : ∀ i ∈ l, i < n) : l.length ≤ n := by
  have hsub : l ⊆ List.range n := fun i hi => List.mem_range.2 (hlt i hi)
  calc l.length ≤ (List.range n).length :=
        (List.subperm_of_subset (hascending.imp Nat.ne_of_lt) hsub).length_le
    _ = n := List.length_range

/-! ### Grids -/

namespace Grid

variable {g g' g'' : Grid} {indices rows composed : List Nat}

/-- There is room for a number of rows like those of a grid. -/
def HasRoom (g : Grid) (rows : Nat) : Prop := Size.Backed g.values.length .number (rows * g.cols)

/-- There is room for as many rows as there are. -/
theorem hasRoom_of_le {n : Nat} (h : n ≤ g.height) : g.HasRoom n :=
  .inl (g.length_values ▸ Nat.mul_le_mul_right _ h)

/-- The values of a grid back a list with an entry per row if the grid has columns. -/
theorem backed_height_iff {entry : Size.Entry} : Size.Backed g.values.length entry g.height ↔
    Size.Room entry g.height ∨ 0 < g.cols := by
  rw [Size.Backed, g.length_values, or_comm]
  by_cases hroom : Size.Room entry g.height
  · simp [hroom]
  · -- For no rows there is room, so there are some, and these are at most as many as the values.
    have hrows : 0 < g.height := by
      refine Nat.pos_of_ne_zero fun hzero => hroom ?_
      rw [hzero]
      exact Size.room_zero
    simp only [hroom, false_or]
    constructor
    · intro hle
      exact Nat.pos_of_mul_pos_left (Nat.lt_of_lt_of_le hrows hle)
    · exact Nat.le_mul_of_pos_right _

/-- Rows are selected one by one, if there is room for all of them. -/
theorem select_eq_ok_iff : g.select indices = .ok g' ↔
    g.HasRoom indices.length ∧ g'.height = indices.length ∧ g'.cols = g.cols ∧
      ∃ rows, indices.mapM g.row = .ok rows ∧ g'.values = rows.flatten := by
  unfold select
  simp only [bind_eq_ok_iff, Size.reserveBeyond_eq_ok_iff, exists_const]
  refine and_congr_right fun _ => ?_
  -- The room is asked for before the first row is read.
  split
  next e he => simp [he, throw, throwThe, MonadExceptOf.throw]
  next rows hrows =>
    simp only [hrows, pure, Except.pure, Except.ok.injEq, exists_eq_left']
    constructor
    · rintro rfl
      simp
    · rintro ⟨hheight, hcols, hvalues⟩
      exact Grid.ext hheight.symm hcols.symm hvalues.symm

theorem select_eq_ok (h : g.select indices = .ok g') :
    g'.height = indices.length ∧ g'.cols = g.cols ∧
      ∃ rows, indices.mapM g.row = .ok rows ∧ g'.values = rows.flatten :=
  (select_eq_ok_iff.1 h).2

/-- Row `r` of a selection is the row that the list names in place `r`. -/
theorem cell?_select (h : g.select indices = .ok g') (r c : Nat) :
    g'.cell? r c = indices[r]?.bind fun i => g.cell? i c := by
  obtain ⟨-, hcols, rows, hrows, hvalues⟩ := select_eq_ok h
  have huniform : ∀ row ∈ rows, row.length = g.cols := by
    intro row hrow
    obtain ⟨i, -, hi⟩ := exists_of_mem_mapM hrows hrow
    exact length_of_row hi
  obtain ⟨hlen, hall⟩ := mapM_eq_ok_iff.1 hrows
  -- All rows that were copied are as wide as the grid, so the cells are those of the rows.
  by_cases hc : c < g.cols
  · rw [← g'.getElem?_values r (hcols ▸ hc), hvalues, hcols,
      getElem?_flatten_of_uniform huniform r hc]
    cases hi : indices[r]? with
    | none =>
      rw [List.getElem?_eq_none_iff] at hi
      rw [List.getElem?_eq_none_iff.2 (by omega)]
      rfl
    | some i =>
      obtain ⟨row, hrow, hread⟩ := hall r i hi
      rw [hrow]
      exact getElem?_row hread c
  · -- Beyond the columns there is nothing in either grid.
    have hnone : ∀ i, g.cell? i c = none := fun i => by simp [cell?, hc]
    have hnone' : g'.cell? r c = none := by simp [cell?, hcols, hc]
    rw [hnone']
    cases indices[r]? <;> simp [hnone]

theorem exists_select (hroom : g.HasRoom indices.length)
    (h : ∀ i ∈ indices, ∃ row, g.row i = .ok row) : ∃ g', g.select indices = .ok g' := by
  obtain ⟨rows, hrows⟩ := exists_mapM_eq_ok h
  have hlength : rows.flatten.length = indices.length * g.cols := by
    rw [← length_of_mapM hrows]
    refine length_flatten_of_uniform fun row hrow => ?_
    obtain ⟨_, _, hr⟩ := exists_of_mem_mapM hrows hrow
    exact length_of_row hr
  exact ⟨⟨_, _, rows.flatten, hlength⟩,
    select_eq_ok_iff.2 ⟨hroom, rfl, rfl, rows, hrows, rfl⟩⟩

/-- Rows that are there can be selected as far as there is room for them. -/
theorem exists_select_iff (h : ∀ i ∈ indices, i < g.height) :
    (∃ g', g.select indices = .ok g') ↔ g.HasRoom indices.length :=
  ⟨fun ⟨_, hg'⟩ => (select_eq_ok_iff.1 hg').1,
    fun hroom => exists_select hroom fun i hi => ⟨_, if_pos (.inl (h i hi))⟩⟩

/-- All rows in their order are the grid. -/
theorem select_range (g : Grid) : g.select (List.range g.height) = .ok g := by
  have hroom : g.HasRoom (List.range g.height).length := by
    rw [List.length_range]
    exact hasRoom_of_le (Nat.le_refl _)
  obtain ⟨g', hg'⟩ := (exists_select_iff fun i => List.mem_range.1).2 hroom
  obtain ⟨hheight, hcols, -⟩ := select_eq_ok hg'
  rw [List.length_range] at hheight
  rw [hg']
  -- The list of all rows names each row in its own place.
  refine congrArg Except.ok (ext_cell? hheight hcols fun r c hr _ => ?_)
  rw [cell?_select hg', List.getElem?_range (hheight ▸ hr), Option.bind_some]

end Grid

/-! ### Rows of rows -/

/-- The numbers that some places of a list of numbers hold. -/
def Composes (indices rows composed : List Nat) : Prop :=
  rows.map (fun r => indices[r]?) = composed.map some

variable {indices rows composed : List Nat}

/-- Each place of the composed list looks up the first list where the second says. -/
theorem Composes.getElem? (h : Composes indices rows composed) (r : Nat) :
    (rows[r]?.bind fun j => indices[j]?) = composed[r]? := by
  have hr := congrArg (fun l => l[r]?) h
  simp only [List.getElem?_map] at hr
  cases hrow : rows[r]? <;> cases hcomp : composed[r]? <;> simp_all

/-- There are as many composed numbers as places. -/
theorem Composes.length (h : Composes indices rows composed) : composed.length = rows.length := by
  have := congrArg List.length h
  simpa using this.symm

/-- The numbers in the composed list are those in the places that are asked for. -/
theorem Composes.mem_iff (h : Composes indices rows composed) {i : Nat} :
    i ∈ composed ↔ ∃ r ∈ rows, indices[r]? = some i := by
  have hmem : some i ∈ composed.map some ↔ some i ∈ rows.map fun r => indices[r]? := by rw [h]
  simpa using hmem

/-- Places that are there are composed by looking them up. -/
theorem composes_map (h : ∀ r ∈ rows, r < indices.length) :
    Composes indices rows (rows.map fun r => indices[r]?.getD 0) := by
  rw [Composes, List.map_map]
  refine List.map_congr_left fun r hr => ?_
  simp [h r hr]

theorem exists_composes (h : ∀ r ∈ rows, r < indices.length) :
    ∃ composed, Composes indices rows composed := ⟨_, composes_map h⟩

/-- Ascending places of an ascending list. -/
theorem Composes.pairwise (h : Composes indices rows composed) (hi : indices.Pairwise (· < ·))
    (hr : rows.Pairwise (· < ·)) : composed.Pairwise (· < ·) := by
  rw [List.pairwise_iff_getElem] at hi hr ⊢
  intro a b ha hb hab
  -- A number of the composed list is the one that the place of the same number leads to.
  have hplace : ∀ c (hc : c < composed.length), ∃ (hc' : c < rows.length)
      (hr : rows[c] < indices.length), indices[rows[c]] = composed[c] := by
    intro c hc
    have hget := h.getElem? c
    rw [List.getElem?_eq_getElem hc, List.getElem?_eq_getElem (h.length ▸ hc)] at hget
    obtain ⟨hlt, heq⟩ := List.getElem?_eq_some_iff.1 hget
    exact ⟨h.length ▸ hc, hlt, heq⟩
  obtain ⟨ha', hra, hia⟩ := hplace a ha
  obtain ⟨hb', hrb, hib⟩ := hplace b hb
  rw [← hia, ← hib]
  exact hi _ _ hra hrb (hr a b ha' hb' hab)

/-- A selection from a selected grid is a selection from the grid. -/
theorem Grid.select_select {g g' g'' : Grid} (hc : Composes indices rows composed)
    (h : g.select indices = .ok g') (h' : g'.select rows = .ok g'') :
    g.select composed = .ok g'' := by
  obtain ⟨hroom, hheight, hcols, kept, hkept, -⟩ := Grid.select_eq_ok_iff.1 h
  obtain ⟨hroom', hheight', hcols', -⟩ := Grid.select_eq_ok_iff.1 h'
  -- There was room for the rows in between, and among these for the rows of the composed list.
  have hcomposed : g.HasRoom composed.length := by
    rw [Grid.HasRoom, g'.length_values, hheight, hcols, ← hc.length] at hroom'
    exact Size.Backed.trans hroom hroom'
  have hrow : ∀ i ∈ composed, ∃ row, g.row i = .ok row := by
    intro i hi
    obtain ⟨r, -, hr⟩ := hc.mem_iff.1 hi
    obtain ⟨row, -, hrow⟩ := (mapM_eq_ok_iff.1 hkept).2 r i hr
    exact ⟨row, hrow⟩
  -- The rows that are listed were copied before, so they are there, and cells tell grids apart.
  obtain ⟨direct, hdirect⟩ := Grid.exists_select hcomposed hrow
  obtain ⟨hheight₁, hcols₁, -⟩ := Grid.select_eq_ok hdirect
  rw [hdirect]
  refine congrArg Except.ok (Grid.ext_cell? ?_ (by rw [hcols₁, hcols', hcols]) fun r c _ _ => ?_)
  · rw [hheight₁, hheight', hc.length]
  · rw [Grid.cell?_select hdirect, Grid.cell?_select h', ← hc.getElem? r, Option.bind_assoc]
    exact Option.bind_congr fun j _ => (Grid.cell?_select h j c).symm

/-- Places of a list of places. -/
theorem mapM_required_comp {α : Type} {entries kept out : List α}
    (hc : Composes indices rows composed)
    (h : (indices.mapM fun i => required entries[i]?) = .ok kept)
    (h' : (rows.mapM fun r => required kept[r]?) = .ok out) :
    (composed.mapM fun i => required entries[i]?) = .ok out := by
  obtain ⟨hlen, hkept⟩ := mapM_eq_ok_iff.1 h
  obtain ⟨hlen', hout⟩ := mapM_eq_ok_iff.1 h'
  refine mapM_eq_ok_iff.2 ⟨by rw [hlen', hc.length], fun r i hi => ?_⟩
  rw [← hc.getElem? r, Option.bind_eq_some_iff] at hi
  obtain ⟨j, hj, hi⟩ := hi
  obtain ⟨a, ha, hread⟩ := hout r j hj
  obtain ⟨a', ha', hread'⟩ := hkept j i hi
  rw [required_eq_ok_iff, ha', Option.some.injEq] at hread
  exact ⟨a, ha, hread ▸ hread'⟩

namespace Values

variable {v v' v'' : Values}

/-- There is room for a number of rows like those of some values. -/
def HasRoom : Values → Nat → Prop
  | numeric grid, rows => grid.HasRoom rows
  | text entries, rows => Size.Backed entries.length .text rows

theorem hasRoom_of_le {n : Nat} (h : n ≤ v.height) : v.HasRoom n := by
  cases v with
  | numeric grid => exact Grid.hasRoom_of_le h
  | text entries => exact .inl h

/-- Texts are selected one by one, if there is room for all of them. -/
theorem select_text_eq_ok_iff {entries : List String} :
    (text entries).select indices = .ok v' ↔ (text entries).HasRoom indices.length ∧
      ∃ kept, (indices.mapM fun i => required entries[i]?) = .ok kept ∧ v' = text kept := by
  simp only [Values.select, HasRoom, bind_eq_ok_iff, Size.reserveBeyond_eq_ok_iff, exists_const,
    pure, Except.pure, Except.ok.injEq, eq_comm (a := v')]

theorem select_select (hc : Composes indices rows composed) (h : v.select indices = .ok v')
    (h' : v'.select rows = .ok v'') : v.select composed = .ok v'' := by
  cases v with
  | numeric grid =>
    obtain ⟨grid', hgrid', rfl⟩ := map_eq_ok_iff.1 h
    obtain ⟨grid'', hgrid'', rfl⟩ := map_eq_ok_iff.1 h'
    rw [Values.select, Grid.select_select hc hgrid' hgrid'']
    rfl
  | text entries =>
    obtain ⟨hroom, kept, hkept, rfl⟩ := select_text_eq_ok_iff.1 h
    obtain ⟨hroom', out, hout, rfl⟩ := select_text_eq_ok_iff.1 h'
    -- The texts that were kept are as many as the first list has places.
    rw [HasRoom, length_of_mapM hkept, ← hc.length] at hroom'
    exact select_text_eq_ok_iff.2
      ⟨Size.Backed.trans hroom hroom', out, mapM_required_comp hc hkept hout, rfl⟩

/-- Entries that are there can be selected as far as there is room for them. -/
theorem exists_select_iff (h : ∀ i ∈ indices, i < v.height) :
    (∃ w, v.select indices = .ok w) ↔ v.HasRoom indices.length := by
  cases v with
  | numeric grid =>
    rw [HasRoom, ← Grid.exists_select_iff h]
    constructor
    · rintro ⟨w, hw⟩
      obtain ⟨grid', hgrid', -⟩ := map_eq_ok_iff.1 hw
      exact ⟨grid', hgrid'⟩
    · rintro ⟨grid', hgrid'⟩
      exact ⟨.numeric grid', map_eq_ok_iff.2 ⟨grid', hgrid', rfl⟩⟩
  | text entries =>
    obtain ⟨kept, hkept⟩ := exists_mapM_eq_ok (f := fun i => required entries[i]?) (l := indices)
      fun i hi => ⟨_, required_eq_ok_iff.2 (List.getElem?_eq_getElem (h i hi))⟩
    simp [select_text_eq_ok_iff, hkept]

/-- All entries in their order are the values. -/
theorem select_range (v : Values) : v.select (List.range v.height) = .ok v := by
  cases v with
  | numeric grid =>
    show (grid.select (List.range grid.height)).map numeric = _
    rw [grid.select_range]
    rfl
  | text entries =>
    have hall : ((List.range entries.length).mapM fun i => required entries[i]?) = .ok entries := by
      refine mapM_eq_ok_iff.2 ⟨List.length_range.symm, fun r i hi => ?_⟩
      obtain ⟨hr, rfl⟩ := List.getElem?_eq_some_iff.1 hi
      rw [List.length_range] at hr
      rw [List.getElem_range, List.getElem?_eq_getElem hr]
      exact ⟨_, rfl, rfl⟩
    exact select_text_eq_ok_iff.2 ⟨.inl (Nat.le_of_eq List.length_range), entries, hall, rfl⟩

end Values

/-! ### Tables -/

namespace FieldTable

variable {t t' t'' : FieldTable}

/-- Under a name a selection has the selection of the field, or nothing where the table has nothing.
-/
theorem find?_select (h : FieldTable.select t indices = .ok t') (name : String) :
    (t.find? name = none ∧ t'.find? name = none) ∨
      ∃ v w, t.find? name = some v ∧ v.select indices = .ok w ∧ t'.find? name = some w :=
  Dict.find?_mapM h name

/-- A table can be selected from if every field of it can. -/
theorem exists_select (h : ∀ name v, t.find? name = some v → ∃ w, v.select indices = .ok w) :
    ∃ t', FieldTable.select t indices = .ok t' := by
  unfold FieldTable.select
  exact Dict.exists_mapM fun e he => h e.1 e.2 (Dict.mem_entries_iff.1 he)

/-- There is room for a number of rows like those of a table, in every field. -/
def HasRoom (t : FieldTable) (rows : Nat) : Prop :=
  ∀ name v, t.find? name = some v → v.HasRoom rows

/-- Rows of a batch can be selected as far as there is room for them. -/
theorem exists_select_iff {n : Nat} (hrows : t.checkRows = .ok n) (hlt : ∀ i ∈ indices, i < n) :
    (∃ t', FieldTable.select t indices = .ok t') ↔ t.HasRoom indices.length := by
  -- All fields of a batch have its rows, so what is in range of one is in range of all.
  obtain ⟨rfl, haligned⟩ := checkRows_eq_ok_iff.1 hrows
  have hfield : ∀ {name v}, t.find? name = some v →
      ((∃ w, v.select indices = .ok w) ↔ v.HasRoom indices.length) := by
    intro name v hv
    refine Values.exists_select_iff fun i hi => ?_
    rw [haligned _ (Dict.mem_entries_iff.2 hv)]
    exact hlt i hi
  constructor
  · rintro ⟨t', ht'⟩ name v hv
    rcases find?_select ht' name with ⟨hnone, -⟩ | ⟨v', w, hv', hw, -⟩
    · rw [hnone] at hv
      contradiction
    · obtain rfl := Option.some.inj (hv.symm.trans hv')
      exact (hfield hv).1 ⟨w, hw⟩
  · exact fun hroom => exists_select fun name v hv => (hfield hv).2 (hroom name v hv)

/-- There is room for as many rows as a batch has. -/
theorem hasRoom_of_le {n m : Nat} (hrows : t.checkRows = .ok n) (hle : m ≤ n) : t.HasRoom m := by
  intro name v hv
  obtain ⟨rfl, haligned⟩ := checkRows_eq_ok_iff.1 hrows
  refine Values.hasRoom_of_le ?_
  rwa [haligned _ (Dict.mem_entries_iff.2 hv)]

/-- There is room for ascending rows of a batch, since they are no more than the batch has. -/
theorem exists_select_of_ascending {n : Nat} (hrows : t.checkRows = .ok n)
    (hascending : indices.Pairwise (· < ·)) (hlt : ∀ i ∈ indices, i < n) :
    ∃ t', FieldTable.select t indices = .ok t' :=
  (exists_select_iff hrows hlt).2
    (hasRoom_of_le hrows (length_le_of_ascending hascending hlt))

/-- All rows in their order are the table. -/
theorem select_range {n : Nat} (hrows : t.checkRows = .ok n) :
    FieldTable.select t (List.range n) = .ok t := by
  obtain ⟨t', ht'⟩ := exists_select_of_ascending hrows List.pairwise_lt_range
    fun i => List.mem_range.1
  obtain ⟨rfl, haligned⟩ := checkRows_eq_ok_iff.1 hrows
  rw [ht']
  refine congrArg Except.ok (Dict.ext_find? fun name => ?_)
  rcases find?_select ht' name with ⟨hnone, hnone'⟩ | ⟨v, w, hv, hw, hfind⟩
  · rw [hnone, hnone']
  · have hheight : v.height = t.rowCount := haligned _ (Dict.mem_entries_iff.2 hv)
    rw [← hheight, v.select_range] at hw
    rw [hv, hfind, Except.ok.inj hw]

/-- A selection from a selection is a selection. -/
theorem select_select (hc : Composes indices rows composed)
    (h : FieldTable.select t indices = .ok t') (h' : FieldTable.select t' rows = .ok t'') :
    FieldTable.select t composed = .ok t'' := by
  have hfield : ∀ name v, t.find? name = some v →
      ∃ w, v.select composed = .ok w ∧ t''.find? name = some w := by
    intro name v hv
    rcases find?_select h name with ⟨hnone, -⟩ | ⟨v₁, v', hv₁, hv', hfind'⟩
    · rw [hnone] at hv
      contradiction
    · obtain rfl := Option.some.inj (hv₁.symm.trans hv)
      rcases find?_select h' name with ⟨hnone, -⟩ | ⟨v₂, v'', hv₂, hv'', hfind''⟩
      · rw [hnone] at hfind'
        contradiction
      · obtain rfl := Option.some.inj (hv₂.symm.trans hfind')
        exact ⟨v'', Values.select_select hc hv' hv'', hfind''⟩
  obtain ⟨direct, hdirect⟩ := exists_select fun name v hv =>
    let ⟨w, hw, _⟩ := hfield name v hv
    ⟨w, hw⟩
  -- Under every name both tables have the same selection of the field, or nothing.
  rw [hdirect]
  refine congrArg Except.ok (Dict.ext_find? fun name => ?_)
  rcases find?_select hdirect name with ⟨hnone, hnone'⟩ | ⟨v, w, hv, hw, hfind⟩
  · rcases find?_select h name with ⟨-, hkept⟩ | ⟨v, w, hv, -⟩
    · rcases find?_select h' name with ⟨-, hout⟩ | ⟨v, w, hv, -⟩
      · rw [hnone', hout]
      · rw [hkept] at hv
        contradiction
    · rw [hnone] at hv
      contradiction
  · obtain ⟨w', hw', hfind'⟩ := hfield name v hv
    rw [hw, Except.ok.injEq] at hw'
    rw [hfind, hfind', hw']

/-- A selection has as many rows as were listed, in every field. -/
theorem height_select (h : FieldTable.select t indices = .ok t') {name : String} {w : Values}
    (hw : t'.find? name = some w) : w.height = indices.length := by
  rcases find?_select h name with ⟨-, hnone⟩ | ⟨v, w', -, hselect, hfind⟩
  · rw [hnone] at hw
    contradiction
  · obtain rfl := Option.some.inj (hfind.symm.trans hw)
    cases v with
    | numeric grid =>
      obtain ⟨grid', hgrid', rfl⟩ := map_eq_ok_iff.1 hselect
      exact (Grid.select_eq_ok hgrid').1
    | text entries =>
      obtain ⟨-, kept, hkept, rfl⟩ := Values.select_text_eq_ok_iff.1 hselect
      exact length_of_mapM hkept

/-- Of rows of a batch a selection has as many records as were listed. -/
theorem checkRows_select {n : Nat} (hrows : t.checkRows = .ok n)
    (h : FieldTable.select t indices = .ok t') (hlt : ∀ i ∈ indices, i < n) :
    t'.checkRows = .ok indices.length := by
  obtain ⟨rfl, -⟩ := checkRows_eq_ok_iff.1 hrows
  have hheight : ∀ e ∈ t'.entries, e.2.height = indices.length := fun e he =>
    height_select h (Dict.mem_entries_iff.1 he)
  have hcount : t'.rowCount = indices.length := by
    unfold rowCount
    cases hentries : t'.entries with
    | cons e rest =>
      rw [Dict.values, hentries]
      exact hheight e (by simp [hentries])
    | nil =>
      -- Without fields there are no rows to be listed.
      have hempty : t.entries = [] := by
        rw [List.eq_nil_iff_forall_not_mem]
        intro e he
        rcases find?_select h e.1 with ⟨hnone, -⟩ | ⟨v, w, -, -, hw⟩
        · rw [Dict.mem_entries_iff.1 he] at hnone
          contradiction
        · have := Dict.mem_entries_iff.2 hw
          simp [hentries] at this
      have hzero : t.rowCount = 0 := by simp [rowCount, Dict.values, hempty]
      cases indices with
      | nil => simp [Dict.values, hentries]
      | cons i rest =>
        have := hlt i (by simp)
        omega
  rw [checkRows_eq_ok_iff, hcount]
  exact ⟨rfl, hheight⟩

end FieldTable

end ObsExport
