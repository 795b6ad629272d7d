import ObsExport.Attempts
import ObsExport.Size

/-!
# Grids of numbers

A grid has rows of one width: a row per record, a column per slot of a repeated group or per
channel. Its values are kept in row-major order, and that there are as many of them as rows times
columns is part of the type. Both counts belong to the grid, so that a grid without values still
has a height or a width, which then may be any word.

What is longer than anything that is there is asked for before it is made: a grid with one value
everywhere, and rows that are listed more often than the grid has them. Where rows are put together
that turn out to be of different widths, the room for all of them is asked for all the same.

Element `(r, c)` can be reached in the list of all values, through its row and through its column.
That these agree is what the last group of statements says: `getElem?_values`, `getElem?_rows`,
`getElem?_row`, `getElem?_column`. Rows and columns that do not exist are a failure, not a default.
-/

namespace ObsExport

/-- Rows of numbers, `height` of them, all of width `cols`. -/
@[ext] structure Grid where
  height : Nat
  cols : Nat
  /-- All values, row after row. -/
  values : List Float
  length_values : values.length = height * cols
deriving DecidableEq

namespace Grid

/-! ### Rows of one width -/

/-- Cuts a list into `n` pieces of length `c`; what is left over is dropped. -/
def pieces {α : Type} (c : Nat) : Nat → List α → List (List α)
  | 0, _ => []
  | n + 1, xs => xs.take c :: pieces c n (xs.drop c)

/-- A list is cut into as many pieces as were asked for. -/
theorem length_pieces {α : Type} (c n : Nat) (xs : List α) : (pieces c n xs).length = n := by
  induction n generalizing xs with
  | zero => rfl
  | succ n ih => simp [pieces, ih]

/-- Pieces that use up a list make up the list. -/
theorem flatten_pieces {α : Type} {c n : Nat} {xs : List α} (h : xs.length = n * c) :
    (pieces c n xs).flatten = xs := by
  induction n generalizing xs with
  | zero =>
    have : xs = [] := List.length_eq_zero_iff.1 (by simpa using h)
    simp [pieces, this]
  | succ n ih =>
    have hdrop : (xs.drop c).length = n * c := by
      rw [List.length_drop, h, Nat.succ_mul]
      omega
    simp [pieces, ih hdrop]

/-- If the list is long enough, then every piece has the length that was asked for. -/
theorem length_of_mem_pieces {α : Type} {c n : Nat} {xs : List α} (h : n * c ≤ xs.length)
    {p : List α} (hp : p ∈ pieces c n xs) : p.length = c := by
  induction n generalizing xs with
  | zero => simp [pieces] at hp
  | succ n ih =>
    rw [Nat.succ_mul] at h
    rcases List.mem_cons.1 hp with rfl | hp
    · rw [List.length_take]
      omega
    · exact ih (by rw [List.length_drop]; omega) hp

/-- Rows of one width have together as many values as rows times width. -/
theorem length_flatten_of_uniform {α : Type} {rows : List (List α)} {c : Nat}
    (h : ∀ row ∈ rows, row.length = c) : rows.flatten.length = rows.length * c := by
  induction rows with
  | nil => simp
  | cons row rows ih =>
    simp only [List.flatten_cons, List.length_append, List.length_cons, Nat.succ_mul,
      h row (by simp), ih fun r hr => h r (by simp [hr])]
    omega

/-- In rows of one width that are put behind each other, the place of a value is found by row and
column. -/
theorem getElem?_flatten_of_uniform {α : Type} {rows : List (List α)} {c : Nat}
    (h : ∀ row ∈ rows, row.length = c) (r : Nat) {j : Nat} (hj : j < c) :
    rows.flatten[r * c + j]? = rows[r]?.bind fun row => row[j]? := by
  induction rows generalizing r with
  | nil => simp
  | cons row rows ih =>
    have hrow : row.length = c := h row (by simp)
    rw [List.flatten_cons]
    cases r with
    | zero => simp [List.getElem?_append_left (by omega : j < row.length)]
    | succ r =>
      -- A value of a later row lies behind the whole first row.
      have hle : row.length ≤ (r + 1) * c + j := by
        rw [hrow, Nat.succ_mul]
        omega
      rw [List.getElem?_append_right hle, hrow,
        show (r + 1) * c + j - c = r * c + j by rw [Nat.succ_mul]; omega,
        ih (fun r hr => h r (by simp [hr])) r]
      simp

/-! ### Making grids -/

/-- The grid of a row-major list of values, which must fill it exactly. -/
def ofValues? (rows cols : Nat) (values : List Float) : Except Error Grid := do
  -- The product is taken before it is compared.
  let _ ← Size.checked (rows * cols)
  if h : values.length = rows * cols then return ⟨rows, cols, values, h⟩
  else throw (.shape "array" (.unfillable values.length rows cols))

/-- The grid with one value everywhere. -/
def filled (rows cols : Nat) (x : Float) : Except Error Grid := do
  Size.reserve .number (rows * cols)
  return ⟨rows, cols, List.replicate (rows * cols) x, by simp⟩

/-- The grid with one column. -/
def ofColumn (xs : List Float) : Grid := ⟨xs.length, 1, xs, by simp⟩

/-- The grid with given columns, cut or filled up with blanks to a number of rows. -/
def ofColumns (rows : Nat) (blank : Float) (columns : List (List Float)) : Grid :=
  let cols := columns.length
  -- Value `i` stands in column `i % cols` of row `i / cols`.
  let value (i : Nat) : Float :=
    (columns[i % cols]?.bind fun column => column[i / cols]?).getD blank
  ⟨rows, cols, (List.range (rows * cols)).map value, by simp⟩

/-- The number and length of the first row that is not of a width. -/
def firstRagged (cols : Nat) (rows : List (List Float)) : Option (Nat × Nat) :=
  (rows.zipIdx.find? fun r => r.1.length ≠ cols).map fun r => (r.2, r.1.length)

/-- If no row is reported, then all have the width that was asked for. -/
theorem uniform_of_firstRagged {cols : Nat} {rows : List (List Float)}
    (h : firstRagged cols rows = none) : ∀ row ∈ rows, row.length = cols := by
  intro row hrow
  obtain ⟨i, hi, hri⟩ := List.mem_iff_getElem.1 hrow
  have hall := List.find?_eq_none.1 (Option.map_eq_none_iff.1 h) (row, i)
    (by simp [List.mem_zipIdx_iff_getElem?, ← hri])
  simpa using hall

/-- The grid of rows that must all be as wide as the first; without rows there is one column. -/
def ofRows? (rows : List (List Float)) : Except Error Grid := do
  let cols := (rows.head?.map List.length).getD 1
  -- Room is asked for as if all rows were as wide as the first, before any other is looked at.
  Size.reserveBeyond rows.flatten.length .number (rows.length * cols)
  match h : firstRagged cols rows with
  | some (row, found) => throw (.shape "array" (.raggedRow row found cols))
  | none =>
    return ⟨rows.length, cols, rows.flatten, length_flatten_of_uniform (uniform_of_firstRagged h)⟩

/-! ### Reading grids -/

/-- The rows, from top to bottom. -/
def rows (g : Grid) : List (List Float) := pieces g.cols g.height g.values

/-- The value at a row and a column. -/
def cell? (g : Grid) (r c : Nat) : Option Float :=
  if r < g.height ∧ c < g.cols then g.values[r * g.cols + c]? else none

/-- One row. A row without columns is the same wherever it is asked for. -/
def row (g : Grid) (r : Nat) : Except Error (List Float) :=
  if r < g.height ∨ g.cols = 0 then .ok ((g.values.drop (r * g.cols)).take g.cols)
  else .error .outOfBounds

/-- One column, from top to bottom. A grid without rows has an empty one wherever it is asked
for. -/
def column (g : Grid) (c : Nat) : Except Error (List Float) :=
  if c < g.cols ∨ g.height = 0 then g.rows.mapM fun row => required row[c]?
  else .error .outOfBounds

/-- Asks for a list with an entry per row. A grid without columns may count more rows than can be
listed; any other has as many values. -/
def reserveRows (g : Grid) (entry : Size.Entry) : Except Error Unit :=
  Size.reserveBeyond g.values.length entry g.height

/-- Each row on a line of its own, with blanks between the values. -/
def text (g : Grid) : String :=
  String.join (g.rows.map fun row => joined " " (row.map Number.text) ++ "\n")

/-! ### Changing grids -/

/-- Replaces every value by its image. -/
def map (f : Float → Float) (g : Grid) : Grid :=
  ⟨g.height, g.cols, g.values.map f, by simp [g.length_values]⟩

/-- Replaces one value, counted in row-major order. -/
def set (g : Grid) (i : Nat) (x : Float) : Except Error Grid :=
  if i < g.height * g.cols then
    .ok ⟨g.height, g.cols, g.values.set i x, by simp [g.length_values]⟩
  else .error .outOfBounds

/-- A row that is read is as wide as the grid. -/
theorem length_of_row {g : Grid} {r : Nat} {xs : List Float} (h : g.row r = .ok xs) :
    xs.length = g.cols := by
  unfold row at h
  split at h
  next hr =>
    simp only [Except.ok.injEq] at h
    rw [← h, List.length_take, List.length_drop, g.length_values]
    -- A row that is there ends within the values, and without columns there is nothing to cut out.
    rcases hr with hr | hr
    · have := Nat.mul_le_mul_right g.cols (Nat.succ_le_of_lt hr)
      rw [Nat.succ_mul] at this
      omega
    · omega
  next => contradiction

/-- The grid of the listed rows, in the listed order. -/
def select (g : Grid) (indices : List Nat) : Except Error Grid := do
  Size.reserveBeyond g.values.length .number (indices.length * g.cols)
  match h : indices.mapM g.row with
  | .error e => throw e
  | .ok rows =>
    return ⟨indices.length, g.cols, rows.flatten, by
      rw [← length_of_mapM h]
      exact length_flatten_of_uniform fun row hrow =>
        let ⟨_, _, hr⟩ := exists_of_mem_mapM h hrow
        length_of_row hr⟩

/-! ### One element, several ways to reach it -/

@[simp] theorem length_rows (g : Grid) : g.rows.length = g.height := length_pieces ..

@[simp] theorem flatten_rows (g : Grid) : g.rows.flatten = g.values :=
  flatten_pieces g.length_values

/-- All rows are as wide as the grid. -/
theorem length_of_mem_rows {g : Grid} {row : List Float} (h : row ∈ g.rows) :
    row.length = g.cols :=
  length_of_mem_pieces (Nat.le_of_eq g.length_values.symm) h

/-- There is a cell for every row and column, and no other. -/
theorem cell?_isSome_iff {g : Grid} {r c : Nat} :
    (g.cell? r c).isSome ↔ r < g.height ∧ c < g.cols := by
  unfold cell?
  split
  next h =>
    -- The last cell of row `r` comes before the first of row `r + 1`.
    have hlt : r * g.cols + c < g.values.length := by
      have := Nat.mul_le_mul_right g.cols (Nat.succ_le_of_lt h.1)
      rw [Nat.succ_mul] at this
      rw [g.length_values]
      omega
    simp [List.getElem?_eq_getElem hlt, h]
  next h => simp [h]

/-- The value at `(r, c)` is number `r * cols + c` in row-major order. -/
theorem getElem?_values (g : Grid) (r : Nat) {c : Nat} (hc : c < g.cols) :
    g.values[r * g.cols + c]? = g.cell? r c := by
  unfold cell?
  split
  · rfl
  next h =>
    -- The column is in range, so it is the row that is not.
    have hr : g.height ≤ r := Nat.le_of_not_lt fun hr => h ⟨hr, hc⟩
    have := Nat.mul_le_mul_right g.cols hr
    exact List.getElem?_eq_none_iff.2 (by rw [g.length_values]; omega)

/-- Grids with the same cells are equal. -/
theorem ext_cell? {g h : Grid} (hheight : g.height = h.height) (hcols : g.cols = h.cols)
    (hcell : ∀ r c, r < g.height → c < g.cols → g.cell? r c = h.cell? r c) : g = h := by
  refine Grid.ext hheight hcols (List.ext_getElem? fun i => ?_)
  by_cases hi : i < g.height * g.cols
  · -- Value `i` stands in row `i / cols`.
    have hpos : 0 < g.cols := Nat.pos_of_ne_zero fun h0 => by simp [h0] at hi
    have hmod : i % g.cols < g.cols := Nat.mod_lt _ hpos
    have hdiv : i / g.cols < g.height := Nat.div_lt_of_lt_mul (by rwa [Nat.mul_comm])
    have hsplit : i = i / g.cols * g.cols + i % g.cols := by
      rw [Nat.mul_comm]
      exact (Nat.div_add_mod i g.cols).symm
    rw [hsplit, g.getElem?_values _ hmod, hcell _ _ hdiv hmod, hcols,
      h.getElem?_values _ (hcols ▸ hmod)]
  · have hg : g.values.length ≤ i := by rw [g.length_values]; omega
    have hh : h.values.length ≤ i := by rw [h.length_values, ← hheight, ← hcols]; omega
    rw [List.getElem?_eq_none_iff.2 hg, List.getElem?_eq_none_iff.2 hh]

/-- The value at `(r, c)` is number `c` of row `r`. -/
theorem getElem?_rows (g : Grid) (r c : Nat) :
    (g.rows[r]?.bind fun row => row[c]?) = g.cell? r c := by
  by_cases hc : c < g.cols
  · rw [← g.getElem?_values r hc, ← g.flatten_rows]
    exact (getElem?_flatten_of_uniform (fun _ => length_of_mem_rows) r hc).symm
  · have hcell : g.cell? r c = none := by simp [cell?, hc]
    rw [hcell]
    cases hr : g.rows[r]? with
    | none => rfl
    | some row =>
      have := length_of_mem_rows (List.mem_iff_getElem?.2 ⟨r, hr⟩)
      exact List.getElem?_eq_none_iff.2 (by omega)

/-- Place `c` of a row is its cell in column `c`. -/
theorem getElem?_row {g : Grid} {r : Nat} {xs : List Float} (h : g.row r = .ok xs) (c : Nat) :
    xs[c]? = g.cell? r c := by
  have hlen := length_of_row h
  unfold row at h
  split at h
  next =>
    simp only [Except.ok.injEq] at h
    by_cases hc : c < g.cols
    · rw [← h, List.getElem?_take_of_lt hc, List.getElem?_drop, g.getElem?_values r hc]
    · rw [List.getElem?_eq_none_iff.2 (by omega)]
      simp [cell?, hc]
  next => contradiction

/-- Place `r` of a column is its cell in row `r`. -/
theorem getElem?_column {g : Grid} {c : Nat} {xs : List Float} (h : g.column c = .ok xs)
    (r : Nat) : xs[r]? = g.cell? r c := by
  unfold column at h
  split at h
  next =>
    obtain ⟨hlen, hall⟩ := mapM_eq_ok_iff.1 h
    rw [← g.getElem?_rows r c]
    cases hr : g.rows[r]? with
    | none =>
      have := List.getElem?_eq_none_iff.1 hr
      exact List.getElem?_eq_none_iff.2 (by omega)
    | some row =>
      obtain ⟨x, hx, hrow⟩ := hall r row hr
      rw [hx]
      exact (required_eq_ok_iff.1 hrow).symm
  next => contradiction

/-- A column that is read has an entry per row. -/
theorem length_of_column {g : Grid} {c : Nat} {xs : List Float} (h : g.column c = .ok xs) :
    xs.length = g.height := by
  unfold column at h
  split at h
  next => rw [length_of_mapM h, g.length_rows]
  next => contradiction

/-- A column that is there can be read. -/
theorem exists_column {g : Grid} {c : Nat} (hc : c < g.cols) : ∃ xs, g.column c = .ok xs := by
  have hrows : ∀ row ∈ g.rows, ∃ x, required row[c]? = .ok x := by
    intro row hrow
    have hlt : c < row.length := by rwa [length_of_mem_rows hrow]
    exact ⟨row[c], required_eq_ok_iff.2 (List.getElem?_eq_getElem hlt)⟩
  obtain ⟨xs, hxs⟩ := exists_mapM_eq_ok hrows
  exact ⟨xs, by rw [column, if_pos (.inl hc), hxs]⟩

/-! ### Shape and values of the grids that are made -/

/-- Values make a grid if their number is the product of rows and columns and the product is a word;
a grid has such values by itself. -/
theorem ofValues?_eq_ok_iff {rows cols : Nat} {values : List Float} {g : Grid} :
    ofValues? rows cols values = .ok g ↔
      rows * cols < Size.limit ∧ g.height = rows ∧ g.cols = cols ∧ g.values = values := by
  unfold ofValues? Size.checked
  by_cases hsize : rows * cols < Size.limit
  · by_cases h : values.length = rows * cols
    · simp only [hsize, h, bind, Except.bind, pure, Except.pure, if_true, dite_true,
        Except.ok.injEq, true_and]
      exact ⟨by rintro rfl; simp, fun hg => (Grid.ext hg.1 hg.2.1 hg.2.2).symm⟩
    · simp only [hsize, h, bind, Except.bind, throw, throwThe, MonadExceptOf.throw, if_true,
        dite_false, reduceCtorEq, true_and, false_iff, not_and]
      rintro rfl rfl rfl
      exact h g.length_values
  · simp [hsize, bind, Except.bind]

/-- Values that do not make a grid fail for a product that is no word, or else for their number. -/
theorem ofValues?_eq_error_iff {rows cols : Nat} {values : List Float} {e : Error} :
    ofValues? rows cols values = .error e ↔ (Size.limit ≤ rows * cols ∧ e = .tooLarge) ∨
      rows * cols < Size.limit ∧ values.length ≠ rows * cols ∧
        e = .shape "array" (.unfillable values.length rows cols) := by
  unfold ofValues? Size.checked
  by_cases hsize : rows * cols < Size.limit
  · by_cases h : values.length = rows * cols
    · simp [hsize, h, Nat.not_le.2 hsize, pure, Except.pure]
    · simp [hsize, h, Nat.not_le.2 hsize, throw, throwThe, MonadExceptOf.throw, eq_comm]
  · simp [hsize, Nat.le_of_not_lt hsize, eq_comm]

/-- A grid of one value is made if there is room for its values. -/
theorem filled_eq_ok_iff {rows cols : Nat} {x : Float} {g : Grid} :
    filled rows cols x = .ok g ↔ Size.Room .number (rows * cols) ∧
      g.height = rows ∧ g.cols = cols ∧ g.values = List.replicate (rows * cols) x := by
  simp only [filled, bind_eq_ok_iff, Size.reserve_eq_ok_iff, pure, Except.pure, Except.ok.injEq,
    exists_and_left, exists_const]
  refine and_congr_right fun _ => ⟨by rintro rfl; simp, fun hg => ?_⟩
  exact (Grid.ext hg.1 hg.2.1 hg.2.2).symm

/-- No row is reported exactly if all of them have the width. -/
theorem firstRagged_eq_none_iff {cols : Nat} {rows : List (List Float)} :
    firstRagged cols rows = none ↔ ∀ row ∈ rows, row.length = cols := by
  refine ⟨uniform_of_firstRagged, fun h => Option.map_eq_none_iff.2 (List.find?_eq_none.2 ?_)⟩
  intro p hp
  simpa using h p.1 (List.fst_mem_of_mem_zipIdx hp)

/-- Rows make a grid exactly if they are as wide as the first one; without rows there is one column.
-/
theorem ofRows?_eq_ok_iff {rows : List (List Float)} {g : Grid} :
    ofRows? rows = .ok g ↔ (∀ row ∈ rows, row.length = (rows.head?.map List.length).getD 1) ∧
      g.height = rows.length ∧ g.cols = (rows.head?.map List.length).getD 1 ∧
        g.values = rows.flatten := by
  rw [← firstRagged_eq_none_iff]
  simp only [ofRows?, bind_eq_ok_iff, Size.reserveBeyond_eq_ok_iff]
  split
  next hragged => simp [hragged, throw, throwThe, MonadExceptOf.throw]
  next hnone =>
    -- Rows of one width are as many values as there is to be room for.
    have hroom : Size.Backed rows.flatten.length .number
        (rows.length * (rows.head?.map List.length).getD 1) :=
      .inl (Nat.le_of_eq (length_flatten_of_uniform (uniform_of_firstRagged hnone)).symm)
    simp only [hnone, hroom, exists_const, pure, Except.pure, Except.ok.injEq, true_and]
    exact ⟨by rintro rfl; simp, fun hg => (Grid.ext hg.1 hg.2.1 hg.2.2).symm⟩

/-- In a grid that is put together from columns every column has its own values, and blanks behind
them. -/
theorem cell?_ofColumns {rows : Nat} {blank : Float} {columns : List (List Float)} {r c : Nat}
    {column : List Float} (hr : r < rows) (hc : columns[c]? = some column) :
    (ofColumns rows blank columns).cell? r c = some (column[r]?.getD blank) := by
  have hlt : c < columns.length := (List.getElem?_eq_some_iff.1 hc).1
  have hi : r * columns.length + c < rows * columns.length := by
    have := Nat.mul_le_mul_right columns.length (Nat.succ_le_of_lt hr)
    rw [Nat.succ_mul] at this
    omega
  have hmod : (r * columns.length + c) % columns.length = c := by
    rw [Nat.mul_comm, Nat.mul_add_mod, Nat.mod_eq_of_lt hlt]
  have hdiv : (r * columns.length + c) / columns.length = r := by
    rw [Nat.mul_comm, Nat.mul_add_div (by omega), Nat.div_eq_of_lt hlt, Nat.add_zero]
  simp only [cell?, ofColumns, hr, hlt, and_self, if_true, List.getElem?_map,
    List.getElem?_range hi, Option.map_some, hmod, hdiv, hc, Option.bind_some]

@[simp] theorem height_map (f : Float → Float) (g : Grid) : (g.map f).height = g.height := rfl

@[simp] theorem cols_map (f : Float → Float) (g : Grid) : (g.map f).cols = g.cols := rfl

@[simp] theorem values_map (f : Float → Float) (g : Grid) :
    (g.map f).values = g.values.map f := rfl

/-- Cell by cell a function is applied to what is there. -/
theorem cell?_map (f : Float → Float) (g : Grid) (r c : Nat) :
    (g.map f).cell? r c = (g.cell? r c).map f := by
  unfold cell?
  split
  next h => rw [height_map, cols_map] at h; rw [if_pos h, values_map, List.getElem?_map]; rfl
  next h => rw [height_map, cols_map] at h; rw [if_neg h]; rfl

/-- Writing a value that is there changes it and nothing else. -/
theorem set_eq_ok {g g' : Grid} {i : Nat} {x : Float} (h : g.set i x = .ok g') :
    i < g.values.length ∧ g'.height = g.height ∧ g'.cols = g.cols ∧
      g'.values = g.values.set i x := by
  unfold set at h
  split at h
  next hlt =>
    obtain rfl := Except.ok.inj h
    exact ⟨g.length_values ▸ hlt, rfl, rfl, rfl⟩
  next => contradiction

/-- Of the cells one changes its value. -/
theorem cell?_set {g g' : Grid} {i : Nat} {x : Float} (h : g.set i x = .ok g') (r : Nat) {c : Nat}
    (hc : c < g.cols) : g'.cell? r c = if r * g.cols + c = i then some x else g.cell? r c := by
  obtain ⟨hlt, -, hcols, hvalues⟩ := set_eq_ok h
  rw [← g'.getElem?_values r (hcols.symm ▸ hc), hcols, hvalues, ← g.getElem?_values r hc]
  by_cases heq : r * g.cols + c = i
  · rw [if_pos heq, heq, List.getElem?_set_self hlt]
  · rw [if_neg heq, List.getElem?_set_ne fun h => heq h.symm]

@[simp] theorem values_ofColumn (xs : List Float) : (ofColumn xs).values = xs := rfl

end Grid

end ObsExport
