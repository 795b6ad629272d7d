import ObsExport.Proofs.Store.RoundTrip
import Mathlib.Data.List.Nodup

/-!
# Variables in columns are regular

An artifact in columns has as many records as the artifact (`rowCount_of_materialize`), and is
regular (`StoredVariable.Regular`): every column has a value per record, and no two columns share a
name. A single column has the name of the variable, and several are numbered behind it
(`names_numericColumns`), so their names differ as their numbers do.
-/

namespace ObsExport

/-- Columns with different names, each of them with a value per record. -/
structure StoredVariable.Regular (v : StoredVariable) : Prop where
  columnNames : (v.columns.map Column.name).Nodup
  sizes : ∀ c ∈ v.columns, c.data.size = v.rowCount

variable {policy : MissingPolicy} {fill : Option Float} {name : String}

/-- Columns with different numbers have different names, since digits can be read back. -/
theorem columnName_injective (name : String) : Function.Injective (Values.columnName name) := by
  intro i j h
  -- Behind the name of the variable stand the digits and nothing else.
  have hdigits : Nat.toDigits 10 (i + 1) = Nat.toDigits 10 (j + 1) := by
    simpa [Values.columnName, Nat.toList_repr] using congrArg String.toList h
  have hsucc : i + 1 = j + 1 :=
    calc
      i + 1 = Nat.ofDigitChars 10 (Nat.toDigits 10 (i + 1)) 0 := Nat.ofDigitChars_ten_toDigits.symm
      _ = Nat.ofDigitChars 10 (Nat.toDigits 10 (j + 1)) 0 := by rw [hdigits]
      _ = j + 1 := Nat.ofDigitChars_ten_toDigits
  exact Nat.succ.inj hsucc

/-- A single column is named after the variable, several are numbered. -/
theorem names_numericColumns {grid : Grid} {columns : List Column}
    (h : Values.numericColumns name grid policy fill = .ok columns) :
    columns.map Column.name =
      if grid.cols = 1 then [name] else (List.range grid.cols).map (Values.columnName name) := by
  unfold Values.numericColumns at h
  split at h
  next hone =>
    obtain ⟨-, -, h⟩ := bind_eq_ok_iff.1 h
    rw [if_pos hone, ← Except.ok.inj h]
    rfl
  next hseveral =>
    obtain ⟨-, -, h⟩ := bind_eq_ok_iff.1 h
    obtain ⟨hlen, hall⟩ := mapM_eq_ok_iff.1 h
    rw [if_neg hseveral]
    -- The column at a place is made of the number at that place, and named after it.
    refine List.ext_getElem? fun i => ?_
    rw [List.getElem?_map, List.getElem?_map]
    cases hi : (List.range grid.cols)[i]? with
    | none =>
      have hnone : columns[i]? = none := by
        rw [List.getElem?_eq_none_iff] at hi ⊢
        omega
      rw [hnone]
      rfl
    | some c =>
      obtain ⟨column, hcolumn, hmap⟩ := hall i c hi
      obtain ⟨xs, -, rfl⟩ := map_eq_ok_iff.1 hmap
      rw [hcolumn]
      rfl

/-- Columns of an artifact have different names and an entry per record. -/
theorem columns_eq_ok {v : Values} {columns : List Column}
    (h : v.columns name policy fill = .ok columns) :
    (columns.map Column.name).Nodup ∧ ∀ c ∈ columns, c.data.size = v.height := by
  -- Texts are one column, which is named after the variable.
  cases v with
  | text entries =>
    obtain rfl := Except.ok.inj h
    refine ⟨List.nodup_singleton _, fun c hc => ?_⟩
    rw [List.mem_singleton.1 hc]
    exact List.length_map _
  | numeric grid =>
    obtain ⟨-, -, hcolumns⟩ := bind_eq_ok_iff.1 h
    constructor
    · rw [names_numericColumns hcolumns]
      split
      · exact List.nodup_singleton _
      · exact List.nodup_range.map (columnName_injective name)
    · -- Column `c` holds the cells of column `c` of the grid.
      obtain ⟨hlen, hall⟩ := numericColumns_eq_ok hcolumns
      intro column hcolumn
      obtain ⟨c, hc⟩ := List.mem_iff_getElem?.1 hcolumn
      obtain ⟨column', xs, hcolumn', hdata, hxs, -⟩ :=
        hall c (hlen ▸ (List.getElem?_eq_some_iff.1 hc).1)
      obtain rfl : column = column' := Option.some.inj (hc.symm.trans hcolumn')
      rw [hdata]
      show (xs.map _).length = grid.height
      rw [List.length_map, hxs]

variable {v : Values} {dimensions : List Dimension} {options : WriteOptions}
  {stored : StoredVariable}

/-- What is stored of an artifact: its name, the sizes of its dimensions, their chunks, and its
columns. -/
theorem materialize_eq_ok (h : v.materialize name dimensions options policy = .ok stored) :
    stored.name = name ∧ v.checkDimensions name dimensions = .ok () ∧
      stored.shape = dimensions.map Dimension.size ∧
      Values.chunkSizes name dimensions options.chunks = .ok stored.chunks ∧
      v.columns name policy options.fillValue = .ok stored.columns := by
  obtain ⟨_, hdims, h⟩ := bind_eq_ok_iff.1 h
  obtain ⟨chunks, hchunks, h⟩ := bind_eq_ok_iff.1 h
  obtain ⟨columns, hcolumns, h⟩ := bind_eq_ok_iff.1 h
  obtain rfl := Except.ok.inj h
  exact ⟨rfl, hdims, rfl, hchunks, hcolumns⟩

/-- What is stored of an artifact has its number of records. -/
theorem rowCount_of_materialize
    (h : v.materialize name dimensions options policy = .ok stored) :
    stored.rowCount = v.height := by
  obtain ⟨-, hdims, hshape, -⟩ := materialize_eq_ok h
  rw [StoredVariable.rowCount, hshape]
  exact height_of_checkDimensions hdims

/-- What is stored of an artifact is regular. -/
theorem regular_of_materialize
    (h : v.materialize name dimensions options policy = .ok stored) : stored.Regular := by
  obtain ⟨-, -, -, -, hcolumns⟩ := materialize_eq_ok h
  obtain ⟨hnames, hsizes⟩ := columns_eq_ok hcolumns
  refine ⟨hnames, fun c hc => ?_⟩
  rw [rowCount_of_materialize h]
  exact hsizes c hc

end ObsExport
