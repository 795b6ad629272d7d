import ObsExport.Store.Basic

/-!
# Stores kept in place

While a partition is written its store is kept in four cells: the variables, the place of each by its
name, the names of all columns, and the number of records once there is one. A variable is compared
with the cells (`Cells.write`), which are updated one after another, so a failure between two updates
would leave cells that do not belong together.
-/

namespace ObsExport

namespace Store

/-- The cells in which a store is kept. -/
structure Cells where
  vars : List StoredVariable
  /-- Where a variable stands among the others. -/
  index : Dict String Nat
  columnNames : List String
  rows? : Option Nat

namespace Cells

/-- The cells of a store without variables. -/
def empty : Cells := ⟨[], .empty, [], none⟩

/-- The variable of a name. -/
def find? (c : Cells) (name : String) : Option StoredVariable :=
  (c.index.find? name).bind fun i => c.vars[i]?

/-! ### Writing -/

/-- A computation on cells; a failure leaves them as they were when it happened. -/
abbrev Step := ExceptT Error (StateM Cells)

/-- Fails if there is something to fail with. -/
def refuse (e? : Option Error) : Step Unit :=
  match e? with
  | some e => throw e
  | none => pure ()

/-- Takes a number of records, unless there is another one. -/
def takeRows (v : StoredVariable) : Step Unit := do
  match (← get).rows? with
  | some rows =>
    refuse (if rows ≠ v.rowCount then some (.shape v.name (.storeRows v.rowCount rows)) else none)
  | none => modify fun c => { c with rows? := some v.rowCount }

/-- Adds a variable, unless it is refused. -/
def write (v : StoredVariable) : Step Unit := do
  let c ← get
  refuse (if c.index.contains v.name then some (.duplicateName .outputVariable v.name) else none)
  refuse ((v.columns.find? fun d => d.data.size ≠ v.rowCount).map fun d =>
    .shape v.name (.columnLength d.name d.data.size v.rowCount))
  refuse ((v.columns.find? fun d => d.name ∈ c.columnNames).map fun d =>
    .duplicateName .outputColumn d.name)
  takeRows v
  modify fun c => { c with columnNames := c.columnNames ++ v.columns.map Column.name }
  modify fun c => { c with index := c.index.insert v.name c.vars.length }
  modify fun c => { c with vars := c.vars ++ [v] }

/-- The answer to a variable, and the cells afterwards. -/
def offer (c : Cells) (v : StoredVariable) : Except Error Unit × Cells := (write v).run.run c

/-- The cells after some variables were offered, taken or not. -/
def ofOffers (offered : List StoredVariable) : Cells :=
  offered.foldl (fun c v => (c.offer v).2) empty

end Cells

end Store

end ObsExport
