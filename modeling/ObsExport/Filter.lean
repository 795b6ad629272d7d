import ObsExport.Config.Cursor
import ObsExport.FieldTable

/-!
# Row filters

A filter keeps the records in which a numeric field has at least one observed value and all its
observed values within inclusive bounds. Filters are independent of each other: a record is
retained if every one keeps it (`Filter.combinedMask`), and without filters all are.
-/

namespace ObsExport

/-- Inclusive bounds on a field, either of which may be missing. -/
structure Filter where
  mnemonic : String
  lower : Option Float
  upper : Option Float
deriving DecidableEq

namespace Filter

/-- Whether a value lies within the bounds. -/
def admits (f : Filter) (x : Float) : Bool :=
  f.lower.all (fun lower => decide (lower ≤ x)) && f.upper.all fun upper => decide (x ≤ upper)

/-- Whether a record is kept for its values. -/
def keeps (f : Filter) (policy : MissingPolicy) (row : List Float) : Bool :=
  let observed := row.filter policy.isPresent
  !observed.isEmpty && observed.all f.admits

/-- The numeric field of a filter. -/
def target (f : Filter) (data : FieldTable) : Except Error Grid :=
  match data.find? f.mnemonic with
  | some (.numeric grid) => .ok grid
  | some (.text _) => .error (.type f.mnemonic .filter)
  | none => .error (.fieldNotFound f.mnemonic)

/-- For every record, whether it is kept. -/
def mask (f : Filter) (data : FieldTable) (policy : MissingPolicy) : Except Error (List Bool) := do
  let grid ← f.target data
  grid.reserveRows .flag
  return grid.rows.map (f.keeps policy)

/-- Record by record, whether both of two masks keep it. A record that the second mask does not
reach is left to the first. -/
def both : List Bool → List Bool → List Bool
  | [], _ => []
  | kept, [] => kept
  | k :: kept, m :: mask => (k && m) :: both kept mask

/-- A record is kept if it was kept before and the second mask, where it has an entry, keeps it too.
-/
theorem getElem?_both (kept mask : List Bool) (i : Nat) :
    (both kept mask)[i]? = kept[i]?.map fun k => k && mask[i]?.getD true := by
  induction kept generalizing mask i with
  | nil => simp [both]
  | cons k kept ih =>
    cases mask with
    | nil => simp [both]
    | cons m mask => cases i <;> simp [both, ih]

/-- Masks are combined into one as long as the first. -/
theorem length_both (kept mask : List Bool) : (both kept mask).length = kept.length := by
  induction kept generalizing mask with
  | nil => simp [both]
  | cons k kept ih => cases mask <;> simp [both, ih]

/-- For every record of the batch, whether all filters keep it; the filters are tried in order. -/
def combinedMask (filters : List Filter) (data : FieldTable) (policy : MissingPolicy) :
    Logged (List Bool) := do
  data.reserveRows (filters.map Filter.mnemonic) .flag
  filters.foldlM
    (fun kept f => do
      let mask ← f.mask data policy
      Logged.report (.filterApplied f.mnemonic (mask.count true) mask.length)
      return both kept mask)
    (List.replicate data.rowCount true)

/-- The indices at which a mask is true. -/
def retained (mask : List Bool) : List Nat := (mask.zipIdx.filter Prod.fst).map Prod.snd

/-- The records that all filters keep, ascending. How many there will be is not known before they
are listed, and an index takes more room than an entry of the mask. -/
def sift (filters : List Filter) (data : FieldTable) (policy : MissingPolicy) :
    Logged (List Nat) := do
  let rows := retained (← combinedMask filters data policy)
  Size.reserveGrowing .number rows.length
  return rows

/-! ### Reading -/

/-- Reads one entry of the list of filters. -/
def ofConfig (c : Cursor) : Logged Filter := do
  match c.get? "bounding" with
  | some block =>
    block.check .bounding
    return ⟨← block.string "mnemonic", ← block.float? "lowerBound", ← block.float? "upperBound"⟩
  | none => Logged.fail (.unknownKind .filter c.path c.firstKey)

end Filter

end ObsExport
