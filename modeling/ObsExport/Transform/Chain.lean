import ObsExport.Config.Cursor
import ObsExport.Grid
import ObsExport.MissingPolicy

/-!
# Transform chains

A chain runs its steps in declared order. A step touches observed values only, so a missing slot
stays as it is; and it must not make an observation look missing, so it is refused as a whole, with
the grid as it was, when some observed value would land in the missing range. `Transform.run` keeps
the grid that the steps before a refused one have left.
-/

namespace ObsExport

namespace Transform

/-! ### Running -/

/-- The first observed value that a step would make missing. -/
def crossing? (t : Transform) (policy : MissingPolicy) (g : Grid) : Option Float :=
  g.values.find? fun x => policy.isPresent x && policy.isMissing (t.value x)

/-- What a step makes of one slot. -/
def slot (t : Transform) (policy : MissingPolicy) (x : Float) : Float :=
  if policy.isPresent x then t.value x else x

/-- Runs one step on the values of a variable. -/
def apply (t : Transform) (target : String) (policy : MissingPolicy) (g : Grid) :
    Except Error Grid :=
  match t.crossing? policy g with
  | some x => .error (.transformRange target t x)
  | none => .ok (g.map (t.slot policy))

/-- A grid on its way through a chain, with the failure that ended the way early. -/
structure Run where
  grid : Grid
  failure : Option Error

/-- The grid, if nothing failed. -/
def Run.outcome (r : Run) : Except Error Grid :=
  match r.failure with
  | none => .ok r.grid
  | some e => .error e

/-- Runs a chain up to its first failure. -/
def run (target : String) (policy : MissingPolicy) : List Transform → Grid → Run
  | [], g => ⟨g, none⟩
  | t :: later, g =>
    match t.apply target policy g with
    | .ok g' => run target policy later g'
    | .error e => ⟨g, some e⟩

/-- A transform changes values, and not how many there are. -/
theorem height_of_apply {t : Transform} {target : String} {policy : MissingPolicy} {g g' : Grid}
    (h : t.apply target policy g = .ok g') : g'.height = g.height ∧ g'.cols = g.cols := by
  unfold apply at h
  split at h
  · simp at h
  · simp only [Except.ok.injEq] at h
    simp [← h]

/-- A chain changes no shape, whether it fails or not. -/
theorem shape_run (target : String) (policy : MissingPolicy) (chain : List Transform) (g : Grid) :
    (run target policy chain g).grid.height = g.height ∧
      (run target policy chain g).grid.cols = g.cols := by
  induction chain generalizing g with
  | nil => exact ⟨rfl, rfl⟩
  | cons t later ih =>
    rw [run]
    split
    next g' h =>
      have := height_of_apply h
      rw [(ih g').1, (ih g').2]
      exact this
    next => exact ⟨rfl, rfl⟩

/-! ### Reading -/

/-- Reads a block with exactly one key, the kind of the step. -/
def ofConfig (c : Cursor) : Except Error Transform :=
  match c.keys with
  | [key] =>
    match c.get? "scale", c.get? "offset" with
    | some factor, _ => factor.asFloat.map scale
    | none, some amount => amount.asFloat.map offset
    | none, none => .error (.unknownKind .transform c.path key)
  | keys =>
    let listed := joined ", " keys
    .error (.unknownKind .transform c.path
      s!"expected exactly one transform key, found [{listed}]")

/-- Reads the chain of a variable, which may be missing. -/
def chainOfConfig (variableBlock : Cursor) : Except Error (List Transform) :=
  match variableBlock.get? "transforms" with
  | some list => do (← list.items).mapM ofConfig
  | none => .ok []

end Transform

end ObsExport
