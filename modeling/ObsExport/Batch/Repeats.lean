import ObsExport.Attempts
import ObsExport.Size

/-!
# Repeat counts

A field inside repeated groups has a tree of instances. `Repeats.levels` lists the tree level by
level, outermost first: a level has one count for every instance of the level above it (the first
level, below the record itself, has one count), and the instances of a level are as many as its
counts add up to. The leaves are the instances of the last level; without levels there is one leaf.

Two readings of such a tree are defined here.

* Top down: in a block padded to some largest count per level, `offsets` lists the slot of every
  leaf. Slots are counted in row-major order, so one step at a level is as long as the levels below
  it are wide (`strides`).
* Bottom up: `instances` gives every instance of a level its parent and its position there, and
  `climb` follows these from an instance upward, adding up the slots on the way.

Strides and slots are words. The largest counts may be those of other trees, so a stride can be
larger than any number that the tree itself leads to: what is too large is a failure, wherever it is
met first (`advance`).

`Consistent` says that counts and instances fit together level by level and that the instances of
every level can be counted with a word, and `firstFault?` finds where that is not so
(`firstFault?_eq_none_iff`).
-/

namespace ObsExport

/-- How often the groups around a field repeat, level by level. -/
structure Repeats where
  levels : List (List Nat)
deriving DecidableEq, Repr

namespace Repeats

/-- A field outside repeated groups. -/
def none : Repeats := ⟨[]⟩

/-- The number of levels. -/
def depth (r : Repeats) : Nat := r.levels.length

/-- The number of leaves that the counts imply. -/
def leafCount (r : Repeats) : Nat := (r.levels.getLast?.map total).getD 1

/-- The number of leaves, if it is a word. -/
def leafCount? (r : Repeats) : Except Error Nat := Size.checked r.leafCount

/-! ### Consistent counts -/

/-- Every level has a count for each of the instances above it, of which there are `n`, and its
own instances are a word. -/
def ConsistentFrom (n : Nat) : List (List Nat) → Prop
  | [] => True
  | counts :: below =>
    counts.length = n ∧ total counts < Size.limit ∧ ConsistentFrom (total counts) below

/-- The first level that does not have as many counts as there are instances above it, or that has
too many instances. -/
def faultFrom (level n : Nat) : List (List Nat) → Option StructureFault
  | [] => .none
  | counts :: below =>
    if counts.length ≠ n then some (.parentInstances level counts.length n)
    else if total counts < Size.limit then faultFrom (level + 1) (total counts) below
    else some (.uncountable level)

/-- Counts that fit together below one record. -/
def Consistent (r : Repeats) : Prop := ConsistentFrom 1 r.levels

/-- Where counts do not fit together. -/
def firstFault? (r : Repeats) : Option StructureFault := faultFrom 0 1 r.levels

/-- From some instances downward no level is reported exactly if all of them fit. -/
theorem faultFrom_eq_none_iff {level n : Nat} {levels : List (List Nat)} :
    faultFrom level n levels = .none ↔ ConsistentFrom n levels := by
  induction levels generalizing level n with
  | nil => simp [faultFrom, ConsistentFrom]
  | cons counts below ih =>
    by_cases h : counts.length = n <;> by_cases ht : total counts < Size.limit <;>
      simp [faultFrom, ConsistentFrom, h, ht, ih]

/-- No level is reported exactly if the counts fit together. -/
theorem firstFault?_eq_none_iff {r : Repeats} : r.firstFault? = .none ↔ r.Consistent :=
  faultFrom_eq_none_iff

/-! ### The padded block -/

/-- Raises the largest count of every level to those of a tree. -/
def raise (maxima : List Nat) (levels : List (List Nat)) : List Nat :=
  List.zipWith (fun m counts => counts.foldl max m) maxima levels

/-- The largest count of every level over some trees of one depth, and at least one. -/
def maxima (depth : Nat) (trees : List (List (List Nat))) : List Nat :=
  trees.foldl raise (List.replicate depth 1)

/-- How many slots one step at a level moves, level by level: the product of the sizes of the levels
below. -/
def strides : List Nat → Except Error (List Nat)
  | [] => .ok []
  | _ :: below => do
    let stride ← Size.product below
    return stride :: (← strides below)

/-- The slot some positions behind another one. -/
def advance (slot position stride : Nat) : Except Error Nat := do
  Size.checked (slot + (← Size.checked (position * stride)))

/-- The slots of the leaves below instances that have slots themselves. -/
def offsetsFrom (bases : List Nat) : List (List Nat × Nat) → Except Error (List Nat)
  | [] => .ok bases
  | (counts, stride) :: below => do
    let runs ← (bases.zip counts).mapM fun b => (List.range b.2).mapM fun j => advance b.1 j stride
    offsetsFrom runs.flatten below

/-- The slot of every leaf in a block with given strides. -/
def offsets (r : Repeats) (strides : List Nat) : Except Error (List Nat) :=
  offsetsFrom [0] (r.levels.zip strides)

/-! ### Climbing the tree -/

/-- The instances of a level in order, each with its parent and its position below it. -/
def instances (counts : List Nat) : List (Nat × Nat) :=
  counts.zipIdx.flatMap fun c => (List.range c.1).map fun j => (c.2, j)

/-- Climbs from an instance through levels listed innermost first. The answer is the instance that
is reached and the slot, moved on by a stride for every position. -/
def climbFrom (index slot : Nat) : List (List Nat × Nat) → Except Error (Nat × Nat)
  | [] => .ok (index, slot)
  | (counts, stride) :: above => do
    let (parent, position) ← required (instances counts)[index]?
    climbFrom parent (← advance slot position stride) above

/-- Climbs from a leaf through levels listed outermost first. -/
def climb (levels : List (List Nat)) (strides : List Nat) (leaf : Nat) :
    Except Error (Nat × Nat) :=
  climbFrom leaf 0 (levels.zip strides).reverse

/-- The instance around a leaf that is reached by climbing through levels listed outermost
first. -/
def ancestor (levels : List (List Nat)) (leaf : Nat) : Except Error Nat :=
  (climb levels (levels.map fun _ => 0) leaf).map Prod.fst

end Repeats

end ObsExport
