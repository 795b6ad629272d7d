import ObsExport.Dict
import ObsExport.Number.Binary

/-!
# Configuration trees

A configuration value is null, a truth value, a number, a string, a list or a map. A number is an
integer if it was written as one and fits 64 bits, signed or unsigned; every other number is a
real, and finite. `Tree.asFloat?` accepts both, `Tree.asInteger?` and `Tree.asNatural?` only integers: `1.0` is
no integer.

The entries of a map stand in ascending key order with one entry per key; `Tree.ofEntries` puts
them in that order, and of several entries for one key the last one counts.
-/

namespace ObsExport

/-- A configuration value. -/
inductive Tree where
  | null
  | bool (b : Bool)
  | integer (i : Int)
  | real (x : Float) (finite : Binary.isFinite x = true)
  | string (s : String)
  | list (items : List Tree)
  | map (entries : List (String × Tree))
deriving Inhabited

namespace Tree

/-- The map of some entries. -/
def ofEntries (entries : List (String × Tree)) : Tree := .map (Dict.ofList entries).entries

/-- The value of a number. Null stands for one that is not finite. -/
def ofFloat (x : Float) : Tree :=
  if h : Binary.isFinite x = true then .real x h else .null

/-- Whether the value is null, which counts as no value at all. -/
def isNull : Tree → Bool
  | null => true
  | _ => false

/-- The entries of a map. -/
def entries? : Tree → Option (List (String × Tree))
  | map entries => some entries
  | _ => none

/-- The items of a list. -/
def items? : Tree → Option (List Tree)
  | list items => some items
  | _ => none

/-- What a map holds under a key, null included; no other value holds anything. -/
def find? (t : Tree) (key : String) : Option Tree := t.entries?.bind (Dict.lookup key)

/-- What a map holds under a key, unless it is null. -/
def get? (t : Tree) (key : String) : Option Tree := (t.find? key).filter fun v => !v.isNull

/-- The text of a string. -/
def asString? : Tree → Option String
  | string s => some s
  | _ => none

/-- The truth value. -/
def asBool? : Tree → Option Bool
  | bool b => some b
  | _ => none

/-- The number nearest to any number written down. -/
def asFloat? : Tree → Option Float
  | integer i => some (Float.ofInt i)
  | real x _ => some x
  | _ => none

/-- An integer of the signed 64-bit range. -/
def asInteger? : Tree → Option Int
  | integer i => word? i
  | _ => none

/-- An integer of the unsigned 64-bit range. -/
def asNatural? : Tree → Option Nat
  | integer i => if 0 ≤ i ∧ i < 0x10000000000000000 then some i.toNat else none
  | _ => none

/-- A key that holds null is as good as no key. -/
theorem get?_eq_some_iff {t v : Tree} {key : String} :
    t.get? key = some v ↔ t.find? key = some v ∧ v.isNull = false := by
  unfold get?
  cases h : t.find? key with
  | none => simp
  | some w =>
    simp only [Option.some.injEq]
    cases hw : w.isNull with
    | true =>
      rw [Option.filter_some_neg (by simp [hw])]
      simp only [reduceCtorEq, false_iff, not_and]
      rintro rfl
      simp [hw]
    | false =>
      rw [Option.filter_some_pos (by simp [hw])]
      simp only [Option.some.injEq]
      exact ⟨fun h => ⟨h, h ▸ hw⟩, fun h => h.1⟩

end Tree

end ObsExport
