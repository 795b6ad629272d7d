import ObsExport.Config.Section
import ObsExport.Event

/-!
# Walking a configuration tree

A cursor is a configuration value together with the path to it, so that whatever is wrong with the
value is reported where it stands. Paths join keys with `::` and number the items of a list.

`Cursor.check` holds a map against its section: it fails at the first key of the section that is
missing or of the wrong kind, and otherwise reports the keys that the section does not know. It
succeeds exactly on the maps that `Section.Accepts` describes (`outcome_check_eq_ok_iff`).
-/

namespace ObsExport

/-- A configuration value and the path to it. -/
structure Cursor where
  path : String
  value : Tree
deriving Inhabited

namespace Cursor

/-! ### Moving -/

/-- The path of a key below a cursor; below the root it is the key itself. -/
def pathOf (c : Cursor) (key : String) : String :=
  if c.path.isEmpty then key else c.path ++ "::" ++ key

/-- The value under a key, unless there is none or it is null. -/
def get? (c : Cursor) (key : String) : Option Cursor :=
  (c.value.get? key).map fun v => ⟨c.pathOf key, v⟩

/-- Whether there is a value under a key. -/
def has (c : Cursor) (key : String) : Bool := (c.get? key).isSome

/-- The value under a key that must be there. -/
def child (c : Cursor) (key : String) : Except Error Cursor :=
  match c.get? key with
  | some d => .ok d
  | none => .error (.missingConfig (c.pathOf key))

/-- The keys of a map, those with null included; other values have none. -/
def keys (c : Cursor) : List String := (c.value.entries?.getD []).map Prod.fst

/-- The first key of a map, which is how messages tell what a block holds. -/
def firstKey (c : Cursor) : String := c.keys.head?.getD "<empty>"

/-- The entries of a map, those with null included. -/
def entries (c : Cursor) : Except Error (List (String × Cursor)) :=
  match c.value.entries? with
  | some entries => .ok (entries.map fun e => (e.1, ⟨c.pathOf e.1, e.2⟩))
  | none => .error (.invalidConfig c.path .map)

/-- The items of a list. -/
def items (c : Cursor) : Except Error (List Cursor) :=
  match c.value.items? with
  | some items => .ok (items.zipIdx.map fun i => ⟨c.path ++ s!"[{i.2}]", i.1⟩)
  | none => .error (.invalidConfig c.path .list)

/-! ### Reading values -/

/-- A value that must be of a kind. -/
def expect {α : Type} (c : Cursor) (expectation : Expectation) : Option α → Except Error α
  | some a => .ok a
  | none => .error (.invalidConfig c.path expectation)

/-- A string. -/
def asString (c : Cursor) : Except Error String := c.expect .string c.value.asString?

/-- A number. -/
def asFloat (c : Cursor) : Except Error Float := c.expect .number c.value.asFloat?

/-- An integer. -/
def asInteger (c : Cursor) : Except Error Int := c.expect .integer c.value.asInteger?

/-- An integer that is not negative. -/
def asNatural (c : Cursor) : Except Error Nat := c.expect .naturalNumber c.value.asNatural?

/-- One string, or a list of strings. -/
def asStrings (c : Cursor) : Except Error (List String) :=
  match c.value.asString? with
  | some s => .ok [s]
  | none => do (← c.items).mapM asString

/-- The string under a key that must be there. -/
def string (c : Cursor) (key : String) : Except Error String := do (← c.child key).asString

/-- What a reader finds under a key that may be missing. -/
def optional {α : Type} (c : Cursor) (key : String) (read : Cursor → Except Error α) :
    Except Error (Option α) :=
  match c.get? key with
  | some d => (read d).map some
  | none => .ok none

/-- The string under a key that may be missing. -/
def string? (c : Cursor) (key : String) : Except Error (Option String) := c.optional key asString

/-- The number under a key that may be missing. -/
def float? (c : Cursor) (key : String) : Except Error (Option Float) := c.optional key asFloat

/-- What a reader finds under a key, or what it makes of the integer its section has for it. -/
def orDefault {α : Type} (c : Cursor) (s : Section) (key : String) (read : Cursor → Except Error α)
    (make : Int → α) : Except Error α :=
  match c.get? key with
  | some d => read d
  | none =>
    match (s.spec? key).map KeySpec.presence with
    | some (.default i) => .ok (make i)
    | _ => .error (.missingConfig (c.pathOf key))

/-- The number under a key, or the number its section has for it. -/
def floatOrDefault (c : Cursor) (s : Section) (key : String) : Except Error Float :=
  c.orDefault s key asFloat Float.ofInt

/-- The integer under a key, or the integer its section has for it. -/
def integerOrDefault (c : Cursor) (s : Section) (key : String) : Except Error Int :=
  c.orDefault s key asInteger id

/-! ### Holding a map against its section -/

/-- What is wrong with one key. -/
def keyFault? (c : Cursor) (spec : KeySpec) : Option Error :=
  match c.value.get? spec.key with
  | some v =>
    if spec.kind.admits v then none
    else some (.invalidConfig (c.pathOf spec.key) spec.kind.expectation)
  | none =>
    if spec.presence = .required then some (.missingConfig (c.pathOf spec.key)) else none

/-- Fails at the first key that is wrong, and reports the keys that are not known. -/
def check (c : Cursor) (s : Section) : Logged Unit :=
  match c.value.entries? with
  | none => Logged.fail (.invalidConfig c.path .map)
  | some entries =>
    match s.findSome? c.keyFault? with
    | some e => Logged.fail e
    | none =>
      -- An unknown key is reported even if its value is null.
      let unknown := (entries.map Prod.fst).filter fun key => !s.knows key
      ⟨unknown.map fun key => .unrecognisedKey (c.pathOf key), .ok ()⟩

end Cursor

/-- A section accepts a map in which every key that must be there is, and every known key that is
there has a value of its kind. -/
def Section.Accepts (s : Section) (t : Tree) : Prop :=
  t.entries?.isSome ∧ ∀ spec ∈ s,
    (∀ v, t.get? spec.key = some v → spec.kind.admits v = true) ∧
      (spec.presence = .required → (t.get? spec.key).isSome)

namespace Cursor

/-- A key is as its section asks for if what it holds is of the right kind, and if it holds
something where something is required. -/
theorem keyFault?_eq_none_iff {c : Cursor} {spec : KeySpec} :
    c.keyFault? spec = none ↔
      (∀ v, c.value.get? spec.key = some v → spec.kind.admits v = true) ∧
        (spec.presence = .required → (c.value.get? spec.key).isSome) := by
  unfold keyFault?
  cases c.value.get? spec.key with
  | none => simp
  | some v => simp

/-- A block passes the check exactly if its section accepts the tree; keys that nobody knows are
reported and do no harm. -/
theorem outcome_check_eq_ok_iff {c : Cursor} {s : Section} :
    (c.check s).outcome = .ok () ↔ s.Accepts c.value := by
  unfold check Section.Accepts
  cases he : c.value.entries? with
  | none => simp
  | some entries =>
    -- Keys that are not known only show in the report.
    cases hf : s.findSome? c.keyFault? with
    | none =>
      simp only [Option.isSome_some, true_and, true_iff]
      exact fun spec hspec => keyFault?_eq_none_iff.1 (List.findSome?_eq_none_iff.1 hf spec hspec)
    | some e =>
      simp only [Logged.outcome_fail, reduceCtorEq, Option.isSome_some, true_and, false_iff]
      intro hall
      obtain ⟨spec, hspec, hfault⟩ := List.exists_of_findSome?_eq_some hf
      simp [keyFault?_eq_none_iff.2 (hall spec hspec)] at hfault

end Cursor

end ObsExport
