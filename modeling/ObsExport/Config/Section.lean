import ObsExport.Config.Tree
import ObsExport.Error

/-!
# Sections of a configuration document

A section is a map with known keys. A `KeySpec` says of one key what kind of value it takes and
whether it must be there; a `Section` lists the keys of one section, in the order in which they are
looked at. Null under a key is the same as no such key.

The sections of a pipeline document are the constants of the last part, each named after the place
where it stands.
-/

namespace ObsExport

/-- The kinds of values that keys take. -/
inductive ValueKind where
  | map
  | list
  | string
  | stringOrList
  | number
  | integer
deriving DecidableEq, Repr

namespace ValueKind

/-- Whether a value is of a kind. -/
def admits : ValueKind → Tree → Bool
  | map, t => t.entries?.isSome
  | list, t => t.items?.isSome
  | string, t => t.asString?.isSome
  | stringOrList, t =>
    t.asString?.isSome ||
      ((t.items?).map fun items => items.all fun i => i.asString?.isSome).getD false
  | number, t => t.asFloat?.isSome
  | integer, t => t.asInteger?.isSome

/-- How a value of another kind is complained about. -/
def expectation : ValueKind → Expectation
  | map => .map
  | list => .list
  | string => .string
  | stringOrList => .stringOrList
  | number => .number
  | integer => .integer

end ValueKind

/-- Whether a key must be there, and what stands for it if it is not. -/
inductive Presence where
  | required
  | optional
  | default (i : Int)
deriving DecidableEq

/-- What a section says about one key. -/
structure KeySpec where
  key : String
  kind : ValueKind
  presence : Presence

/-- The known keys of a map. -/
abbrev Section := List KeySpec

namespace Section

/-- What a section says about a key. -/
def spec? (s : Section) (key : String) : Option KeySpec := s.find? fun spec => spec.key = key

/-- Whether a section knows a key. -/
def knows (s : Section) (key : String) : Bool := s.any fun spec => spec.key = key

/-! ### The sections of a pipeline document -/

/-- The whole document. -/
def document : Section := [
  ⟨"export", .map, .required⟩,
  ⟨"output", .map, .required⟩,
  ⟨"settings", .map, .optional⟩]

/-- What is exported. -/
def exports : Section := [
  ⟨"filters", .list, .optional⟩,
  ⟨"splits", .map, .optional⟩,
  ⟨"variables", .map, .required⟩]

/-- A variable. -/
def exportVariable : Section := [
  ⟨"datetime", .map, .optional⟩,
  ⟨"mnemonic", .stringOrList, .optional⟩,
  ⟨"transforms", .list, .optional⟩]

/-- The timestamp of a variable. -/
def datetime : Section := [
  ⟨"year", .string, .optional⟩,
  ⟨"month", .string, .optional⟩,
  ⟨"day", .string, .optional⟩,
  ⟨"hour", .string, .optional⟩,
  ⟨"minute", .string, .optional⟩,
  ⟨"second", .string, .optional⟩,
  ⟨"epoch", .string, .optional⟩,
  ⟨"hoursFromUtc", .integer, .default 0⟩,
  ⟨"format", .string, .optional⟩]

/-- The categories of a split. -/
def category : Section := [
  ⟨"mnemonic", .string, .required⟩,
  ⟨"map", .map, .optional⟩]

/-- The bounds of a filter. -/
def bounding : Section := [
  ⟨"mnemonic", .string, .required⟩,
  ⟨"lowerBound", .number, .optional⟩,
  ⟨"upperBound", .number, .optional⟩]

/-- What is written. -/
def output : Section := [
  ⟨"locationDimension", .string, .optional⟩,
  ⟨"dimensions", .list, .optional⟩,
  ⟨"variables", .list, .required⟩]

/-- A dimension of the output. -/
def outputDimension : Section := [
  ⟨"name", .string, .required⟩,
  ⟨"size", .integer, .optional⟩,
  ⟨"source", .string, .optional⟩]

/-- A variable of the output. -/
def outputVariable : Section := [
  ⟨"name", .string, .required⟩,
  ⟨"source", .string, .required⟩,
  ⟨"dimensions", .list, .optional⟩,
  ⟨"fillValue", .number, .optional⟩,
  ⟨"chunks", .list, .optional⟩,
  ⟨"longName", .string, .optional⟩,
  ⟨"units", .string, .optional⟩,
  ⟨"compression", .string, .optional⟩]

end Section

end ObsExport
