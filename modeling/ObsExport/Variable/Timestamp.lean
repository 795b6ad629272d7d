import ObsExport.Calendar
import ObsExport.Config.Cursor
import ObsExport.FieldTable

/-!
# Timestamps

A timestamp is composed for every record, from calendar fields or from a field of seconds since the
start of 1970, and shifted from a fixed offset to UTC. A record has none if a field it needs is
missing, if its components are no date and time of the calendar, if the seconds do not fit 64 bits,
or if the shift leads out of them.

Timestamps are written as seconds, with the sentinel for none, or as text, with the empty text for
none; text also ends where the calendar does (`DateTime.ofSeconds?`).
-/

namespace ObsExport

/-- The fields a timestamp is composed from. -/
inductive TimeSource where
  /-- Calendar fields; an unset minute or second is zero. -/
  | components (year month day hour : String) (minute second : Option String)
  /-- Seconds since the start of 1970. -/
  | epoch (field : String)
deriving DecidableEq, Repr

/-- How timestamps are written. -/
inductive TimeFormat where
  | epochSeconds
  | iso8601
deriving DecidableEq, Repr

/-- A timestamp per record. -/
structure Timestamp where
  source : TimeSource
  hoursFromUtc : Int
  format : TimeFormat
deriving DecidableEq, Repr

namespace Timestamp

/-- The fields that are read. -/
def fields (t : Timestamp) : List String :=
  match t.source with
  | .components year month day hour minute second =>
    [year, month, day, hour] ++ minute.toList ++ second.toList
  | .epoch field => [field]

/-! ### One record -/

/-- The component a value spells: a natural number of at most 32 bits. -/
def whole? (x : Float) : Option Nat :=
  ((Binary.ofFloat? x).bind Binary.whole?).filter fun n => n < 0x100000000

/-- The seconds since the start of 1970 at a date and time, if the calendar has it. -/
def compose? (year month day hour minute second : Float) : Option Int := do
  let t : DateTime :=
    ⟨⟨← whole? year, ← whole? month, ← whole? day⟩, ← whole? hour, ← whole? minute, ← whole? second⟩
  if t.Valid then some t.seconds else none

/-- The whole seconds of an observed value, as far as 64 bits reach. The value is compared with the
ends of the range as doubles; the greatest word is none, and is rounded to the number after it. -/
def epochSeconds? (policy : MissingPolicy) (x : Float) : Option Int := do
  let x ← policy.observed? x
  if Float.ofInt leastWord ≤ x ∧ x < Float.ofInt greatestWord then
    (Binary.ofFloat? x).map fun b => clampWord b.floor
  else none

/-! ### The batch -/

/-- A field that timestamps are composed from, which must be numeric and have a column. -/
def component (target : String) (data : FieldTable) (field : String) : Except Error Grid :=
  match data.find? field with
  | some (.numeric grid) =>
    if 0 < grid.cols then .ok grid else .error (.shape field .noComponentColumn)
  | some (.text _) => .error (.type field (.component target))
  | none => .error (.unresolvable target [field])

/-- The observation in the first column of a record. -/
def observation (policy : MissingPolicy) (grid : Grid) (record : Nat) :
    OptionT (Except Error) Float := do
  let row ← grid.row record
  let x ← (required row[0]? : Except Error Float)
  OptionT.mk (.ok (policy.observed? x))

/-- The observation of a component that may be unset, which then is zero. -/
def observationOrZero (policy : MissingPolicy) (record : Nat) :
    Option Grid → OptionT (Except Error) Float
  | some grid => observation policy grid record
  | none => pure 0

/-- The seconds since the start of 1970 of every record, before the shift to UTC. There are as many
records as the field of the year or of the seconds has. -/
def localSeconds (t : Timestamp) (target : String) (policy : MissingPolicy) (data : FieldTable) :
    Except Error (List (Option Int)) :=
  match t.source with
  | .components year month day hour minute second => do
    let year ← component target data year
    let month ← component target data month
    let day ← component target data day
    let hour ← component target data hour
    let minute ← minute.mapM (component target data)
    let second ← second.mapM (component target data)
    -- The first component that is missing ends the record; later ones are not looked at.
    (List.range year.height).mapM fun record => OptionT.run do
      let year ← observation policy year record
      let month ← observation policy month record
      let day ← observation policy day record
      let hour ← observation policy hour record
      let minute ← observationOrZero policy record minute
      let second ← observationOrZero policy record second
      OptionT.mk (.ok (compose? year month day hour minute second))
  | .epoch field => do
    let grid ← component target data field
    grid.rows.mapM fun row => (required row[0]?).map (epochSeconds? policy)

/-- The shift to UTC in seconds. -/
def offsetSeconds (t : Timestamp) (target : String) : Except Error Int :=
  match word? (t.hoursFromUtc * 3600) with
  | some offset => .ok offset
  | none => .error (.invalidConfig (target ++ "::hoursFromUtc") .dayOffset)

/-- The timestamp of every record in UTC. -/
def utcSeconds (t : Timestamp) (target : String) (policy : MissingPolicy) (data : FieldTable) :
    Except Error (List (Option Int)) := do
  let seconds ← t.localSeconds target policy data
  let offset ← t.offsetSeconds target
  return seconds.map fun s => s.bind fun s => word? (s - offset)

/-- A timestamp as text. -/
def isoText (seconds : Option Int) : String :=
  ((seconds.bind DateTime.ofSeconds?).map DateTime.text).getD ""

/-- Timestamps as values. -/
def write (t : Timestamp) (policy : MissingPolicy) (seconds : List (Option Int)) : Values :=
  match t.format with
  | .epochSeconds =>
    .numeric (.ofColumn (seconds.map fun s => (s.map Float.ofInt).getD policy.sentinel))
  | .iso8601 => .text (seconds.map isoText)

/-- The timestamps of a batch. -/
def resolve (t : Timestamp) (target : String) (policy : MissingPolicy) (data : FieldTable) :
    Logged Values := do
  let seconds ← t.utcSeconds target policy data
  -- A record without a timestamp is reported and no failure.
  let unusable := seconds.count none
  if 0 < unusable then Logged.report (.timestampsUnusable target unusable)
  return t.write policy seconds

/-! ### Reading -/

/-- Reads the name of a format. -/
def formatOfConfig (c : Cursor) : Except Error TimeFormat := do
  match ← c.asString with
  | "epoch" => return .epochSeconds
  | "iso8601" => return .iso8601
  | _ => throw (.invalidConfig c.path .timeFormat)

/-- Reads the fields of a timestamp. -/
def sourceOfConfig (c : Cursor) : Except Error TimeSource :=
  match c.get? "epoch" with
  | some epoch =>
    -- Of the calendar fields only the year is looked for beside an epoch.
    if c.has "year" then .error (.invalidConfig c.path .epochOrComponents)
    else epoch.asString.map .epoch
  | none => do
    return .components (← c.string "year") (← c.string "month") (← c.string "day")
      (← c.string "hour") (← c.string? "minute") (← c.string? "second")

/-- Reads the shift to UTC, which must lie within a day. -/
def hoursOfConfig (c : Cursor) : Except Error Int := do
  let hours ← c.integerOrDefault .datetime "hoursFromUtc"
  if 24 < hours.natAbs then
    throw (.invalidConfig (c.path ++ "::hoursFromUtc") (.dayOffsetFound (Float.ofInt hours)))
  return hours

/-- Reads a timestamp block. -/
def ofConfig (c : Cursor) : Logged Timestamp := do
  c.check .datetime
  let source ← sourceOfConfig c
  let hours ← hoursOfConfig c
  let format ← c.optional "format" formatOfConfig
  return ⟨source, hours, format.getD .epochSeconds⟩

end Timestamp

end ObsExport
