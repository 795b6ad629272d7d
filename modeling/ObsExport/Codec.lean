/-!
# Compression codecs

The codecs a columnar file can be written with. Documents spell them in lower case
(`Codec.name`); messages name them with a capital (`Codec.title`). Reading a name inverts writing
it, and nothing else is read (`Codec.ofName?_eq_some_iff`).
-/

namespace ObsExport

/-- How the columns of an output are compressed. -/
inductive Codec where
  | snappy
  | zstd
  | lz4
  | uncompressed
deriving DecidableEq, Repr

namespace Codec

/-- The spelling in documents. -/
def name : Codec → String
  | snappy => "snappy"
  | zstd => "zstd"
  | lz4 => "lz4"
  | uncompressed => "uncompressed"

/-- The name in messages. -/
def title : Codec → String
  | snappy => "Snappy"
  | zstd => "Zstd"
  | lz4 => "Lz4"
  | uncompressed => "Uncompressed"

/-- Reads the spelling of documents. -/
def ofName? (s : String) : Option Codec :=
  [snappy, zstd, lz4, uncompressed].find? fun c => c.name = s

/-- Every codec is read by its own name and by no other. -/
theorem ofName?_eq_some_iff {s : String} {c : Codec} : ofName? s = some c ↔ s = c.name := by
  constructor
  · intro h
    simpa [eq_comm] using List.find?_some h
  · rintro rfl
    cases c <;> rfl

end Codec

end ObsExport
