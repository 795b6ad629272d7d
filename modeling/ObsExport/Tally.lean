/-!
# Counters of one encoded batch

What became of the records and partitions of a batch, and the one line that reports it.
-/

namespace ObsExport

/-- Counters of one encoded batch. -/
structure Tally where
  recordsIn : Nat
  recordsRetained : Nat
  partitionsWritten : Nat
  partitionsSkipped : Nat
  variablesWritten : Nat
deriving DecidableEq, Repr

/-- The report line. -/
def Tally.text (t : Tally) : String :=
  s!"{t.recordsRetained} of {t.recordsIn} records retained, {t.partitionsWritten} partitions "
    ++ s!"written ({t.partitionsSkipped} skipped), {t.variablesWritten} variables"

end ObsExport
