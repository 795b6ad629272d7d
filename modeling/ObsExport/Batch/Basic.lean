import ObsExport.Batch.Record
import ObsExport.MissingPolicy

/-!
# Batches of records

A batch declares the fields it is about and takes one record after the other. Only consistent
records are taken (`Batch.push`), so the records of a batch are consistent by its type, whatever
was offered to it. A record may hold fields that are not declared and may lack declared ones.
-/

namespace ObsExport

/-- Declared fields and the records taken so far, oldest first. -/
@[ext] structure Batch where
  names : List String
  policy : MissingPolicy
  records : List Record
  consistent : ∀ record ∈ records, record.Consistent

namespace Batch

/-- The batch without records. -/
def empty (names : List String) (policy : MissingPolicy) : Batch := ⟨names, policy, [], by simp⟩

/-- The number of records. -/
def size (b : Batch) : Nat := b.records.length

/-- Takes one more record, unless it is inconsistent. -/
def push (b : Batch) (record : Record) : Except Error Batch :=
  match h : record.fault? with
  | some (field, fault) => .error (.structural field b.size fault)
  | none =>
    .ok { b with
      records := b.records ++ [record]
      consistent := fun r hr => by
        rcases List.mem_append.1 hr with hr | hr
        · exact b.consistent r hr
        · rw [List.mem_singleton.1 hr]
          exact Record.fault?_eq_none_iff.1 h }

/-- The readings of a declared field, one place per record; a record that lacks the field or flags
it leaves its place empty. -/
def observed (b : Batch) (name : String) : Except Error (List (Option Reading)) :=
  if name ∈ b.names then .ok (b.records.map fun record => record.observed? name)
  else .error (.fieldNotFound name)

end Batch

end ObsExport
