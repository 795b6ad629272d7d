import ObsExport.Proofs.Selection
import ObsExport.Proofs.Timestamp.Records
import ObsExport.Variable.Basic

/-!
# Artifacts have a row per record

Whatever a variable resolves to has as many rows as the batch has records
(`Variable.height_of_resolve`). A variable that is read from a field keeps the rows of the field
(`Candidates.resolveFrom_eq_ok`), of which there are as many in all fields of a batch, and a timestamp
has an entry for every record (`Timestamp.height_of_resolve`).
-/

namespace ObsExport

variable {data : FieldTable} {policy : MissingPolicy} {target : String} {n : Nat}

/-! ### Variables read from a field -/

namespace Candidates

variable {c : Candidates} {values artifact : Values}

/-- Transforms change no number of rows. -/
theorem height_of_finish (h : c.finish target policy values = .ok artifact) :
    artifact.height = values.height := by
  cases values with
  | text entries =>
    rw [finish_text] at h
    split at h
    · rw [← Except.ok.inj h]
    · contradiction
  | numeric grid =>
    obtain ⟨g, hg, rfl⟩ := map_eq_ok_iff.1 h
    -- A run that succeeded answers its grid.
    have hrun : (Transform.run target policy c.transforms grid).grid = g := by
      unfold Transform.Run.outcome at hg
      split at hg
      · exact Except.ok.inj hg
      · contradiction
    show g.height = grid.height
    rw [← hrun]
    exact (Transform.shape_run target policy c.transforms grid).1

/-- What a variable resolves to was made of a candidate that is in the batch. -/
theorem resolveFrom_eq_ok {names : List String}
    (h : (c.resolveFrom target policy data names).outcome = .ok artifact) :
    ∃ name ∈ names, ∃ values, data.find? name = some values ∧
      c.finish target policy values = .ok artifact := by
  induction names with
  | nil => contradiction
  | cons name later ih =>
    -- A candidate that is absent or unobserved is passed over.
    have hskip : (c.resolveFrom target policy data later).outcome = .ok artifact →
        ∃ name' ∈ name :: later, ∃ values, data.find? name' = some values ∧
          c.finish target policy values = .ok artifact := by
      intro hlater
      obtain ⟨name', hname', hfound⟩ := ih hlater
      exact ⟨name', List.mem_cons_of_mem _ hname', hfound⟩
    unfold resolveFrom at h
    split at h
    next => exact hskip h
    next values hvalues =>
      split at h
      next => exact ⟨name, List.mem_cons_self, values, hvalues, h⟩
      next => exact hskip h

end Candidates

/-! ### Timestamps -/

namespace Timestamp

variable {t : Timestamp}

/-- Up to what is reported, resolving a timestamp is writing its seconds. -/
theorem outcome_resolve :
    (t.resolve target policy data).outcome =
      (t.utcSeconds target policy data).map (t.write policy) := by
  unfold resolve
  rw [Logged.outcome_bind, Logged.outcome_monadLift]
  cases t.utcSeconds target policy data with
  | error e => rfl
  | ok seconds =>
    rw [ok_bind]
    dsimp only
    split <;> rfl

theorem height_write (seconds : List (Option Int)) :
    (t.write policy seconds).height = seconds.length := by
  unfold write
  split
  · exact List.length_map _
  · exact List.length_map _

/-- A resolved timestamp has one value for each row. -/
theorem height_of_resolve {artifact : Values} (hrows : data.checkRows = .ok n)
    (h : (t.resolve target policy data).outcome = .ok artifact) : artifact.height = n := by
  rw [outcome_resolve] at h
  obtain ⟨seconds, hseconds, rfl⟩ := map_eq_ok_iff.1 h
  -- There is a timestamp, or none, for every record.
  obtain ⟨-, -, rfl⟩ := (utcSeconds_eq_ok_iff hrows).1 hseconds
  rw [height_write, List.length_map, List.length_range]

end Timestamp

/-- An artifact has as many rows as the batch has records. -/
theorem Variable.height_of_resolve {v : Variable} {artifact : Values}
    (hrows : data.checkRows = .ok n)
    (h : (v.resolve target policy data).outcome = .ok artifact) : artifact.height = n := by
  cases v with
  | candidates c =>
    obtain ⟨name, -, values, hvalues, hfinish⟩ := Candidates.resolveFrom_eq_ok h
    obtain ⟨rfl, haligned⟩ := FieldTable.checkRows_eq_ok_iff.1 hrows
    rw [Candidates.height_of_finish hfinish]
    exact haligned _ (Dict.mem_entries_iff.2 hvalues)
  | timestamp t => exact Timestamp.height_of_resolve hrows h

end ObsExport
