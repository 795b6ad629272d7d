import ObsExport.Proofs.Config.Loaded
import ObsExport.Proofs.Export.Artifacts
import ObsExport.Proofs.Export.Partitions
import ObsExport.Proofs.Export.Retained

/-!
# Failures of an export

An export that fails on a batch fails for the batch: a field is not there, has no column or holds
text where numbers are needed, categories share a name, an observation is moved out of range, or a
list would be too large (`Error.BlamesBatch`). There is one statement for each stage: counting rows
(`FieldTable.checkRows_eq_error`), filters (`Export.retainedRows_eq_error`), splits
(`Export.partitions_eq_error`) and variables (`Variable.resolve_eq_error`).

Indices never go wrong: where a stage looks up a row or a column by its number, the batch has as
many rows as are counted, and the column was asked for before.
-/

namespace ObsExport

/-- The failures for which the fields of a batch are the cause. -/
inductive Error.BlamesBatch : Error → Prop where
  | rows (name : String) (found expected : Nat) : BlamesBatch (.shape name (.batchRows found expected))
  | noCategoryColumn (name : String) : BlamesBatch (.shape name .noCategoryColumn)
  | noComponentColumn (name : String) : BlamesBatch (.shape name .noComponentColumn)
  | fieldNotFound (name : String) : BlamesBatch (.fieldNotFound name)
  | type (name : String) (fault : TypeFault) : BlamesBatch (.type name fault)
  | ambiguousSplit (split name : String) : BlamesBatch (.ambiguousSplit split name)
  | unresolvable (target : String) (candidates : List String) :
    BlamesBatch (.unresolvable target candidates)
  | transformRange (target : String) (transform : Transform) (value : Float) :
    BlamesBatch (.transformRange target transform value)
  | tooLarge : BlamesBatch .tooLarge

open Error.BlamesBatch

variable {data : FieldTable} {policy : MissingPolicy} {n : Nat} {err : Error}

/-! ### Rows -/

theorem FieldTable.reserveRows_eq_error {names : List String} {entry : Size.Entry}
    (h : data.reserveRows names entry = .error err) : err.BlamesBatch := by
  unfold reserveRows at h
  split at h
  next => contradiction
  next => exact Size.reserve_eq_error h ▸ tooLarge

/-- Counting the rows of a batch fails if a field has another number of them. -/
theorem FieldTable.checkRows_eq_error (h : data.checkRows = .error err) : err.BlamesBatch := by
  unfold checkRows at h
  split at h
  next name found _ => exact Except.error.inj h ▸ rows name found data.rowCount
  next => contradiction

/-! ### Filters -/

/-- A filter fails for what the batch lacks. -/
theorem Filter.mask_eq_error {f : Filter} (h : f.mask data policy = .error err) :
    err.BlamesBatch := by
  rcases bind_eq_error_iff.1 h with h | ⟨grid, -, h⟩
  · unfold target at h
    split at h
    next => contradiction
    next => exact Except.error.inj h ▸ type f.mnemonic .filter
    next => exact Except.error.inj h ▸ fieldNotFound f.mnemonic
  · rcases bind_eq_error_iff.1 h with h | ⟨-, -, h⟩
    · exact Size.reserveBeyond_eq_error h ▸ tooLarge
    · contradiction

/-- Filters fail for the field of one of them, or because the rows are too many. -/
theorem Export.retainedRows_eq_error {e : Export}
    (h : (e.retainedRows data policy).outcome = .error err) : err.BlamesBatch := by
  rw [retainedRows, Filter.outcome_sift, Filter.outcome_combinedMask] at h
  -- The mask comes first, and then the list of the rows at which it is true.
  rcases bind_eq_error_iff.1 h with h | ⟨mask, -, h⟩
  · rcases bind_eq_error_iff.1 h with h | ⟨-, -, h⟩
    · exact FieldTable.reserveRows_eq_error h
    · obtain ⟨_, f, _, kept, -, -, h⟩ := foldlM_eq_error h
      exact Filter.mask_eq_error (map_eq_error_iff.1 h)
  · rcases bind_eq_error_iff.1 h with h | ⟨-, -, h⟩
    · exact Size.reserve_eq_error h ▸ tooLarge
    · contradiction

/-! ### Splits -/

/-- A split fails for its field, or because two categories share a name. -/
theorem Split.rowLabels_eq_error {s : Split} {splitName : String} (hrows : data.checkRows = .ok n)
    (h : (s.rowLabels splitName data policy).outcome = .error err) : err.BlamesBatch := by
  by_cases happlies : s.Applies data
  · obtain ⟨-, name, hname⟩ | ⟨-, hlabels⟩ := rowLabels_cases hrows happlies
    · rw [hname] at h
      exact Except.error.inj h ▸ ambiguousSplit splitName name
    · rw [hlabels] at h
      contradiction
  · -- Otherwise it is the field that fails, and nothing else is looked at.
    have htarget : ∃ e, s.target data = .error e ∧ e.BlamesBatch := by
      unfold target
      cases hfind : data.find? s.mnemonic with
      | none => exact ⟨_, rfl, fieldNotFound s.mnemonic⟩
      | some values =>
        cases values with
        | text entries => exact ⟨_, rfl, type s.mnemonic .split⟩
        | numeric grid =>
          have hcols : grid.cols = 0 := by
            by_contra hne
            exact happlies ⟨grid, hfind, Nat.pos_of_ne_zero hne⟩
          exact ⟨_, if_pos hcols, noCategoryColumn s.mnemonic⟩
    obtain ⟨e, htarget, hblames⟩ := htarget
    simp only [rowLabels, reportedLabels, labels, categories, htarget, Logged.outcome_bind,
      Logged.outcome_monadLift, error_bind] at h
    exact Except.error.inj h ▸ hblames

/-- Splits fail for the field of one of them, or because a name stands for two things. -/
theorem Export.partitions_eq_error {e : Export} (hrows : data.checkRows = .ok n)
    (h : (e.partitions data policy).outcome = .error err) : err.BlamesBatch := by
  unfold partitions at h
  split at h
  next =>
    simp only [Logged.outcome_bind, Logged.outcome_monadLift] at h
    rcases bind_eq_error_iff.1 h with h | ⟨-, -, h⟩
    · exact Size.reserve_eq_error h ▸ tooLarge
    · contradiction
  next =>
    simp only [Logged.outcome_bind, Logged.outcome_monadLift] at h
    rcases bind_eq_error_iff.1 h with h | ⟨-, -, h⟩
    · exact FieldTable.reserveRows_eq_error h
    · rcases bind_eq_error_iff.1 h with h | ⟨names, -, h⟩
      · -- One of the splits fails while rows are named, or else two names clash.
        simp only [rowNames, Logged.outcome_bind, Logged.outcome_mapM, Logged.outcome_pure] at h
        rcases bind_eq_error_iff.1 h with h | ⟨_, -, h⟩
        · obtain ⟨s, -, h⟩ := exists_of_mapM_eq_error h
          exact Split.rowLabels_eq_error hrows h
        · contradiction
      · split at h
        next clash _ => exact Except.error.inj h ▸ ambiguousSplit _ clash.name
        next => contradiction

/-! ### Variables read from a field -/

/-- A chain of transforms fails for its values. -/
theorem Transform.run_eq_error {target : String} {chain : List Transform} {g : Grid}
    (h : (run target policy chain g).outcome = .error err) : err.BlamesBatch := by
  induction chain generalizing g with
  | nil => contradiction
  | cons t later ih =>
    rw [run] at h
    split at h
    -- The first transform that fails ends the run, and those before it do not matter.
    next => exact ih h
    next e happly =>
      obtain rfl : e = err := Except.error.inj h
      unfold apply at happly
      split at happly
      next x _ => exact Except.error.inj happly ▸ transformRange target t x
      next => contradiction

/-- A variable that is read from a field fails if no candidate can be used, or for the one that is
used. -/
theorem Candidates.resolveFrom_eq_error {c : Candidates} {target : String} {names : List String}
    (h : (c.resolveFrom target policy data names).outcome = .error err) : err.BlamesBatch := by
  induction names with
  | nil => exact Except.error.inj h ▸ unresolvable target c.names
  | cons name later ih =>
    unfold resolveFrom at h
    -- A candidate that is absent or fully missing is passed over, so it fails for nothing.
    split at h
    next => exact ih h
    next values _ =>
      split at h
      next =>
        have h : c.finish target policy values = .error err := h
        cases values with
        | numeric grid => exact Transform.run_eq_error (map_eq_error_iff.1 h)
        | text entries =>
          rw [finish_text] at h
          split at h
          next => contradiction
          next => exact Except.error.inj h ▸ type target .transforms
      next => exact ih h

/-! ### Timestamps -/

namespace Timestamp

variable {t : Timestamp} {target : String}

/-- A component fails for what the batch lacks. -/
theorem component_eq_error {field : String} (h : component target data field = .error err) :
    err.BlamesBatch := by
  unfold component at h
  split at h
  next =>
    split at h
    next => contradiction
    next => exact Except.error.inj h ▸ noComponentColumn field
  next => exact Except.error.inj h ▸ type field (.component target)
  next => exact Except.error.inj h ▸ unresolvable target [field]

/-- Composing timestamps fails for one of the fields that they are composed from. -/
theorem localSeconds_eq_error (hrows : data.checkRows = .ok n)
    (h : t.localSeconds target policy data = .error err) : err.BlamesBatch := by
  have hanswers := answers_localSeconds t target policy hrows
  rw [h] at hanswers
  obtain ⟨field, -, hfield⟩ := hanswers
  exact component_eq_error hfield

/-- A shift of a day at most is a number of seconds. -/
theorem exists_offsetSeconds (h : t.hoursFromUtc.natAbs ≤ 24) :
    ∃ offset, t.offsetSeconds target = .ok offset := by
  have hword : word? (t.hoursFromUtc * 3600) = some (t.hoursFromUtc * 3600) := by
    refine word?_eq_some_iff.2 ⟨?_, rfl⟩
    unfold InWord leastWord greatestWord
    omega
  exact ⟨t.hoursFromUtc * 3600, by rw [offsetSeconds, hword]⟩

/-- Timestamps that are shifted by a day at most fail for their fields only. -/
theorem resolve_eq_error (hrows : data.checkRows = .ok n) (hday : t.hoursFromUtc.natAbs ≤ 24)
    (h : (t.resolve target policy data).outcome = .error err) : err.BlamesBatch := by
  rw [outcome_resolve] at h
  rcases bind_eq_error_iff.1 (map_eq_error_iff.1 h) with h | ⟨seconds, -, h⟩
  · exact localSeconds_eq_error hrows h
  · obtain ⟨offset, hoffset⟩ := @exists_offsetSeconds t target hday
    rw [hoffset] at h
    contradiction

end Timestamp

/-- A variable fails for the fields it is made of. -/
theorem Variable.resolve_eq_error {v : Variable} {target : String}
    (hrows : data.checkRows = .ok n) (hday : v.WithinDay)
    (h : (v.resolve target policy data).outcome = .error err) : err.BlamesBatch := by
  cases v with
  | candidates c => exact Candidates.resolveFrom_eq_error h
  | timestamp t => exact Timestamp.resolve_eq_error hrows hday h

end ObsExport
