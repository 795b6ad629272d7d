import ObsExport.Export
import ObsExport.Proofs.Config.Readers

/-!
# What the blocks of an export are read from

Reading a block looks at its keys one after another and stops at the first that is wrong. What it
answers is said here without that order: a variable is a timestamp or candidates, by the block that
it has (`Variable.ofConfig_eq_ok_iff`), and an export is made of its filters, its splits and its
variables (`Export.ofConfig_eq_ok_iff`).
-/

namespace ObsExport

variable {c : Cursor}

/-- Candidates are read from their names and their transforms. -/
theorem Candidates.ofConfig_eq_ok_iff {candidates : Candidates} :
    Candidates.ofConfig c = .ok candidates ↔
      (c.child "mnemonic" >>= Cursor.asStrings) = .ok candidates.names ∧
        Transform.chainOfConfig c = .ok candidates.transforms := by
  simp only [ofConfig, bind_eq_ok_iff]
  constructor
  · rintro ⟨d, hd, names, hnames, h⟩
    split at h
    next => contradiction
    next =>
      obtain ⟨chain, hchain, hmake⟩ := bind_eq_ok_iff.1 h
      unfold make at hmake
      split at hmake
      next => contradiction
      next =>
        obtain rfl := Except.ok.inj hmake
        exact ⟨⟨d, hd, hnames⟩, hchain⟩
  · rintro ⟨⟨d, hd, hnames⟩, hchain⟩
    refine ⟨d, hd, candidates.names, hnames, ?_⟩
    have hsome : ¬ candidates.names.isEmpty = true := by
      simpa using candidates.nonempty
    rw [if_neg hsome, hchain, ok_bind, make, dif_neg candidates.nonempty]

/-- A variable is the timestamp of its block, if it has one and names no fields, or else it is read
from the fields that it names. -/
theorem Variable.ofConfig_eq_ok_iff {v : Variable} :
    (Variable.ofConfig c).outcome = .ok v ↔
      Section.exportVariable.Accepts c.value ∧
        ((∃ block t, c.get? "datetime" = some block ∧ c.has "mnemonic" = false ∧
            (Timestamp.ofConfig block).outcome = .ok t ∧ timestamp t = v) ∨
          ∃ cs, c.get? "datetime" = none ∧ Candidates.ofConfig c = .ok cs ∧ candidates cs = v) := by
  unfold ofConfig
  rw [Cursor.check_bind_eq_ok_iff]
  refine and_congr_right fun _ => ?_
  have hcandidates : candidates <$> Candidates.ofConfig c = .ok v ↔
      ∃ cs, Candidates.ofConfig c = .ok cs ∧ candidates cs = v := map_eq_ok_iff
  cases hdatetime : c.get? "datetime" with
  | some block =>
    have htimestamp : timestamp <$> (Timestamp.ofConfig block).outcome = .ok v ↔
        ∃ t, (Timestamp.ofConfig block).outcome = .ok t ∧ timestamp t = v := map_eq_ok_iff
    cases hmnemonic : c.has "mnemonic" with
    | true => simp [Cursor.has, hdatetime]
    | false =>
      -- Transforms are reported or not, and the block is read either way.
      cases c.has "transforms" <;> simp [htimestamp]
  | none =>
    cases hmnemonic : c.has "mnemonic" with
    | true => simp [hcandidates, Cursor.has, hdatetime]
    | false =>
      have hnone : c.child "mnemonic" = .error (.missingConfig (c.pathOf "mnemonic")) := by
        rw [Cursor.has, Option.isSome_eq_false_iff, Option.isNone_iff_eq_none] at hmnemonic
        rw [Cursor.child, hmnemonic]
      simp [Candidates.ofConfig_eq_ok_iff, hnone]

namespace Export

/-- An export is made of its filters, its splits and its variables. -/
theorem ofConfig_eq_ok_iff {e : Export} :
    (ofConfig c).outcome = .ok e ↔
      Section.exports.Accepts c.value ∧ ∃ filters splits entries vars,
        (filtersOfConfig c).outcome = .ok filters ∧ (splitsOfConfig c).outcome = .ok splits ∧
        (c.child "variables" >>= nonEmptyEntries) = .ok entries ∧
        (readEntries Variable.ofConfig entries).outcome = .ok vars ∧
        make filters splits vars = .ok e := by
  unfold ofConfig
  rw [Cursor.check_bind_eq_ok_iff]
  simp only [Logged.outcome_bind, Logged.outcome_monadLift, Logged.outcome_report,
    Logged.outcome_pure, ok_bind, bind_eq_ok_iff]
  refine and_congr_right fun _ => ?_
  constructor
  · rintro ⟨filters, hfilters, splits, hsplits, map, hmap, entries, hentries, vars, hvars, result,
      hresult, h⟩
    obtain rfl := Except.ok.inj h
    exact ⟨filters, splits, entries, vars, hfilters, hsplits, ⟨map, hmap, hentries⟩, hvars, hresult⟩
  · rintro ⟨filters, splits, entries, vars, hfilters, hsplits, ⟨map, hmap, hentries⟩, hvars,
      hresult⟩
    exact ⟨filters, hfilters, splits, hsplits, map, hmap, entries, hentries, vars, hvars, e,
      hresult, rfl⟩

end Export

end ObsExport
