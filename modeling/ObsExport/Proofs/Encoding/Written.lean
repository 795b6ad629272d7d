import ObsExport.Pipeline
import ObsExport.Proofs.Export.Artifacts
import ObsExport.Proofs.Pairing
import ObsExport.Proofs.Store.Writing

/-!
# Encodings that succeed

What has happened when an encoding succeeds, one statement for each of its stages: the output
variables of a partition were materialized one after another and stand in its store in their order
(`Encoder.writeVariables_vars`), a partition was skipped or written (`Encoder.encodePartition_cases`),
and a batch was filtered, divided, and its partitions handled in order (`Encoder.encodeWith_eq_ok`).
-/

namespace ObsExport

namespace Encoder

variable {σ : Type} {enc : Encoder} {e : Export} {sink : Sink σ} {data : FieldTable} {rows : Nat}
  {resolved : List (String × Values)}

/-! ### Variables of a partition -/

/-- Writing output variables counts them and keeps the name of the partition. -/
theorem count_of_writeOutputs {outputs : List OutputVariable} {written written' : Written σ}
    (h : (outputs.foldlM (enc.writeOutput sink rows resolved) written).outcome = .ok written') :
    written'.partition = written.partition ∧
      written'.count = written.count + outputs.length := by
  rw [Logged.outcome_foldlM] at h
  -- The induction is on the variables still to be written, each of which is counted once.
  induction outputs generalizing written with
  | nil =>
    obtain rfl := Except.ok.inj h
    exact ⟨rfl, rfl⟩
  | cons output outputs ih =>
    rw [List.foldlM_cons] at h
    obtain ⟨next, hnext, h⟩ := bind_eq_ok_iff.1 h
    simp only [writeOutput, Logged.outcome_bind, Logged.outcome_monadLift, Logged.outcome_pure,
      bind_eq_ok_iff] at hnext
    obtain ⟨v, -, s, -, hnext⟩ := hnext
    obtain rfl := Except.ok.inj hnext
    obtain ⟨hpartition, hcount⟩ := ih h
    refine ⟨hpartition, hcount.trans ?_⟩
    rw [List.length_cons, Nat.add_assoc, Nat.add_comm 1]

/-- Writing output variables appends them, each in columns, and keeps the names different. -/
theorem vars_of_writeOutputs {outputs : List OutputVariable} {written written' : Written Store}
    (h : (outputs.foldlM (enc.writeOutput Store.sink rows resolved) written).outcome =
      .ok written') :
    (written.sink.names.Nodup → written'.sink.names.Nodup) ∧
      ∃ vs, written'.sink.vars = written.sink.vars ++ vs ∧
        List.Forall₂ (fun output v =>
          materialize enc.layout enc.settings.missing rows resolved output = .ok v) outputs vs := by
  rw [Logged.outcome_foldlM] at h
  -- The induction is on the variables still to be written; the store grows at its end.
  induction outputs generalizing written with
  | nil =>
    obtain rfl := Except.ok.inj h
    exact ⟨id, [], by simp, .nil⟩
  | cons output outputs ih =>
    rw [List.foldlM_cons] at h
    obtain ⟨next, hnext, h⟩ := bind_eq_ok_iff.1 h
    simp only [writeOutput, Logged.outcome_bind, Logged.outcome_monadLift, Logged.outcome_pure,
      bind_eq_ok_iff] at hnext
    obtain ⟨v, hv, store, hstore, hnext⟩ := hnext
    obtain rfl := Except.ok.inj hnext
    obtain ⟨hnames, vs, hvars, hall⟩ := ih h
    obtain ⟨hnone, hstored⟩ := Store.write_eq_ok hstore
    obtain ⟨hnew, -⟩ := Store.refusal?_eq_none_iff.1 hnone
    refine ⟨fun hnd => hnames ?_, v :: vs, ?_, .cons hv hall⟩
    · show (store.vars.map StoredVariable.name).Nodup
      rw [hstored, List.map_append, List.map_singleton, ← List.concat_eq_append]
      exact hnd.concat hnew
    · rw [hvars, hstored, List.append_assoc]
      rfl

/-- An output variable is made of the artifact of its source, in its dimensions. -/
theorem materialize_cases {layout : Layout} {policy : MissingPolicy} {output : OutputVariable}
    {v : StoredVariable} (h : materialize layout policy rows resolved output = .ok v) :
    ∃ values dimensions, artifact resolved output.source = .ok values ∧
      output.dimensions.mapM (dimension layout output rows resolved) = .ok dimensions ∧
      values.materialize output.name dimensions output.options policy = .ok v := by
  obtain ⟨values, hvalues, h⟩ := bind_eq_ok_iff.1 h
  obtain ⟨dimensions, hdimensions, h⟩ := bind_eq_ok_iff.1 h
  exact ⟨values, dimensions, hvalues, hdimensions, h⟩

/-- An artifact that is found was resolved from the variable of its name. -/
theorem resolve_of_artifact {policy : MissingPolicy} {source : String} {v : Values}
    (hresolved : (resolveAll e policy data).outcome = .ok resolved)
    (h : artifact resolved source = .ok v) :
    ∃ var, e.vars.find? source = some var ∧
      (var.resolve source policy data).outcome = .ok v := by
  have hlookup : Dict.lookup source resolved = some v := by
    unfold artifact at h
    split at h
    next w hw => rw [hw, Except.ok.inj h]
    next => contradiction
  -- Every artifact was resolved from an entry of the export, and keeps its name.
  simp only [resolveAll, Logged.outcome_mapM, Logged.outcome_bind, Logged.outcome_pure]
    at hresolved
  obtain ⟨entry, hentry, hstep⟩ := exists_of_mem_mapM hresolved (Dict.mem_of_lookup hlookup)
  obtain ⟨w, hw, heq⟩ := bind_eq_ok_iff.1 hstep
  obtain ⟨rfl, rfl⟩ := Prod.mk.inj (Except.ok.inj heq)
  exact ⟨entry.2, Dict.mem_entries_iff.1 hentry, hw⟩

/-- An output variable in columns has a row for each record. -/
theorem rowCount_of_artifact {policy : MissingPolicy} {n : Nat} {layout : Layout}
    {output : OutputVariable} {v : StoredVariable} (hrows : data.checkRows = .ok n)
    (hresolved : (resolveAll e policy data).outcome = .ok resolved)
    (h : materialize layout policy rows resolved output = .ok v) : v.rowCount = n := by
  obtain ⟨values, dimensions, hartifact, -, h⟩ := materialize_cases h
  obtain ⟨var, -, hresolve⟩ := resolve_of_artifact hresolved hartifact
  rw [rowCount_of_materialize h]
  exact Variable.height_of_resolve hrows hresolve

/-- The store of a partition holds all output variables in their order, each in columns. -/
theorem writeVariables_vars {partition : String} {written : Written Store}
    (h : (enc.writeVariables Store.sink e data partition).outcome = .ok written) :
    written.partition = partition ∧ written.count = enc.layout.outputs.length ∧
      written.sink.names.Nodup ∧
      ∃ resolved, (resolveAll e enc.settings.missing data).outcome = .ok resolved ∧
        List.Forall₂ (fun output v =>
          materialize enc.layout enc.settings.missing data.rowCount resolved output = .ok v)
          enc.layout.outputs written.sink.vars := by
  simp only [writeVariables, Logged.outcome_bind] at h
  obtain ⟨resolved, hresolved, h⟩ := bind_eq_ok_iff.1 h
  obtain ⟨hpartition, hcount⟩ := count_of_writeOutputs h
  obtain ⟨hnames, vs, hvars, hall⟩ := vars_of_writeOutputs h
  have hvars : written.sink.vars = vs := hvars
  exact ⟨hpartition, hcount.trans (Nat.zero_add _), hnames List.nodup_nil, resolved, hresolved,
    hvars ▸ hall⟩

/-! ### Partitions of a batch -/

/-- A partition is skipped if it is empty and the settings say so, and otherwise its rows are
selected and its variables written. -/
theorem encodePartition_cases {filtered : FieldTable} {partition : String} {indices : List Nat}
    {result : Option (Written σ)}
    (h : (enc.encodePartition sink e filtered partition indices).outcome = .ok result) :
    (result = none ∧ indices = [] ∧ enc.settings.skipEmptyPartitions = true) ∨
      ∃ written subset, result = some written ∧
        ¬ (indices = [] ∧ enc.settings.skipEmptyPartitions = true) ∧
        FieldTable.select filtered indices = .ok subset ∧
        (enc.writeVariables sink e subset partition).outcome = .ok written := by
  unfold encodePartition at h
  split at h
  next hskip =>
    simp only [Bool.and_eq_true, List.isEmpty_iff] at hskip
    exact .inl ⟨(Except.ok.inj h).symm, hskip⟩
  next hskip =>
    simp only [Bool.and_eq_true, List.isEmpty_iff] at hskip
    simp only [Logged.outcome_bind, Logged.outcome_monadLift, Logged.outcome_report,
      Logged.outcome_pure, ok_bind, bind_eq_ok_iff] at h
    obtain ⟨subset, hsubset, written, hwritten, h⟩ := h
    exact .inr ⟨written, subset, (Except.ok.inj h).symm, hskip, hsubset, hwritten⟩

/-- A partition that is written holds its rows of the filtered batch. -/
theorem encodePartition_eq_ok {filtered : FieldTable} {partition : String} {indices : List Nat}
    {written : Written σ}
    (h : (enc.encodePartition sink e filtered partition indices).outcome = .ok (some written)) :
    ∃ subset, FieldTable.select filtered indices = .ok subset ∧
      (enc.writeVariables sink e subset partition).outcome = .ok written := by
  rcases encodePartition_cases h with ⟨hnone, -⟩ | ⟨written', subset, hsome, -, hsubset, hwritten⟩
  · contradiction
  · obtain rfl := Option.some.inj hsome
    exact ⟨subset, hsubset, hwritten⟩

/-- A batch that was encoded has passed all stages, and every partition has been handled. -/
theorem encodeWith_eq_ok {outputs : Dict String σ} {tally : Tally}
    (h : (enc.encodeWith sink e data).outcome = .ok (outputs, tally)) :
    ∃ retained filtered partitions results,
      data.checkRows = .ok data.rowCount ∧
      (e.retainedRows data enc.settings.missing).outcome = .ok retained ∧
      FieldTable.select data retained = .ok filtered ∧
      (e.partitions filtered enc.settings.missing).outcome = .ok partitions ∧
      List.Forall₂ (fun p result =>
        (enc.encodePartition sink e filtered p.1 p.2).outcome = .ok result)
        partitions.entries results ∧
      outputs = Dict.ofList ((results.filterMap id).map fun w => (w.partition, w.sink)) ∧
      tally = ⟨data.rowCount, retained.length, (results.filterMap id).length,
        results.countP Option.isNone, total ((results.filterMap id).map Written.count)⟩ := by
  simp only [encodeWith, Logged.outcome_bind, Logged.outcome_monadLift, Logged.outcome_mapM,
    Logged.outcome_report, Logged.outcome_pure, ok_bind, bind_eq_ok_iff] at h
  -- The stages in their order: rows counted, filtered, restricted, partitioned, written.
  obtain ⟨n, hrows, retained, hretained, filtered, hfiltered, partitions, hpartitions, results,
    hresults, h⟩ := h
  obtain ⟨houtputs, htally⟩ := Prod.mk.inj (Except.ok.inj h)
  obtain ⟨rfl, -⟩ := FieldTable.checkRows_eq_ok_iff.1 hrows
  exact ⟨retained, filtered, partitions, results, hrows, hretained, hfiltered, hpartitions,
    (mapM_eq_ok_iff_forall₂ fun _ _ => Iff.rfl).1 hresults, houtputs.symm, htally.symm⟩

end Encoder

end ObsExport
