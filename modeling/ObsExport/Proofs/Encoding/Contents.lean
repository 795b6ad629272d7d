import ObsExport.Proofs.Config.FillValues
import ObsExport.Proofs.Encoding.Written
import ObsExport.Proofs.Export.Partitions
import ObsExport.Proofs.Export.Retained

/-!
# What the stores of an encoded batch hold

On its way into a store a record is renumbered twice, once by the filters and once by the splits,
its fields are resolved, written in columns, and read again. `Pipeline.stores_hold_artifacts` goes
all the way: the store of a partition holds the output variables of the layout in their order, and
reading one gives the artifact that its source resolves to on those records of the original batch
that pass every filter and have the partition's name.

The steps on the way are the ascending list of these records (`Encoder.exists_records`), what the
store of a partition holds (`Encoder.writeVariables_eq_ok`), and reading one of its variables
(`toValues_materialize`).
-/

namespace ObsExport

namespace Encoder

variable {enc : Encoder} {e : Export} {data : FieldTable} {rows : Nat}
  {resolved : List (String × Values)}

/-! ### Variables of a partition -/

/-- A variable in columns has the name of its output variable, and reading it gives the artifact of
its source. -/
theorem toValues_of_materialize {policy : MissingPolicy} {output : OutputVariable}
    {v : StoredVariable} (hfill : output.Fillable)
    (h : materialize enc.layout policy rows resolved output = .ok v) :
    v.name = output.name ∧ ∃ values, artifact resolved output.source = .ok values ∧
      v.toValues policy = .ok (values.normalised policy) := by
  obtain ⟨values, dimensions, hvalues, -, h⟩ := materialize_cases h
  obtain ⟨hname, -⟩ := materialize_eq_ok h
  exact ⟨hname, values, hvalues, toValues_materialize h hfill⟩

/-- What the store of a partition holds: the output variables in their order, each of which is read
as the artifact of its source. -/
theorem writeVariables_eq_ok {partition : String} {written : Written Store}
    (hfill : ∀ o ∈ enc.layout.outputs, o.Fillable)
    (h : (enc.writeVariables Store.sink e data partition).outcome = .ok written) :
    written.partition = partition ∧
      written.sink.names = enc.layout.outputs.map OutputVariable.name ∧
      ∀ output ∈ enc.layout.outputs, ∃ var values, e.vars.find? output.source = some var ∧
        (var.resolve output.source enc.settings.missing data).outcome = .ok values ∧
        written.sink.read output.name enc.settings.missing =
          .ok (values.normalised enc.settings.missing) := by
  obtain ⟨hpartition, -, hnodup, resolved, hresolved, hall⟩ := writeVariables_vars h
  generalize hvars : written.sink.vars = vs at hall
  obtain ⟨hlen, hall⟩ := List.forall₂_iff_get.1 hall
  refine ⟨hpartition, ?_, fun output houtput => ?_⟩
  · show written.sink.vars.map StoredVariable.name = _
    rw [hvars]
    refine List.ext_getElem (by simp [hlen]) fun i hi hi' => ?_
    rw [List.getElem_map, List.getElem_map]
    rw [List.length_map] at hi hi'
    exact (toValues_of_materialize (hfill _ (List.getElem_mem hi')) (hall i hi' hi)).1
  · obtain ⟨i, hi, rfl⟩ := List.getElem_of_mem houtput
    have hi' : i < vs.length := hlen ▸ hi
    obtain ⟨hname, values, hartifact, hvalues⟩ :=
      toValues_of_materialize (hfill _ houtput) (hall i hi hi')
    obtain ⟨var, hvar, hresolve⟩ := resolve_of_artifact hresolved hartifact
    refine ⟨var, values, hvar, hresolve, ?_⟩
    -- No other variable of the store has this name, so the look-up finds this one.
    have hmem : vs[i] ∈ written.sink.vars := hvars ▸ List.getElem_mem hi'
    have hfind : written.sink.find? enc.layout.outputs[i].name = some vs[i] :=
      (Store.find?_eq_some_iff hnodup).2 ⟨hmem, hname⟩
    rw [Store.read, hfind]
    exact hvalues

/-! ### Partitions of a batch -/

/-- The records of a partition, counted in the batch: two selections are one, and what the filters
and the splits say about a row does not depend on where it is counted. -/
theorem exists_records {policy : MissingPolicy} {n : Nat} {retained indices : List Nat}
    {filtered subset : FieldTable} {partitions : Partitions} {name : String}
    (hrows : data.checkRows = .ok n)
    (hretained : (e.retainedRows data policy).outcome = .ok retained)
    (hfiltered : FieldTable.select data retained = .ok filtered)
    (hpartitions : (e.partitions filtered policy).outcome = .ok partitions)
    (hindices : partitions.find? name = some indices)
    (hsubset : FieldTable.select filtered indices = .ok subset) :
    ∃ records, records.Pairwise (· < ·) ∧
      (∀ row, row ∈ records ↔ row < n ∧ (∀ f ∈ e.filters, f.Passes data policy row) ∧
        e.partitionName data policy row = name) ∧
      FieldTable.select data records = .ok subset := by
  obtain ⟨hascending, hpasses⟩ := Export.retainedRows_eq_ok hrows hretained
  have hcount : filtered.checkRows = .ok retained.length :=
    FieldTable.checkRows_select hrows hfiltered (Export.lt_of_retainedRows hrows hretained)
  -- Rows of the partition are places in the list of retained rows.
  obtain ⟨hascending', hnamed⟩ := Export.rows_of_partitions hcount hpartitions hindices
  obtain ⟨records, hrecords⟩ := exists_composes fun i hi => ((hnamed i).1 hi).1
  refine ⟨records, hrecords.pairwise hascending hascending', fun row => ?_,
    FieldTable.select_select hrecords hfiltered hsubset⟩
  rw [hrecords.mem_iff, ← and_assoc, ← hpasses row]
  constructor
  · rintro ⟨i, hi, hrow⟩
    refine ⟨List.mem_iff_getElem?.2 ⟨i, hrow⟩, ?_⟩
    rw [← Export.partitionName_select hfiltered hrow]
    exact ((hnamed i).1 hi).2
  · rintro ⟨hmem, hname⟩
    obtain ⟨i, hrow⟩ := List.mem_iff_getElem?.1 hmem
    refine ⟨i, (hnamed i).2 ⟨(List.getElem?_eq_some_iff.1 hrow).1, ?_⟩, hrow⟩
    rw [Export.partitionName_select hfiltered hrow, hname]

end Encoder

/-! ### Pipelines -/

namespace Pipeline

/-- A record of a batch that passes all filters and has the name of a partition. -/
def Exports (p : Pipeline) (data : FieldTable) (name : String) (row : Nat) : Prop :=
  row < data.rowCount ∧
    (∀ f ∈ p.exported.filters, f.Passes data p.settings.missing row) ∧
    p.exported.partitionName data p.settings.missing row = name

/-- A store with the output variables of a pipeline for some records of a batch. -/
structure Holds (p : Pipeline) (records : FieldTable) (store : Store) : Prop where
  names : store.names = p.layout.outputs.map OutputVariable.name
  /-- Every variable is read as what its source resolves to on the records, with the sentinel in
  place of missing numbers. -/
  read : ∀ output ∈ p.layout.outputs, ∃ var values,
    p.exported.vars.find? output.source = some var ∧
    (var.resolve output.source p.settings.missing records).outcome = .ok values ∧
    store.read output.name p.settings.missing = .ok (values.normalised p.settings.missing)

variable {t : Tree} {p : Pipeline} {data : FieldTable} {outputs : Dict String Store}
  {tally : Tally} {name : String} {store : Store}

/-- **Stores hold the artifacts of their records.** The store of every partition that was written
holds what the output variables resolve to on the records of the batch, in ascending order, that
pass all filters and belong to the partition. -/
theorem stores_hold_artifacts (hp : (ofTree t).outcome = .ok p)
    (h : (p.encode data).outcome = .ok (outputs, tally)) (hs : outputs.find? name = some store) :
    ∃ rows records, rows.Pairwise (· < ·) ∧ (∀ row, row ∈ rows ↔ p.Exports data name row) ∧
      FieldTable.select data rows = .ok records ∧ p.Holds records store := by
  simp only [encode, encoder, Encoder.encode, Encoder.encodeWith, Logged.outcome_bind,
    Logged.outcome_monadLift, Logged.outcome_mapM, Logged.outcome_report, Logged.outcome_pure,
    ok_bind, bind_eq_ok_iff] at h
  obtain ⟨n, hrows, retained, hretained, filtered, hfiltered, partitions, hpartitions, results,
    hresults, h⟩ := h
  obtain ⟨rfl, -⟩ := Prod.mk.inj (Except.ok.inj h)
  -- The store was made for an entry of the partitions.
  rw [Dict.find?_ofList] at hs
  obtain ⟨written, hwritten, heq⟩ := List.mem_map.1 (List.mem_reverse.1 (Dict.mem_of_lookup hs))
  obtain ⟨hname, rfl⟩ := Prod.mk.inj heq
  obtain ⟨result, hresult, hsome⟩ := List.mem_filterMap.1 hwritten
  obtain ⟨entry, hentry, hencoded⟩ := exists_of_mem_mapM hresults hresult
  obtain rfl : result = some written := hsome
  obtain ⟨subset, hsubset, hvariables⟩ := Encoder.encodePartition_eq_ok hencoded
  obtain ⟨hpartition, hnames, hread⟩ :=
    Encoder.writeVariables_eq_ok (fillable_of_ofTree hp) hvariables
  obtain rfl : entry.1 = name := hpartition.symm.trans hname
  obtain ⟨records, hascending, hmem, hselect⟩ := Encoder.exists_records hrows hretained hfiltered
    hpartitions (Dict.mem_entries_iff.1 hentry) hsubset
  obtain ⟨rfl, -⟩ := FieldTable.checkRows_eq_ok_iff.1 hrows
  exact ⟨records, subset, hascending, hmem, hselect, hnames, hread⟩

/-- A document that keeps the warm records, splits them and writes their wind. -/
def windOfWarm : Tree :=
  .map [
    ("export", .map [
      ("filters", .list [.map [("bounding", .map [
        ("lowerBound", .integer 200), ("mnemonic", .string "temp")])]]),
      ("splits", .map [("land", .map [("category", .map [("mnemonic", .string "land")])])]),
      ("variables", .map [("w", .map [("mnemonic", .string "wind")])])]),
    ("output", .map [
      ("variables", .list [.map [
        ("fillValue", .integer 0), ("name", .string "speed"), ("source", .string "w")]])])]

/-- The pipeline of `windOfWarm`. -/
def windPipeline : Pipeline where
  settings := .standard
  exported := {
    vars := ⟨[("w", .candidates ⟨["wind"], [], by decide⟩)], by decide⟩
    splits := ⟨[("land", ⟨"land", Dict.empty, by decide⟩)], by decide⟩
    filters := [⟨"temp", some (Float.ofInt 200), none⟩]
    nonempty := by decide }
  layout := ⟨"Location", [], [⟨"speed", "w", ["Location"],
    ⟨[], some (Float.ofInt 0), none, none, none⟩⟩]⟩

/-- Four records, the first of them cold and the second without wind. -/
def windRecords : FieldTable :=
  ⟨[("land", .numeric (.ofColumn [1, 1, 2, 1])), ("temp", .numeric (.ofColumn [100, 250, 260, 240])),
    ("wind", .numeric (.ofColumn [3, 1e11, 5, 7]))], by decide⟩

/-- A column of wind. -/
def windStore (speeds : List (Option Float)) : Store :=
  ⟨[⟨"speed", ["Location"], [speeds.length], [speeds.length], some (Float.ofInt 0), none, none,
    none, false, [⟨"speed", .numeric speeds⟩]⟩]⟩

/-- The second and the fourth record of `windRecords` are together. -/
theorem stores_hold_artifacts_wind :
    (ofTree windOfWarm).outcome = .ok windPipeline ∧
      (windPipeline.encode windRecords).outcome =
        .ok (⟨[("1", windStore [some (Float.ofInt 0), some 7]), ("2", windStore [some 5])],
          by decide⟩, ⟨4, 3, 2, 0, 2⟩) ∧
      ∃ rows records, rows.Pairwise (· < ·) ∧
        (∀ row, row ∈ rows ↔ windPipeline.Exports windRecords "1" row) ∧
        FieldTable.select windRecords rows = .ok records ∧
        windPipeline.Holds records (windStore [some (Float.ofInt 0), some 7]) := by
  have hp : (ofTree windOfWarm).outcome = .ok windPipeline := rfl
  have houtputs : (windPipeline.encode windRecords).outcome =
      .ok (⟨[("1", windStore [some (Float.ofInt 0), some 7]), ("2", windStore [some 5])],
        by decide⟩, ⟨4, 3, 2, 0, 2⟩) := rfl
  exact ⟨hp, houtputs, stores_hold_artifacts hp houtputs rfl⟩

end Pipeline

end ObsExport
