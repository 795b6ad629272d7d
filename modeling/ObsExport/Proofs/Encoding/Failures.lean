import ObsExport.Proofs.Encoding.Contents
import ObsExport.Proofs.Export.Failures

/-!
# Failures of a loaded pipeline

A pipeline that was read can still fail on a batch, but only for what the batch holds. What was
checked when it was read cannot go wrong any more: every source has an artifact and every dimension
is declared (`exists_artifact`, `exists_dimension`), output variables have different names, and all
have a row for each record, so a store never refuses them for their names or their rows
(`refusal_of_materialize`). What is left is the shape of the data, names of columns, and fill values
that were observed (`Encoder.RecordsFault`).

`Pipeline.failures_blame_data` is the statement for whole batches, and says of every fill value that
is complained about which records hold it (`Pipeline.DataFault`).
-/

namespace ObsExport

/-! ### Artifacts in columns -/

namespace Values

variable {v : Values} {name : String} {policy : MissingPolicy} {fill : Option Float} {err : Error}

theorem numericColumns_eq_error {grid : Grid}
    (h : numericColumns name grid policy fill = .error err) : err.BlamesBatch := by
  unfold numericColumns at h
  split at h
  next =>
    rcases bind_eq_error_iff.1 h with h | ⟨-, -, h⟩
    · exact Size.reserve_eq_error h ▸ .tooLarge
    · contradiction
  next =>
    rcases bind_eq_error_iff.1 h with h | ⟨-, -, h⟩
    · exact Size.reserve_eq_error h ▸ .tooLarge
    · -- A column that is cut out is one of the grid, so cutting it out does not fail.
      obtain ⟨c, hc, h⟩ := exists_of_mapM_eq_error h
      obtain ⟨xs, hxs⟩ := Grid.exists_column (List.mem_range.1 hc)
      rw [hxs] at h
      contradiction

/-- A fill value that is refused equals an observation. -/
theorem checkFill_eq_error {grid : Grid} (h : checkFill name grid policy fill = .error err) :
    ∃ f x count, fill = some f ∧ x ∈ grid.values ∧ policy.isPresent x = true ∧ (x == f) = true ∧
      err = .invalidConfig (name ++ "::fillValue") (.unobserved count f) := by
  cases fill with
  | none => contradiction
  | some f =>
    simp only [checkFill] at h
    split at h
    next => contradiction
    next hne =>
      obtain ⟨x, hx, hequal⟩ := List.countP_pos_iff.1 (Nat.pos_of_ne_zero hne)
      rw [Bool.and_eq_true] at hequal
      exact ⟨f, x, _, rfl, hx, hequal.1, hequal.2, (Except.error.inj h).symm⟩

/-- An artifact is put into columns unless it has another shape than its dimensions or chunks, its
fill value was observed, or it has too many columns. -/
theorem materialize_eq_error {dimensions : List Dimension} {options : WriteOptions}
    (h : v.materialize name dimensions options policy = .error err) :
    err.BlamesBatch ∨ (∃ rows cols configured, err = .shape name (.dimensions rows cols configured)) ∨
      (∃ chunks dims, err = .shape name (.chunkCount chunks dims)) ∨
      ∃ grid f x count, v = .numeric grid ∧ options.fillValue = some f ∧ x ∈ grid.values ∧
        policy.isPresent x = true ∧ (x == f) = true ∧
        err = .invalidConfig (name ++ "::fillValue") (.unobserved count f) := by
  -- The three checks come one after another, and each has its own failures.
  rcases bind_eq_error_iff.1 h with h | ⟨-, -, h⟩
  · unfold checkDimensions at h
    split at h
    next => contradiction
    next => exact .inr (.inl ⟨_, _, _, (Except.error.inj h).symm⟩)
  rcases bind_eq_error_iff.1 h with h | ⟨chunks, -, h⟩
  · unfold chunkSizes at h
    split at h
    next => contradiction
    next =>
      split at h
      next => exact .inr (.inr (.inl ⟨_, _, (Except.error.inj h).symm⟩))
      next => contradiction
  rcases bind_eq_error_iff.1 h with h | ⟨columns, -, h⟩
  · cases v with
    | text entries => contradiction
    | numeric grid =>
      rcases bind_eq_error_iff.1 h with h | ⟨-, -, h⟩
      · obtain ⟨f, x, count, hfill, hx, hpresent, hequal, rfl⟩ := checkFill_eq_error h
        exact .inr (.inr (.inr ⟨grid, f, x, count, rfl, hfill, hx, hpresent, hequal, rfl⟩))
      · exact .inl (numericColumns_eq_error h)
  · contradiction

end Values

namespace Encoder

variable {enc : Encoder} {e : Export} {data : FieldTable} {rows n : Nat}
  {resolved : List (String × Values)} {policy : MissingPolicy} {err : Error}

/-! ### What was checked -/

/-- Every variable of an export has an artifact. -/
theorem exists_artifact {source : String}
    (hresolved : (resolveAll e policy data).outcome = .ok resolved)
    (hsource : source ∈ e.vars.keys) : ∃ v, artifact resolved source = .ok v := by
  simp only [resolveAll, Logged.outcome_mapM, Logged.outcome_bind, Logged.outcome_pure]
    at hresolved
  obtain ⟨entry, hentry, rfl⟩ := List.mem_map.1 hsource
  obtain ⟨i, hi⟩ := List.mem_iff_getElem?.1 hentry
  obtain ⟨named, hnamed, hstep⟩ := (mapM_eq_ok_iff.1 hresolved).2 i entry hi
  obtain ⟨values, -, hstep⟩ := bind_eq_ok_iff.1 hstep
  obtain rfl := Except.ok.inj hstep
  -- The list of artifacts has an entry of that name, so the look-up finds one.
  unfold artifact
  cases hlookup : Dict.lookup entry.1 resolved with
  | some v => exact ⟨v, rfl⟩
  | none =>
    have hmem : (entry.1, values) ∈ resolved := List.mem_iff_getElem?.2 ⟨i, hnamed⟩
    exact absurd (List.mem_map.2 ⟨_, hmem, rfl⟩) (Dict.lookup_eq_none_iff.1 hlookup)

/-- Every declared dimension has a size. -/
theorem exists_dimension (output : OutputVariable) (rows : Nat) {name : String}
    (hl : enc.layout.Checked e) (hresolved : (resolveAll e policy data).outcome = .ok resolved)
    (hname : name ∈ enc.layout.locationDimension :: enc.layout.dimensions.map DimensionSpec.name) :
    ∃ d, dimension enc.layout output rows resolved name = .ok d := by
  unfold dimension
  by_cases hlocation : name = enc.layout.locationDimension
  · exact ⟨_, if_pos hlocation⟩
  rw [if_neg hlocation]
  cases hspec : enc.layout.dimension? name with
  | none =>
    -- The dimension is declared, so it is found.
    obtain ⟨spec, hmem, rfl⟩ := List.mem_map.1 ((List.mem_cons.1 hname).resolve_left hlocation)
    have hother := List.find?_eq_none.1 hspec spec hmem
    simp at hother
  | some spec =>
    have hmem := List.mem_of_find?_eq_some hspec
    dsimp only
    cases hextent : spec.extent with
    | fixed size => exact ⟨_, rfl⟩
    | columnsOf source =>
      obtain ⟨v, hv⟩ := exists_artifact hresolved (hl.dimensionSources spec hmem source hextent)
      exact ⟨_, by dsimp only; rw [hv]; rfl⟩

/-! ### One partition -/

/-- An output variable of which the fill value equals an observation of its source. -/
structure FillObserved (enc : Encoder) (e : Export) (records : FieldTable)
    (output : OutputVariable) (fill : Float) : Prop where
  declared : output ∈ enc.layout.outputs
  chosen : output.options.fillValue = some fill
  observed : ∃ var grid x, e.vars.find? output.source = some var ∧
    (var.resolve output.source enc.settings.missing records).outcome = .ok (.numeric grid) ∧
    x ∈ grid.values ∧ enc.settings.missing.isPresent x = true ∧ (x == fill) = true

/-- What writing the variables of some records may fail with. -/
inductive RecordsFault (enc : Encoder) (e : Export) (records : FieldTable) : Error → Prop where
  | batch {err : Error} (blames : err.BlamesBatch) : RecordsFault enc e records err
  | dimensions (name : String) (rows cols : Nat) (configured : List (String × Nat)) :
    RecordsFault enc e records (.shape name (.dimensions rows cols configured))
  | chunkCount (name : String) (chunks dims : Nat) :
    RecordsFault enc e records (.shape name (.chunkCount chunks dims))
  | column (name : String) : RecordsFault enc e records (.duplicateName .outputColumn name)
  | fill {output : OutputVariable} {fill : Float} (count : Nat)
    (observed : enc.FillObserved e records output fill) :
    RecordsFault enc e records (.invalidConfig (output.name ++ "::fillValue") (.unobserved count fill))

/-- An output variable of a checked layout is put into columns unless the data does not allow it. -/
theorem materialize_eq_error {output : OutputVariable} (hl : enc.layout.Checked e)
    (houtput : output ∈ enc.layout.outputs)
    (hresolved : (resolveAll e enc.settings.missing data).outcome = .ok resolved)
    (h : materialize enc.layout enc.settings.missing rows resolved output = .error err) :
    enc.RecordsFault e data err := by
  obtain ⟨values, hvalues⟩ := exists_artifact hresolved (hl.sources output houtput)
  obtain ⟨dimensions, hdimensions⟩ := exists_mapM_eq_ok fun name hname =>
    exists_dimension output rows hl hresolved (hl.declared output houtput name hname)
  have h : values.materialize output.name dimensions output.options enc.settings.missing =
      .error err := by
    unfold materialize at h
    rwa [hvalues, ok_bind, hdimensions, ok_bind] at h
  -- The source and the dimensions are there, so what is left is the artifact itself.
  rcases Values.materialize_eq_error h with h | ⟨rows, cols, configured, rfl⟩ |
    ⟨chunks, dims, rfl⟩ | ⟨grid, f, x, count, rfl, hfill, hx, hpresent, hequal, rfl⟩
  · exact .batch h
  · exact .dimensions output.name rows cols configured
  · exact .chunkCount output.name chunks dims
  · obtain ⟨var, hvar, hresolve⟩ := resolve_of_artifact hresolved hvalues
    exact .fill count ⟨houtput, hfill, var, grid, x, hvar, hresolve, hx, hpresent, hequal⟩

/-- A store that holds the output variables before another one refuses that one for the name of a
column only. -/
theorem refusal_of_materialize {before after : List OutputVariable} {output : OutputVariable}
    {store : Store} {v : StoredVariable} (hrows : data.checkRows = .ok n)
    (hresolved : (resolveAll e policy data).outcome = .ok resolved)
    (hnames : ((before ++ output :: after).map OutputVariable.name).Nodup)
    (hstore : List.Forall₂
      (fun o w => materialize enc.layout policy rows resolved o = .ok w) before store.vars)
    (hv : materialize enc.layout policy rows resolved output = .ok v)
    (h : store.refusal? v = some err) : ∃ name, err = .duplicateName .outputColumn name := by
  obtain ⟨values, dimensions, -, -, hmaterialize⟩ := materialize_cases hv
  have hrowCount : v.rowCount = n := rowCount_of_artifact hrows hresolved hv
  -- A variable in columns is refused for one of three reasons, of which the layout rules out two.
  rcases Store.refusal_of_regular (regular_of_materialize hmaterialize) h with
    ⟨hname, -⟩ | ⟨c, -, -, rfl⟩ | ⟨held, hheld, hne, -⟩
  · -- The variable of that name would be an output variable with the same name.
    obtain ⟨w, hw, hsame⟩ := List.mem_map.1 hname
    obtain ⟨o, ho, hwritten⟩ := exists_of_forall₂ hstore hw
    obtain ⟨_, _, -, -, hwritten⟩ := materialize_cases hwritten
    rw [(materialize_eq_ok hwritten).1, (materialize_eq_ok hmaterialize).1] at hsame
    rw [List.map_append, List.map_cons] at hnames
    have hdisjoint := (List.nodup_append.1 hnames).2.2
    exact absurd hsame (hdisjoint _ (List.mem_map.2 ⟨o, ho, rfl⟩) _ List.mem_cons_self)
  · exact ⟨c.name, rfl⟩
  · -- The first variable of the store has a row for each record too.
    unfold Store.rows? at hheld
    cases hvars : store.vars with
    | nil =>
      rw [hvars] at hheld
      contradiction
    | cons first later =>
      rw [hvars] at hheld
      obtain ⟨o, -, hfirst⟩ := exists_of_forall₂ hstore (hvars ▸ List.mem_cons_self)
      obtain rfl : first.rowCount = held := Option.some.inj hheld
      rw [rowCount_of_artifact hrows hresolved hfirst, hrowCount] at hne
      exact absurd rfl hne

/-- Writing the variables of some records fails for what the records hold. -/
theorem writeVariables_eq_error {partition : String} (hl : enc.layout.Checked e)
    (hday : e.WithinDay) (hrows : data.checkRows = .ok n)
    (h : (enc.writeVariables Store.sink e data partition).outcome = .error err) :
    enc.RecordsFault e data err := by
  simp only [writeVariables, Logged.outcome_bind] at h
  rcases bind_eq_error_iff.1 h with h | ⟨resolved, hresolved, h⟩
  · -- No artifact is materialized before all variables of the export are resolved.
    simp only [resolveAll, Logged.outcome_mapM, Logged.outcome_bind, Logged.outcome_pure] at h
    obtain ⟨v, hv, h⟩ := exists_of_mapM_eq_error h
    rcases bind_eq_error_iff.1 h with h | ⟨_, -, h⟩
    · exact .batch (Variable.resolve_eq_error hrows (hday v hv) h)
    · contradiction
  · -- Some output variables were written, and the next one fails.
    rw [Logged.outcome_foldlM] at h
    obtain ⟨before, output, after, written, hsplit, hbefore, h⟩ := foldlM_eq_error h
    rw [← Logged.outcome_foldlM] at hbefore
    obtain ⟨-, vs, hvars, hall⟩ := vars_of_writeOutputs hbefore
    obtain rfl : written.sink.vars = vs := hvars
    have hmem : output ∈ enc.layout.outputs := hsplit ▸ by simp
    have hnames := hl.outputNames
    rw [hsplit] at hnames
    simp only [writeOutput, Logged.outcome_bind, Logged.outcome_monadLift, Logged.outcome_pure] at h
    rcases bind_eq_error_iff.1 h with h | ⟨v, hv, h⟩
    · exact materialize_eq_error hl hmem hresolved h
    rcases bind_eq_error_iff.1 h with h | ⟨_, -, h⟩
    · obtain ⟨name, rfl⟩ := refusal_of_materialize hrows hresolved hnames hall hv
        (Store.write_eq_error h)
      exact .column name
    · contradiction

/-- A partition of a batch can be selected, so it fails for its records. -/
theorem encodePartition_eq_error {partition : String} {indices : List Nat}
    (hl : enc.layout.Checked e) (hday : e.WithinDay) (hrows : data.checkRows = .ok n)
    (hascending : indices.Pairwise (· < ·)) (hlt : ∀ row ∈ indices, row < n)
    (h : (enc.encodePartition Store.sink e data partition indices).outcome = .error err) :
    ∃ records, FieldTable.select data indices = .ok records ∧ enc.RecordsFault e records err := by
  obtain ⟨records, hselect⟩ := FieldTable.exists_select_of_ascending hrows hascending hlt
  have hcount := FieldTable.checkRows_select hrows hselect hlt
  refine ⟨records, hselect, ?_⟩
  unfold encodePartition at h
  split at h
  -- A partition that is skipped does not fail.
  next => contradiction
  next =>
    simp only [Logged.outcome_bind, Logged.outcome_monadLift, Logged.outcome_report,
      Logged.outcome_pure, hselect, ok_bind] at h
    rcases bind_eq_error_iff.1 h with h | ⟨_, -, h⟩
    · exact writeVariables_eq_error hl hday hcount h
    · contradiction

/-! ### Batches -/

/-- An encoding fails for the batch as a whole, or for the records of one of its partitions. -/
theorem encode_eq_error (hl : enc.layout.Checked e) (hday : e.WithinDay)
    (h : (enc.encode e data).outcome = .error err) :
    err.BlamesBatch ∨ ∃ name indices records, indices.Pairwise (· < ·) ∧
      (∀ row, row ∈ indices ↔ row < data.rowCount ∧
        (∀ f ∈ e.filters, f.Passes data enc.settings.missing row) ∧
        e.partitionName data enc.settings.missing row = name) ∧
      FieldTable.select data indices = .ok records ∧ enc.RecordsFault e records err := by
  simp only [encode, encodeWith, Logged.outcome_bind, Logged.outcome_monadLift,
    Logged.outcome_mapM, Logged.outcome_report, Logged.outcome_pure, ok_bind] at h
  rcases bind_eq_error_iff.1 h with h | ⟨m, hrows, h⟩
  · exact .inl (FieldTable.checkRows_eq_error h)
  obtain ⟨rfl, -⟩ := FieldTable.checkRows_eq_ok_iff.1 hrows
  rcases bind_eq_error_iff.1 h with h | ⟨retained, hretained, h⟩
  · exact .inl (Export.retainedRows_eq_error h)
  -- The rows that are retained are rows of the batch, so selecting them does not fail.
  obtain ⟨hretained_ascending, -⟩ := Export.retainedRows_eq_ok hrows hretained
  have hretained_lt := Export.lt_of_retainedRows hrows hretained
  obtain ⟨filtered, hfiltered⟩ :=
    FieldTable.exists_select_of_ascending hrows hretained_ascending hretained_lt
  have hcount : filtered.checkRows = .ok retained.length :=
    FieldTable.checkRows_select hrows hfiltered hretained_lt
  rw [hfiltered, ok_bind] at h
  rcases bind_eq_error_iff.1 h with h | ⟨partitions, hpartitions, h⟩
  · exact .inl (Export.partitions_eq_error hcount h)
  rcases bind_eq_error_iff.1 h with h | ⟨_, -, h⟩
  · obtain ⟨p, hp, h⟩ := exists_of_mapM_eq_error h
    obtain ⟨hpartition_ascending, -⟩ :=
      Export.rows_of_partitions hcount hpartitions (Dict.mem_entries_iff.1 hp)
    obtain ⟨records, hrecords, hfault⟩ := encodePartition_eq_error hl hday hcount
      hpartition_ascending (Export.lt_of_partitions hcount hpartitions hp) h
    obtain ⟨indices, hascending, hmem, hselect⟩ := exists_records hrows hretained hfiltered
      hpartitions (Dict.mem_entries_iff.1 hp) hrecords
    exact .inr ⟨p.1, indices, records, hascending, hmem, hselect, hfault⟩
  · contradiction

end Encoder

/-! ### Pipelines -/

namespace Pipeline

/-- A failure that is due to the data of a batch, not to what was checked when a pipeline was
read. -/
structure DataFault (p : Pipeline) (data : FieldTable) (err : Error) : Prop where
  inBounds : err ≠ .outOfBounds
  configured : ∀ path, err ≠ .missingConfig path
  knownKind : ∀ family path found, err ≠ .unknownKind family path found
  usable : ∀ fault, err ≠ .configuration fault
  parsed : err ≠ .configParse
  /-- Of all names only those of columns may meet. -/
  columnNames : ∀ family name, err = .duplicateName family name → family = .outputColumn
  declared : ∀ name dimension, err ≠ .shape name (.undeclaredDimension dimension)
  sameRows : ∀ name found expected, err ≠ .shape name (.storeRows found expected)
  /-- The only value of the document that may be complained about is a fill value that equals an
  observation in the records of a partition. -/
  fillValues : ∀ path expected, err = .invalidConfig path expected →
    ∃ output fill count, path = output.name ++ "::fillValue" ∧ expected = .unobserved count fill ∧
      ∃ name rows records, rows.Pairwise (· < ·) ∧
        (∀ row, row ∈ rows ↔ p.Exports data name row) ∧
        FieldTable.select data rows = .ok records ∧
        p.encoder.FillObserved p.exported records output fill

variable {t : Tree} {p : Pipeline} {data : FieldTable} {err : Error}

/-- An error that blames the batch is a fault of the data. -/
theorem dataFault_of_blames (h : err.BlamesBatch) : p.DataFault data err := by
  cases h <;> constructor <;> simp

/-- **What was checked cannot go wrong.** A pipeline that was read fails on a batch only for what
the batch holds. -/
theorem failures_blame_data (hp : (ofTree t).outcome = .ok p)
    (h : (p.encode data).outcome = .error err) : p.DataFault data err := by
  obtain ⟨hl, hday⟩ := loaded_of_ofTree hp
  have hl : p.encoder.layout.Checked p.exported := hl
  rcases Encoder.encode_eq_error hl hday h with
    hblames | ⟨name, rows, records, hascending, hmem, hselect, hfault⟩
  · exact dataFault_of_blames hblames
  · -- Every kind of fault is none of those that were excluded when the pipeline was read.
    cases hfault with
    | batch hblames => exact dataFault_of_blames hblames
    | dimensions => constructor <;> simp
    | chunkCount => constructor <;> simp
    | column => constructor <;> simp
    -- This alone is an error about a value of the document, and the batch holds the reason.
    | @fill output fill count hobserved =>
      constructor
      case fillValues =>
        rintro path expected heq
        obtain ⟨rfl, rfl⟩ := Error.invalidConfig.inj heq
        exact ⟨output, fill, count, rfl, rfl, name, rows, records, hascending, hmem, hselect,
          hobserved⟩
      all_goals simp

/-- Four records, the second of them calm. -/
def calmRecords : FieldTable :=
  ⟨[("land", .numeric (.ofColumn [1, 1, 2, 1])), ("temp", .numeric (.ofColumn [100, 250, 260, 240])),
    ("wind", .numeric (.ofColumn [3, 0, 5, 7]))], by decide⟩

/-- A speed of zero is an observation in `calmRecords`, so it cannot stand for missing ones. -/
theorem failures_blame_data_calm :
    (ofTree windOfWarm).outcome = .ok windPipeline ∧
      (windPipeline.encode calmRecords).outcome =
        .error (.invalidConfig "speed::fillValue" (.unobserved 1 (Float.ofInt 0))) ∧
      windPipeline.DataFault calmRecords
        (.invalidConfig "speed::fillValue" (.unobserved 1 (Float.ofInt 0))) := by
  have hp : (ofTree windOfWarm).outcome = .ok windPipeline := rfl
  have herror : (windPipeline.encode calmRecords).outcome =
      .error (.invalidConfig "speed::fillValue" (.unobserved 1 (Float.ofInt 0))) := rfl
  have hfault := failures_blame_data hp herror
  exact ⟨hp, herror, hfault⟩

end Pipeline

end ObsExport
