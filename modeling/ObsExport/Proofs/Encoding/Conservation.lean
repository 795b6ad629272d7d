import ObsExport.Proofs.Encoding.Contents

/-!
# No record is lost or counted twice

An encoding handles one partition after another, and each is either skipped, because it is empty and
empty partitions are to be skipped, or written to a store with a row for each of its records
(`Encoder.Handled`). So what was written belongs, one by one, to the partitions that are not skipped
(`kept_of_handled`), and sums over what was written are sums over partitions.

`records_are_conserved`: the counters are those of the rows that pass all filters and of their
partitions, the outputs are named as the partitions that were not skipped, and the stores together
have as many rows as records were retained (`Encoder.Accounts`).
-/

namespace ObsExport

/-! ### Sums over parts of a list -/

section Sums

variable {α β : Type}

/-- Elements that contribute nothing can be left out of a sum. -/
theorem total_map_filter {f : α → Nat} {keeps : α → Bool} {l : List α}
    (h : ∀ a ∈ l, keeps a = false → f a = 0) :
    total ((l.filter keeps).map f) = total (l.map f) := by
  induction l with
  | nil => rfl
  | cons a l ih =>
    have hrest := ih fun a' ha' => h a' (List.mem_cons_of_mem _ ha')
    cases ha : keeps a with
    | true =>
      rw [List.filter_cons_of_pos ha, List.map_cons, List.map_cons, total_cons, total_cons, hrest]
    | false =>
      rw [List.filter_cons_of_neg (by simp [ha]), hrest, List.map_cons, total_cons,
        h a List.mem_cons_self ha, Nat.zero_add]

/-- A sum of equal numbers is a product. -/
theorem total_map_const {f : α → Nat} {k : Nat} {l : List α} (h : ∀ a ∈ l, f a = k) :
    total (l.map f) = l.length * k := by
  induction l with
  | nil => simp
  | cons a l ih =>
    rw [List.map_cons, total_cons, h a List.mem_cons_self,
      ih fun a' ha' => h a' (List.mem_cons_of_mem _ ha'), List.length_cons, Nat.succ_mul,
      Nat.add_comm]

theorem map_eq_map_of_forall₂ {γ : Type} {R : α → β → Prop} {f : α → γ} {g : β → γ} {l : List α}
    {l' : List β} (h : List.Forall₂ R l l') (heq : ∀ a b, R a b → f a = g b) :
    l.map f = l'.map g := by
  have hmaps : List.Forall₂ (· = ·) (l.map f) (l'.map g) :=
    List.forall₂_map_left_iff.2 (List.forall₂_map_right_iff.2 (h.imp heq))
  rwa [List.forall₂_eq_eq_eq] at hmaps

end Sums

namespace Encoder

variable {enc : Encoder} {e : Export} {data filtered : FieldTable} {partitions : Partitions}
  {entries : List (String × List Nat)} {results : List (Option (Written Store))}

/-! ### One partition -/

/-- Whether a partition with some rows is left out. -/
def skips (enc : Encoder) (rows : List Nat) : Bool :=
  rows.isEmpty && enc.settings.skipEmptyPartitions

/-- A partition is skipped exactly if it is empty and the settings say that empty ones are. -/
theorem skips_iff {rows : List Nat} :
    enc.skips rows = true ↔ rows = [] ∧ enc.settings.skipEmptyPartitions = true := by
  rw [skips, Bool.and_eq_true, List.isEmpty_iff]

/-- What is written of a partition: all output variables and, if there are any, a row for each
record. -/
structure WrittenFor (enc : Encoder) (p : String × List Nat) (written : Written Store) :
    Prop where
  partition : written.partition = p.1
  count : written.count = enc.layout.outputs.length
  rowCount : enc.layout.outputs ≠ [] → written.sink.rowCount = p.2.length

/-- What may become of a partition. -/
inductive Handled (enc : Encoder) (p : String × List Nat) : Option (Written Store) → Prop where
  | skipped (skips : enc.skips p.2 = true) : Handled enc p none
  | written {written : Written Store} (keeps : enc.skips p.2 = false)
    (holds : enc.WrittenFor p written) : Handled enc p (some written)

/-- A store that was written for a batch has a row for each record. -/
theorem rowCount_of_writeVariables {n : Nat} {partition : String} {written : Written Store}
    (hrows : data.checkRows = .ok n) (houtputs : enc.layout.outputs ≠ [])
    (h : (enc.writeVariables Store.sink e data partition).outcome = .ok written) :
    written.sink.rowCount = n := by
  obtain ⟨-, -, -, resolved, hresolved, hall⟩ := writeVariables_vars h
  -- The first variable decides, and its artifact has a row for each record.
  cases hvars : written.sink.vars with
  | nil =>
    rw [hvars, List.forall₂_nil_right_iff] at hall
    contradiction
  | cons v vs =>
    rw [hvars] at hall
    obtain ⟨output, outputs, hmaterialize, -, -⟩ := List.forall₂_cons_right_iff.1 hall
    have hfirst : written.sink.rowCount = v.rowCount := by
      rw [Store.rowCount, Store.rows?, hvars]
      rfl
    rw [hfirst]
    exact rowCount_of_artifact hrows hresolved hmaterialize

/-- A partition of a batch is handled. -/
theorem handled_of_encodePartition {n : Nat} {p : String × List Nat}
    {result : Option (Written Store)} (hrows : filtered.checkRows = .ok n)
    (hlt : ∀ row ∈ p.2, row < n)
    (h : (enc.encodePartition Store.sink e filtered p.1 p.2).outcome = .ok result) :
    enc.Handled p result := by
  rcases encodePartition_cases h with ⟨rfl, hskips⟩ | ⟨written, subset, rfl, hkeeps, hsubset, h⟩
  · exact .skipped (skips_iff.2 hskips)
  · obtain ⟨hpartition, hcount, -⟩ := writeVariables_vars h
    have hsubset := FieldTable.checkRows_select hrows hsubset hlt
    refine .written (by rwa [← Bool.not_eq_true, skips_iff]) ⟨hpartition, hcount, fun houtputs => ?_⟩
    exact rowCount_of_writeVariables hsubset houtputs h

/-! ### All partitions -/

/-- The partitions that are not left out. -/
def kept (enc : Encoder) (entries : List (String × List Nat)) : List (String × List Nat) :=
  entries.filter fun p => !enc.skips p.2

/-- What was written belongs to the partitions that are not left out. -/
theorem kept_of_handled (h : List.Forall₂ enc.Handled entries results) :
    List.Forall₂ enc.WrittenFor (enc.kept entries) (results.filterMap id) := by
  induction h with
  | nil => exact .nil
  | cons hp _ ih =>
    cases hp with
    -- What is skipped is left out on both sides.
    | skipped hskips => rwa [kept, List.filter_cons_of_neg (by simp [hskips])]
    | written hkeeps holds =>
      rw [kept, List.filter_cons_of_pos (by simp [hkeeps])]
      exact .cons holds ih

/-- A partition is written or skipped. -/
theorem length_of_handled (h : List.Forall₂ enc.Handled entries results) :
    (results.filterMap id).length + results.countP Option.isNone = entries.length := by
  rw [h.length_eq]
  clear h
  induction results with
  | nil => rfl
  | cons result results ih =>
    cases result with
    | none =>
      rw [List.countP_cons_of_pos rfl, List.length_cons, ← ih]
      rfl
    | some written =>
      rw [List.countP_cons_of_neg (by simp), List.length_cons, ← ih, Nat.add_right_comm]
      rfl

/-- The names that were written are those of the partitions that are not skipped, in order. -/
theorem names_of_handled (h : List.Forall₂ enc.Handled entries results) :
    (results.filterMap id).map Written.partition = (enc.kept entries).map Prod.fst :=
  (map_eq_map_of_forall₂ (kept_of_handled h) fun _ _ hw => hw.partition.symm).symm

/-- Outputs are listed as they were written, since partitions come by name. -/
theorem entries_of_handled (h : List.Forall₂ enc.Handled partitions.entries results) :
    (Dict.ofList ((results.filterMap id).map fun w => (w.partition, w.sink))).entries =
      (results.filterMap id).map fun w => (w.partition, w.sink) := by
  have hfst : ((results.filterMap id).map fun w => (w.partition, w.sink)).map Prod.fst =
      (results.filterMap id).map Written.partition := by
    rw [List.map_map]
    rfl
  -- Leaving partitions out keeps the others in order.
  refine Dict.entries_ofList ?_
  rw [hfst, names_of_handled h]
  exact partitions.sorted.sublist (List.filter_sublist.map Prod.fst)

/-- All output variables are written for each partition that is. -/
theorem count_of_handled (h : List.Forall₂ enc.Handled entries results) :
    total ((results.filterMap id).map Written.count) =
      (results.filterMap id).length * enc.layout.outputs.length := by
  refine total_map_const fun written hwritten => ?_
  obtain ⟨p, -, hp⟩ := exists_of_forall₂ (kept_of_handled h) hwritten
  exact hp.count

/-- The stores have as many rows as the partitions, since those that are left out have none. -/
theorem rowCounts_of_handled (houtputs : enc.layout.outputs ≠ [])
    (h : List.Forall₂ enc.Handled entries results) :
    total ((results.filterMap id).map fun w => w.sink.rowCount) =
      (entries.map Prod.snd).flatten.length :=
  calc
    total ((results.filterMap id).map fun w => w.sink.rowCount)
      = total ((enc.kept entries).map fun p => p.2.length) := by
        rw [map_eq_map_of_forall₂ (kept_of_handled h) fun _ _ hw => (hw.rowCount houtputs).symm]
    _ = total (entries.map fun p => p.2.length) := by
        refine total_map_filter fun p _ hp => ?_
        obtain ⟨hempty, -⟩ := skips_iff.1 (by simpa using hp)
        rw [hempty, List.length_nil]
    _ = (entries.map Prod.snd).flatten.length := by
        rw [length_flatten_parts, List.map_map]
        rfl

/-! ### Batches -/

/-- What the counters and stores of an encoded batch say about the records that were retained and
their partitions. -/
structure Accounts (enc : Encoder) (e : Export) (data : FieldTable) (retained : List Nat)
    (partitions : Partitions) (outputs : Dict String Store) (tally : Tally) : Prop where
  recordsIn : data.checkRows = .ok tally.recordsIn
  recordsRetained : tally.recordsRetained = retained.length
  handled : tally.partitionsWritten + tally.partitionsSkipped = partitions.size
  written : tally.partitionsWritten = outputs.size
  variablesWritten : tally.variablesWritten = tally.partitionsWritten * enc.layout.outputs.length
  /-- A partition has an output unless it is empty and empty ones are skipped. -/
  names : ∀ name, name ∈ outputs.keys ↔ ∃ rows, partitions.find? name = some rows ∧
    ¬ (rows = [] ∧ enc.settings.skipEmptyPartitions = true)
  /-- With output variables every store has a row for each record of its partition. -/
  rowCounts : enc.layout.outputs ≠ [] → ∀ name store, outputs.find? name = some store →
    ∃ rows, partitions.find? name = some rows ∧ store.rowCount = rows.length
  /-- With output variables the stores together have a row for each record. -/
  records : enc.layout.outputs ≠ [] →
    total (outputs.values.map Store.rowCount) = tally.recordsRetained
  /-- With splits no partition is empty. -/
  nonempty : e.splits.entries ≠ [] → ∀ name rows, partitions.find? name = some rows → rows ≠ []
  /-- At most the one partition of a batch that is not split is skipped. -/
  skipped : tally.partitionsSkipped ≤ 1 ∧
    ∀ name ∈ partitions.keys, name ∉ outputs.keys → name = Export.wholeName ∧ e.splits.entries = []

variable {policy : MissingPolicy} {retained : List Nat} {n : Nat} {outputs : Dict String Store}
  {tally : Tally}

/-- Only the one partition of a batch that is not split can be left out. -/
theorem skips_cases (hrows : filtered.checkRows = .ok n)
    (hpartitions : (e.partitions filtered policy).outcome = .ok partitions) :
    (e.splits.entries = [] ∧ partitions.keys = [Export.wholeName]) ∨
      (e.splits.entries ≠ [] ∧ enc.kept partitions.entries = partitions.entries) := by
  -- With splits no partition is empty, so none is left out.
  rcases Export.partitions_eq_ok hrows hpartitions with ⟨hnone, hwhole⟩ | ⟨hsplits, -⟩
  · exact .inl ⟨hnone, by rw [Dict.keys, hwhole]; rfl⟩
  · refine .inr ⟨hsplits, List.filter_eq_self.2 fun p hp => ?_⟩
    rw [Bool.not_eq_true', ← Bool.not_eq_true, skips_iff]
    rintro ⟨hempty, -⟩
    exact Export.ne_nil_of_partitions hsplits hrows hpartitions (Dict.mem_entries_iff.1 hp) hempty

/-- The names of the partitions that are not left out. -/
theorem mem_names_kept {name : String} :
    name ∈ (enc.kept partitions.entries).map Prod.fst ↔
      ∃ rows, partitions.find? name = some rows ∧
        ¬ (rows = [] ∧ enc.settings.skipEmptyPartitions = true) := by
  rw [List.mem_map]
  -- A partition has one entry, so what is said of the entry is said of its name.
  constructor
  · rintro ⟨⟨name, rows⟩, hmem, rfl⟩
    obtain ⟨hmem, hkeeps⟩ := List.mem_filter.1 hmem
    refine ⟨rows, Dict.mem_entries_iff.1 hmem, fun hskips => ?_⟩
    simp [skips_iff.2 hskips] at hkeeps
  · rintro ⟨rows, hfind, hkeeps⟩
    refine ⟨(name, rows), List.mem_filter.2 ⟨Dict.mem_entries_iff.2 hfind, ?_⟩, rfl⟩
    rwa [Bool.not_eq_true', ← Bool.not_eq_true, skips_iff]

/-- A store that was written belongs to the partition of its name, with a row for each record if
there are output variables. -/
theorem exists_partition_of_store {name : String} {store : Store}
    (h : List.Forall₂ enc.Handled partitions.entries results)
    (hs : (Dict.ofList ((results.filterMap id).map fun w => (w.partition, w.sink))).find? name =
      some store) :
    ∃ rows, partitions.find? name = some rows ∧
      (enc.layout.outputs ≠ [] → store.rowCount = rows.length) := by
  -- The store was written, for a partition of the same name.
  have hmem := Dict.mem_entries_iff.2 hs
  rw [entries_of_handled h] at hmem
  obtain ⟨written, hwritten, heq⟩ := List.mem_map.1 hmem
  obtain ⟨rfl, rfl⟩ := Prod.mk.inj heq
  obtain ⟨p, hp, holds⟩ := exists_of_forall₂ (kept_of_handled h) hwritten
  refine ⟨p.2, ?_, holds.rowCount⟩
  rw [holds.partition]
  exact Dict.mem_entries_iff.1 (List.mem_filter.1 hp).1

/-- At most one partition is skipped, which then is the one of a batch that is not split. -/
theorem skipped_of_handled (hrows : filtered.checkRows = .ok n)
    (hpartitions : (e.partitions filtered policy).outcome = .ok partitions)
    (h : List.Forall₂ enc.Handled partitions.entries results) :
    results.countP Option.isNone ≤ 1 ∧
      ∀ name ∈ partitions.keys, name ∉ (enc.kept partitions.entries).map Prod.fst →
        name = Export.wholeName ∧ e.splits.entries = [] := by
  have hlength := length_of_handled h
  rcases @skips_cases enc e filtered partitions policy _ hrows hpartitions with
    ⟨hnone, hwhole⟩ | ⟨-, hall⟩
  · -- There is one partition, so at most one is skipped.
    have hone : partitions.entries.length = 1 := by
      simpa [Dict.keys] using congrArg List.length hwhole
    refine ⟨by omega, fun name hname _ => ⟨?_, hnone⟩⟩
    rwa [hwhole, List.mem_singleton] at hname
  · -- Every partition is kept, so as many were written as there are.
    have hwritten := (kept_of_handled h).length_eq
    rw [hall] at hwritten
    refine ⟨by omega, fun name hname hleft => absurd ?_ hleft⟩
    rwa [hall]

/-- A batch whose partitions are handled is accounted for. -/
theorem accounts_of_handled (hrows : data.checkRows = .ok data.rowCount)
    (hcount : filtered.checkRows = .ok retained.length)
    (hpartitions : (e.partitions filtered policy).outcome = .ok partitions)
    (h : List.Forall₂ enc.Handled partitions.entries results) :
    enc.Accounts e data retained partitions
      (Dict.ofList ((results.filterMap id).map fun w => (w.partition, w.sink)))
      ⟨data.rowCount, retained.length, (results.filterMap id).length,
        results.countP Option.isNone, total ((results.filterMap id).map Written.count)⟩ := by
  have hentries := entries_of_handled h
  have hkeys : (Dict.ofList ((results.filterMap id).map fun w => (w.partition, w.sink))).keys =
      (enc.kept partitions.entries).map Prod.fst := by
    rw [Dict.keys, hentries, ← names_of_handled h, List.map_map]
    rfl
  refine ⟨hrows, rfl, length_of_handled h, ?written, count_of_handled h, ?names, ?rowCounts,
    ?records, ?nonempty, ?skipped⟩
  case written =>
    rw [Dict.size, hentries, List.length_map]
  case names =>
    intro name
    rw [hkeys]
    exact mem_names_kept
  case rowCounts =>
    intro houtputs name store hs
    obtain ⟨rows, hfind, hcount⟩ := exists_partition_of_store h hs
    exact ⟨rows, hfind, hcount houtputs⟩
  case records =>
    intro houtputs
    show total ((Dict.ofList _).values.map Store.rowCount) = retained.length
    rw [Dict.values, hentries, List.map_map, List.map_map]
    -- The partitions hold every row of the filtered batch once.
    have hcover := (Export.cover_of_partitions hcount hpartitions).length_eq
    rw [List.length_range] at hcover
    exact (rowCounts_of_handled houtputs h).trans hcover
  case nonempty =>
    exact fun hsplits name rows => Export.ne_nil_of_partitions hsplits hcount hpartitions
  case skipped =>
    rw [hkeys]
    exact skipped_of_handled hcount hpartitions h

/-- **Records are conserved.** If a batch is encoded, it is accounted for by the rows that pass all
filters and by their partitions: every one of these rows is in the store of one partition, every
partition is written or skipped, and the counters say how many. -/
theorem records_are_conserved (h : (enc.encode e data).outcome = .ok (outputs, tally)) :
    ∃ retained filtered partitions, retained.Pairwise (· < ·) ∧
      (∀ row, row ∈ retained ↔
        row < data.rowCount ∧ ∀ f ∈ e.filters, f.Passes data enc.settings.missing row) ∧
      FieldTable.select data retained = .ok filtered ∧
      (e.partitions filtered enc.settings.missing).outcome = .ok partitions ∧
      enc.Accounts e data retained partitions outputs tally := by
  obtain ⟨retained, filtered, partitions, results, hrows, hretained, hfiltered, hpartitions,
    hresults, rfl, rfl⟩ := encodeWith_eq_ok h
  obtain ⟨hascending, hpasses⟩ := Export.retainedRows_eq_ok hrows hretained
  have hcount : filtered.checkRows = .ok retained.length :=
    FieldTable.checkRows_select hrows hfiltered (Export.lt_of_retainedRows hrows hretained)
  -- Partitions list rows of the filtered batch, so each is handled as a part of it.
  have hhandled : List.Forall₂ enc.Handled partitions.entries results := by
    refine List.forall₂_iff_get.2 ⟨hresults.length_eq, fun i hi hi' => ?_⟩
    have hlt := Export.lt_of_partitions hcount hpartitions (List.getElem_mem hi)
    exact handled_of_encodePartition hcount hlt (hresults.get hi hi')
  exact ⟨retained, filtered, partitions, hascending, hpasses, hfiltered, hpartitions,
    accounts_of_handled hrows hcount hpartitions hhandled⟩

/-- Of the four records of `windRecords` three are retained, two in one partition and one in
another. -/
theorem records_are_conserved_wind :
    (Pipeline.windPipeline.encoder.encode Pipeline.windPipeline.exported
        Pipeline.windRecords).outcome =
      .ok (⟨[("1", Pipeline.windStore [some (Float.ofInt 0), some 7]),
        ("2", Pipeline.windStore [some 5])], by decide⟩, ⟨4, 3, 2, 0, 2⟩) ∧
      ∃ retained filtered partitions, retained.Pairwise (· < ·) ∧
        (∀ row, row ∈ retained ↔ row < Pipeline.windRecords.rowCount ∧
          ∀ f ∈ Pipeline.windPipeline.exported.filters,
            f.Passes Pipeline.windRecords Pipeline.windPipeline.settings.missing row) ∧
        FieldTable.select Pipeline.windRecords retained = .ok filtered ∧
        (Pipeline.windPipeline.exported.partitions filtered
          Pipeline.windPipeline.settings.missing).outcome = .ok partitions ∧
        Pipeline.windPipeline.encoder.Accounts Pipeline.windPipeline.exported
          Pipeline.windRecords retained partitions
          ⟨[("1", Pipeline.windStore [some (Float.ofInt 0), some 7]),
            ("2", Pipeline.windStore [some 5])], by decide⟩ ⟨4, 3, 2, 0, 2⟩ := by
  have houtputs : (Pipeline.windPipeline.encoder.encode Pipeline.windPipeline.exported
      Pipeline.windRecords).outcome =
        .ok (⟨[("1", Pipeline.windStore [some (Float.ofInt 0), some 7]),
          ("2", Pipeline.windStore [some 5])], by decide⟩, ⟨4, 3, 2, 0, 2⟩) := rfl
  have hconserved := records_are_conserved houtputs
  exact ⟨houtputs, hconserved⟩

end Encoder

end ObsExport
