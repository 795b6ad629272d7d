import ObsExport.Proofs.Encoding.Contents

/-!
# What an encoding reads of a batch

An export declares fields: those of its filters, of its splits and of its variables
(`Export.fields`). Two batches agree on some fields if they have as many records and hold the same
under every one of these names, be it nothing (`FieldTable.AgreeOn`).

No stage of an encoding tells batches apart that agree on what the stage declares: filters
(`Export.retainedRows_eq`), splits (`Export.partitions_eq`) and variables (`Variable.resolve_eq`)
do not, and the selections in between keep the agreement (`AgreeOn.select`). So an encoding answers,
fails and reports alike for batches that agree on the fields of its export
(`encode_eq_of_agreeOn`): no other field can change anything.
-/

namespace ObsExport

/-! ### Runs over equal steps -/

section Runs

variable {m : Type → Type} [Monad m] {α β : Type}

theorem mapM_congr_left [LawfulMonad m] {f g : α → m β} {l : List α} (h : ∀ a ∈ l, f a = g a) :
    l.mapM f = l.mapM g := by
  induction l with
  | nil => rfl
  | cons a l ih =>
    rw [List.mapM_cons, List.mapM_cons, h a (by simp),
      ih fun a' ha' => h a' (List.mem_cons_of_mem _ ha')]

theorem foldlM_congr_left {f g : β → α → m β} {l : List α} {b : β}
    (h : ∀ b, ∀ a ∈ l, f b a = g b a) : l.foldlM f b = l.foldlM g b := by
  induction l generalizing b with
  | nil => rfl
  | cons a l ih =>
    rw [List.foldlM_cons, List.foldlM_cons, h b a (by simp)]
    exact bind_congr fun b' => ih fun b a' ha' => h b a' (List.mem_cons_of_mem _ ha')

end Runs

/-! ### Batches that agree -/

/-- Batches of `n` records that hold the same under some names, be it nothing. -/
structure FieldTable.AgreeOn (names : List String) (n : Nat) (t t' : FieldTable) : Prop where
  left : t.checkRows = .ok n
  right : t'.checkRows = .ok n
  fields : ∀ name ∈ names, t.find? name = t'.find? name

namespace FieldTable.AgreeOn

variable {names : List String} {n : Nat} {t t' : FieldTable}

theorem mono (h : AgreeOn names n t t') {fewer : List String} (hfewer : fewer ⊆ names) :
    AgreeOn fewer n t t' :=
  ⟨h.left, h.right, fun name hname => h.fields name (hfewer hname)⟩

theorem rowCount_eq (h : AgreeOn names n t t') : t.rowCount = t'.rowCount := by
  obtain ⟨hleft, -⟩ := checkRows_eq_ok_iff.1 h.left
  obtain ⟨hright, -⟩ := checkRows_eq_ok_iff.1 h.right
  rw [← hleft, ← hright]

/-- Ascending rows can be selected from both batches, and the selections agree. -/
theorem select (h : AgreeOn names n t t') {indices : List Nat}
    (hascending : indices.Pairwise (· < ·)) (hlt : ∀ i ∈ indices, i < n) :
    ∃ s s', FieldTable.select t indices = .ok s ∧ FieldTable.select t' indices = .ok s' ∧
      AgreeOn names indices.length s s' := by
  obtain ⟨s, hs⟩ := exists_select_of_ascending h.left hascending hlt
  obtain ⟨s', hs'⟩ := exists_select_of_ascending h.right hascending hlt
  refine ⟨s, s', hs, hs', checkRows_select h.left hs hlt, checkRows_select h.right hs' hlt, ?_⟩
  intro name hname
  -- Under a name both batches have nothing, or the same values and hence the same selection.
  have hfind := h.fields name hname
  rcases find?_select hs name with ⟨hnone, hnone'⟩ | ⟨v, w, hv, hw, hfound⟩
  · rcases find?_select hs' name with ⟨-, hout⟩ | ⟨v', w', hv', -, -⟩
    · rw [hnone', hout]
    · rw [← hfind, hnone] at hv'
      contradiction
  · rcases find?_select hs' name with ⟨hnone, -⟩ | ⟨v', w', hv', hw', hfound'⟩
    · rw [← hfind, hv] at hnone
      contradiction
    · obtain rfl : v = v' := Option.some.inj (hv.symm.trans (hfind.trans hv'))
      obtain rfl : w = w' := Except.ok.inj (hw.symm.trans hw')
      rw [hfound, hfound']

theorem reserveRows_eq (h : AgreeOn names n t t') (entry : Size.Entry) :
    t.reserveRows names entry = t'.reserveRows names entry := by
  -- Only the sizes of the named fields decide whether rows are reserved.
  have hany : (names.any fun name => (t.find? name).any fun v => t.rowCount ≤ v.stored) =
      names.any fun name => (t'.find? name).any fun v => t'.rowCount ≤ v.stored := by
    rw [h.rowCount_eq, Bool.eq_iff_iff, List.any_eq_true, List.any_eq_true]
    exact exists_congr fun name => and_congr_right fun hname => by rw [h.fields name hname]
  rw [reserveRows, reserveRows, hany, h.rowCount_eq]

end FieldTable.AgreeOn

variable {n : Nat} {data data' : FieldTable} {policy : MissingPolicy}

/-! ### Filters -/

/-- A filter reads its own field. -/
theorem Filter.mask_eq {f : Filter} (h : data.find? f.mnemonic = data'.find? f.mnemonic) :
    f.mask data policy = f.mask data' policy := by
  unfold mask target
  rw [h]

/-- The filters read their own fields and the number of rows. -/
theorem Filter.combinedMask_eq {filters : List Filter}
    (h : data.AgreeOn (filters.map Filter.mnemonic) n data') :
    combinedMask filters data policy = combinedMask filters data' policy := by
  unfold combinedMask
  rw [h.reserveRows_eq, h.rowCount_eq]
  -- The masks are combined alike, so it is enough that each filter has the same mask.
  refine bind_congr fun _ => foldlM_congr_left fun kept f hf => ?_
  rw [mask_eq (h.fields f.mnemonic (List.mem_map.2 ⟨f, hf, rfl⟩))]

/-- Filters keep the same rows of batches that agree on their fields. -/
theorem Export.retainedRows_eq {e : Export}
    (h : data.AgreeOn (e.filters.map Filter.mnemonic) n data') :
    e.retainedRows data policy = e.retainedRows data' policy := by
  rw [retainedRows, retainedRows, Filter.sift, Filter.sift, Filter.combinedMask_eq h]

/-! ### Splits -/

/-- A split reads its own field and the number of rows. -/
theorem Split.rowLabels_eq {s : Split} {splitName : String}
    (h : data.AgreeOn [s.mnemonic] n data') :
    s.rowLabels splitName data policy = s.rowLabels splitName data' policy := by
  have htarget : s.target data = s.target data' := by
    rw [target, target, h.fields s.mnemonic (List.mem_singleton.2 rfl)]
  unfold rowLabels reportedLabels labels categories
  rw [htarget, h.rowCount_eq]

/-- Splits divide batches alike that agree on their fields. -/
theorem Export.partitions_eq {e : Export}
    (h : data.AgreeOn (e.splits.values.map Split.mnemonic) n data') :
    e.partitions data policy = e.partitions data' policy := by
  have hnames : e.rowNames data policy = e.rowNames data' policy := by
    unfold rowNames
    rw [h.rowCount_eq, mapM_congr_left fun s hs => Split.rowLabels_eq (h.mono ?_)]
    intro name hname
    rw [List.mem_singleton.1 hname]
    exact List.mem_map.2 ⟨s.2, List.mem_map.2 ⟨s, hs, rfl⟩, rfl⟩
  unfold partitions
  rw [h.reserveRows_eq, h.rowCount_eq, hnames]

/-! ### Variables -/

/-- Candidates read the fields that they name. -/
theorem Candidates.resolveFrom_eq {c : Candidates} {target : String} {names : List String}
    (h : ∀ name ∈ names, data.find? name = data'.find? name) :
    c.resolveFrom target policy data names = c.resolveFrom target policy data' names := by
  induction names with
  | nil => rfl
  | cons name later ih =>
    -- The candidate is taken or passed over alike, and after it the later ones.
    have hlater := ih fun name' hname' => h name' (List.mem_cons_of_mem _ hname')
    rw [resolveFrom, resolveFrom, h name (by simp), hlater]

/-- Composing timestamps reads the fields of its source, those of unset components not among
them. -/
theorem Timestamp.localSeconds_eq {t : Timestamp} {target : String}
    (h : ∀ name ∈ t.fields, data.find? name = data'.find? name) :
    t.localSeconds target policy data = t.localSeconds target policy data' := by
  have hcomponent : ∀ field ∈ t.fields,
      component target data field = component target data' field := by
    intro field hfield
    rw [component, component, h field hfield]
  unfold localSeconds
  unfold fields at hcomponent
  cases hsource : t.source with
  | epoch field =>
    rw [hsource] at hcomponent
    dsimp only
    rw [hcomponent field (by simp)]
  | components year month day hour minute second =>
    rw [hsource] at hcomponent
    -- The two components that may be unset read a field only if they are set.
    have hminute : minute.mapM (component target data) = minute.mapM (component target data') := by
      cases minute with
      | none => rfl
      | some field =>
        rw [Option.mapM_some, Option.mapM_some, hcomponent field (by simp)]
    have hsecond : second.mapM (component target data) = second.mapM (component target data') := by
      cases second with
      | none => rfl
      | some field =>
        rw [Option.mapM_some, Option.mapM_some, hcomponent field (by simp)]
    dsimp only
    rw [hcomponent year (by simp), hcomponent month (by simp), hcomponent day (by simp),
      hcomponent hour (by simp), hminute, hsecond]

/-- A variable resolves alike in batches that hold the same under the names of its fields. -/
theorem Variable.resolve_eq {v : Variable} {target : String}
    (h : ∀ name ∈ v.fields, data.find? name = data'.find? name) :
    v.resolve target policy data = v.resolve target policy data' := by
  cases v with
  | candidates c => exact Candidates.resolveFrom_eq h
  | timestamp t =>
    have hseconds := @Timestamp.localSeconds_eq data data' policy t target h
    show t.resolve target policy data = t.resolve target policy data'
    rw [Timestamp.resolve, Timestamp.resolve, Timestamp.utcSeconds, Timestamp.utcSeconds, hseconds]

/-! ### Encodings -/

/-- The names of all fields that an export may look at. -/
def Export.fields (e : Export) : List String :=
  e.filters.map Filter.mnemonic ++ e.splits.values.map Split.mnemonic ++
    e.vars.values.flatMap Variable.fields

namespace Encoder

variable {σ : Type} {enc : Encoder} {e : Export} {sink : Sink σ}

/-- Resolving the variables reads the fields of the variables. -/
theorem resolveAll_eq (h : data.AgreeOn (e.vars.values.flatMap Variable.fields) n data') :
    resolveAll e policy data = resolveAll e policy data' := by
  refine mapM_congr_left fun v hv => ?_
  rw [Variable.resolve_eq fun name hname => h.fields name ?_]
  exact List.mem_flatMap.2 ⟨v.2, List.mem_map.2 ⟨v, hv, rfl⟩, hname⟩

/-- What is written of a partition depends on the fields of the variables only. -/
theorem writeVariables_eq {partition : String}
    (h : data.AgreeOn (e.vars.values.flatMap Variable.fields) n data') :
    enc.writeVariables sink e data partition = enc.writeVariables sink e data' partition := by
  rw [writeVariables, writeVariables, resolveAll_eq h, h.rowCount_eq]

/-- Encoding the rows of a partition reads the fields of the variables at these rows. Both tables
are selected from, and the selections agree as the tables do. -/
theorem encodePartition_eq {partition : String} {indices : List Nat}
    (h : data.AgreeOn (e.vars.values.flatMap Variable.fields) n data')
    (hascending : indices.Pairwise (· < ·)) (hlt : ∀ i ∈ indices, i < n) :
    enc.encodePartition sink e data partition indices =
      enc.encodePartition sink e data' partition indices := by
  obtain ⟨s, s', hs, hs', hagree⟩ := h.select hascending hlt
  unfold encodePartition
  rw [hs, hs', Logged.liftM_ok_bind, Logged.liftM_ok_bind, writeVariables_eq hagree]

/-- Whatever the variables are written to, an encoding reads no field but those of its export. -/
theorem encodeWith_eq (h : data.AgreeOn e.fields n data') :
    enc.encodeWith sink e data = enc.encodeWith sink e data' := by
  have hfilters : e.filters.map Filter.mnemonic ⊆ e.fields := fun name hname =>
    List.mem_append_left _ (List.mem_append_left _ hname)
  have hsplits : e.splits.values.map Split.mnemonic ⊆ e.fields := fun name hname =>
    List.mem_append_left _ (List.mem_append_right _ hname)
  have hvars : e.vars.values.flatMap Variable.fields ⊆ e.fields := fun name hname =>
    List.mem_append_right _ hname
  simp only [encodeWith]
  rw [h.left, h.right, Logged.liftM_ok_bind, Logged.liftM_ok_bind,
    ← Export.retainedRows_eq (h.mono hfilters)]
  refine Logged.bind_congr_of_ok fun retained hretained => ?_
  -- Filters keep rows of the batch, so the rest of the batch can be selected.
  obtain ⟨hascending, -⟩ := Export.retainedRows_eq_ok h.left hretained
  have hlt := Export.lt_of_retainedRows h.left hretained
  obtain ⟨filtered, filtered', hselect, hselect', hagree⟩ := h.select hascending hlt
  rw [hselect, hselect', Logged.liftM_ok_bind, Logged.liftM_ok_bind,
    ← Export.partitions_eq (hagree.mono hsplits)]
  refine Logged.bind_congr_of_ok fun partitions hpartitions => ?_
  -- Partitions list rows that are left, so these can be selected in turn.
  have hparts : ∀ p ∈ partitions.entries,
      enc.encodePartition sink e filtered p.1 p.2 =
        enc.encodePartition sink e filtered' p.1 p.2 := by
    intro p hp
    obtain ⟨hascending, -⟩ := Export.rows_of_partitions hagree.left hpartitions
      (Dict.mem_entries_iff.1 hp)
    exact encodePartition_eq (hagree.mono hvars) hascending
      (Export.lt_of_partitions hagree.left hpartitions hp)
  rw [mapM_congr_left hparts]

/-- **An encoding reads the declared fields and no others.** Batches with as many records that hold
the same under the names of all fields of an export, be it nothing, are encoded alike: with equal
stores and counters, or with the same failure, and with the same reports. -/
theorem encode_eq_of_agreeOn (h : data.AgreeOn e.fields n data') :
    enc.encode e data = enc.encode e data' :=
  encodeWith_eq h

/-- The records of `windRecords` with two fields more, one of them before all others. -/
def annotatedRecords : FieldTable :=
  ⟨[("height", .numeric (.ofColumn [10, 1e11, 2, 2])), ("land", .numeric (.ofColumn [1, 1, 2, 1])),
    ("temp", .numeric (.ofColumn [100, 250, 260, 240])),
    ("wind", .numeric (.ofColumn [3, 1e11, 5, 7])), ("zone", .text ["a", "", "b", "c"])], by decide⟩

/-- The pipeline `windPipeline` sees neither heights nor zones. -/
theorem encode_eq_of_agreeOn_annotated :
    Pipeline.windRecords.AgreeOn Pipeline.windPipeline.exported.fields 4 annotatedRecords ∧
      Pipeline.windPipeline.encoder.encode Pipeline.windPipeline.exported Pipeline.windRecords =
        Pipeline.windPipeline.encoder.encode Pipeline.windPipeline.exported annotatedRecords := by
  have hagree : Pipeline.windRecords.AgreeOn Pipeline.windPipeline.exported.fields 4 annotatedRecords := by
    refine ⟨rfl, rfl, fun name hname => ?_⟩
    have hname : name ∈ ["temp", "land", "wind"] := hname
    rw [List.mem_cons, List.mem_cons, List.mem_singleton] at hname
    rcases hname with rfl | rfl | rfl <;> rfl
  exact ⟨hagree, encode_eq_of_agreeOn hagree⟩

end Encoder

end ObsExport
