import ObsExport.Proofs.Store.Regular
import ObsExport.Store.Basic

/-!
# Writing to a store

A store takes a variable exactly if the name is new, the columns are as long as the variable is high
and have new names, and the number of records is that of the store (`refusal?_eq_none_iff`); a
variable that is refused is refused for one of these four reasons (`refusal?_eq_some`), of which the
second does not apply to a regular variable (`refusal_of_regular`).

A store is consistent if no two of its variables and no two of its columns share a name, and all of
them have as many records as the store (`Store.Consistent`). Taking a regular variable keeps a store
consistent (`Consistent.write`). A consistent store finds every variable under its name
(`Consistent.find?_eq_some_iff`), and all its columns make one frame (`Consistent.frame_eq_ok`).
-/

namespace ObsExport

namespace Store

variable {s s' : Store} {v : StoredVariable}

/-! ### Refusals -/

/-- A variable is taken exactly if its name and those of its columns are new, and its columns are as
long as it is high and as the store is. -/
theorem refusal?_eq_none_iff :
    s.refusal? v = none ↔
      v.name ∉ s.names ∧ (∀ c ∈ v.columns, c.data.size = v.rowCount) ∧
        (∀ c ∈ v.columns, c.name ∉ s.columnNames) ∧
        ∀ rows, s.rows? = some rows → rows = v.rowCount := by
  unfold refusal?
  -- The reasons are set aside one after another, in the order in which they are checked.
  by_cases hname : v.name ∈ s.names
  · simp [hname]
  rw [if_neg hname]
  cases hsize : v.columns.find? fun c => c.data.size ≠ v.rowCount with
  | some c =>
    obtain ⟨hc, hmem⟩ := And.intro (List.find?_some hsize) (List.mem_of_find?_eq_some hsize)
    simp only [reduceCtorEq, false_iff]
    rintro ⟨-, hsizes, -⟩
    simp [hsizes c hmem] at hc
  | none =>
    have hsizes : ∀ c ∈ v.columns, c.data.size = v.rowCount := by
      simpa using List.find?_eq_none.1 hsize
    cases hcolumn : v.columns.find? fun c => c.name ∈ s.columnNames with
    | some c =>
      obtain ⟨hc, hmem⟩ := And.intro (List.find?_some hcolumn) (List.mem_of_find?_eq_some hcolumn)
      simp only [reduceCtorEq, false_iff]
      rintro ⟨-, -, hcolumns, -⟩
      exact hcolumns c hmem (by simpa using hc)
    | none =>
      have hcolumns : ∀ c ∈ v.columns, c.name ∉ s.columnNames := by
        simpa using List.find?_eq_none.1 hcolumn
      cases hrows : s.rows? with
      | none => exact ⟨fun _ => ⟨hname, hsizes, hcolumns, by simp⟩, fun _ => rfl⟩
      | some rows =>
        dsimp only
        by_cases heq : rows = v.rowCount
        · rw [if_neg (Decidable.not_not.2 heq)]
          exact ⟨fun _ => ⟨hname, hsizes, hcolumns, by simpa using heq⟩, fun _ => rfl⟩
        · rw [if_pos heq]
          simp [heq]

/-- A variable is refused for its name, for a column that is as long as no other, for the name of a
column or for its number of records. -/
theorem refusal?_eq_some {e : Error} (h : s.refusal? v = some e) :
    (v.name ∈ s.names ∧ e = .duplicateName .outputVariable v.name) ∨
    (∃ c ∈ v.columns, c.data.size ≠ v.rowCount ∧
      e = .shape v.name (.columnLength c.name c.data.size v.rowCount)) ∨
    (∃ c ∈ v.columns, c.name ∈ s.columnNames ∧ e = .duplicateName .outputColumn c.name) ∨
    (∃ rows, s.rows? = some rows ∧ rows ≠ v.rowCount ∧
      e = .shape v.name (.storeRows v.rowCount rows)) := by
  -- The reasons in the order in which they are checked, the first that applies is given.
  unfold refusal? at h
  split at h
  next hname => exact .inl ⟨hname, (Option.some.inj h).symm⟩
  next =>
    split at h
    next c hc =>
      exact .inr (.inl ⟨c, List.mem_of_find?_eq_some hc, by simpa using List.find?_some hc,
        (Option.some.inj h).symm⟩)
    next =>
      split at h
      next c hc =>
        exact .inr (.inr (.inl ⟨c, List.mem_of_find?_eq_some hc, by simpa using List.find?_some hc,
          (Option.some.inj h).symm⟩))
      next =>
        split at h
        next rows hrows =>
          split at h
          next hne => exact .inr (.inr (.inr ⟨rows, hrows, hne, (Option.some.inj h).symm⟩))
          next => contradiction
        next => contradiction

/-- A regular variable is refused for what the store holds already. -/
theorem refusal_of_regular {e : Error} (hv : v.Regular) (h : s.refusal? v = some e) :
    (v.name ∈ s.names ∧ e = .duplicateName .outputVariable v.name) ∨
    (∃ c ∈ v.columns, c.name ∈ s.columnNames ∧ e = .duplicateName .outputColumn c.name) ∨
    ∃ rows, s.rows? = some rows ∧ rows ≠ v.rowCount ∧
      e = .shape v.name (.storeRows v.rowCount rows) := by
  -- Columns of another length are the one reason that is about the variable alone.
  rcases refusal?_eq_some h with hname | ⟨c, hc, hsize, -⟩ | hcolumn | hrows
  · exact .inl hname
  · exact absurd (hv.sizes c hc) hsize
  · exact .inr (.inl hcolumn)
  · exact .inr (.inr hrows)

/-- A variable that is taken stands behind the others. -/
theorem write_eq_ok (h : (s.write v).outcome = .ok s') :
    s.refusal? v = none ∧ s'.vars = s.vars ++ [v] := by
  unfold write at h
  split at h
  next => contradiction
  next hnone => exact ⟨hnone, Except.ok.inj h ▸ rfl⟩

/-- A failure of writing is a reason to refuse. -/
theorem write_eq_error {e : Error} (h : (s.write v).outcome = .error e) :
    s.refusal? v = some e := by
  unfold write at h
  split at h
  next e' he => rw [he, Except.error.inj h]
  next => contradiction

/-! ### Consistent stores -/

/-- Variables and columns have different names, and all of them as many records as the store. -/
structure Consistent (s : Store) : Prop where
  names : s.names.Nodup
  columnNames : s.columnNames.Nodup
  rowCounts : ∀ v ∈ s.vars, v.rowCount = s.rowCount
  sizes : ∀ c ∈ s.columns, c.data.size = s.rowCount

theorem consistent_empty : empty.Consistent where
  names := List.nodup_nil
  columnNames := List.nodup_nil
  rowCounts := by simp [empty]
  sizes := by simp [columns, empty]

/-- A variable that is taken has as many records as the store before and the store after. -/
theorem rowCount_of_write (h : (s.write v).outcome = .ok s') :
    s'.rowCount = v.rowCount ∧ (s.vars ≠ [] → s.rowCount = v.rowCount) := by
  obtain ⟨hnone, hvars⟩ := write_eq_ok h
  obtain ⟨-, -, -, hrows⟩ := refusal?_eq_none_iff.1 hnone
  unfold rowCount
  -- The first variable decides, and only the first offer changes which one that is.
  cases hs : s.vars with
  | nil =>
    have hfirst : s'.rows? = some v.rowCount := by
      rw [rows?, hvars, hs]
      rfl
    exact ⟨by rw [hfirst]; rfl, fun hne => absurd rfl hne⟩
  | cons first later =>
    have hfirst : s.rows? = some first.rowCount := by
      rw [rows?, hs]
      rfl
    have hfirst' : s'.rows? = some first.rowCount := by
      rw [rows?, hvars, hs]
      rfl
    rw [hfirst, hfirst', ← hrows _ hfirst]
    exact ⟨rfl, fun _ => rfl⟩

/-- Taking a regular variable keeps a store consistent. -/
theorem Consistent.write (hs : s.Consistent) (hv : v.Regular)
    (h : (s.write v).outcome = .ok s') : s'.Consistent := by
  obtain ⟨hnone, hvars⟩ := write_eq_ok h
  obtain ⟨hname, -, hcolumns, -⟩ := refusal?_eq_none_iff.1 hnone
  obtain ⟨hrows', hrows⟩ := rowCount_of_write h
  have hcolumns' : s'.columns = s.columns ++ v.columns := by
    rw [columns, hvars, List.flatMap_append]
    simp [columns]
  -- A variable that was there has the records of the store, which are those of the new one.
  have hold : ∀ w ∈ s.vars, s.rowCount = s'.rowCount := by
    intro w hw
    rw [hrows', hrows (List.ne_nil_of_mem hw)]
  refine ⟨?_, ?_, fun w hw => ?_, fun c hc => ?_⟩
  · show (s'.vars.map StoredVariable.name).Nodup
    rw [hvars, List.map_append, List.map_singleton, ← List.concat_eq_append]
    exact hs.names.concat hname
  · -- The new columns differ from each other, and none was in the store.
    show (s'.columns.map Column.name).Nodup
    rw [hcolumns', List.map_append]
    refine List.nodup_append.2 ⟨hs.columnNames, hv.columnNames, ?_⟩
    rintro a ha b hb rfl
    obtain ⟨c, hc, rfl⟩ := List.mem_map.1 hb
    exact hcolumns c hc ha
  · rw [hvars] at hw
    rcases List.mem_append.1 hw with hw | hw
    · rw [hs.rowCounts w hw, hold w hw]
    · rw [List.mem_singleton.1 hw, hrows']
  · rw [hcolumns'] at hc
    rcases List.mem_append.1 hc with hc | hc
    · obtain ⟨w, hw, -⟩ := List.mem_flatMap.1 hc
      rw [hs.sizes c hc, hold w hw]
    · rw [hv.sizes c hc, hrows']

/-! ### Reading -/

/-- In a store without equal names a variable is found under its name. -/
theorem find?_eq_some_iff {name : String} (hnd : s.names.Nodup) :
    s.find? name = some v ↔ v ∈ s.vars ∧ v.name = name := by
  constructor
  · intro h
    exact ⟨List.mem_of_find?_eq_some h, by simpa using List.find?_some h⟩
  · rintro ⟨hv, rfl⟩
    unfold find?
    unfold names at hnd
    -- The induction is on the variables, as the store only holds them.
    generalize s.vars = vars at hnd hv ⊢
    induction vars with
    | nil => simp at hv
    | cons first later ih =>
      rw [List.map_cons, List.nodup_cons] at hnd
      rcases List.mem_cons.1 hv with rfl | hv
      · simp
      · -- The first variable cannot have the name of a later one.
        have hne : first.name ≠ v.name := by
          intro heq
          exact hnd.1 (heq ▸ List.mem_map.2 ⟨v, hv, rfl⟩)
        rw [List.find?_cons_of_neg (by simpa using hne)]
        exact ih hnd.2 hv

/-- What is found in a store is found behind it too. -/
theorem read_append {name : String} {policy : MissingPolicy} (hname : name ∈ s.names)
    (hvars : s'.vars = s.vars ++ [v]) : s'.read name policy = s.read name policy := by
  obtain ⟨w, hw, rfl⟩ := List.mem_map.1 hname
  have hsome : (s.vars.find? fun u => u.name = w.name).isSome :=
    List.find?_isSome.2 ⟨w, hw, by simp⟩
  obtain ⟨u, hu⟩ := Option.isSome_iff_exists.1 hsome
  have hfind : s'.find? w.name = s.find? w.name := by
    rw [find?, find?, hvars, List.find?_append, hu]
    rfl
  rw [read, read, hfind]

/-- The columns of a consistent store make one frame, in the order in which they were written. -/
theorem Consistent.frame_eq_ok (hs : s.Consistent) :
    ∃ f, s.frame = .ok f ∧ f.columns = s.columns ∧ (s.columns ≠ [] → f.height = s.rowCount) := by
  unfold frame
  cases hcolumns : s.columns with
  | nil => exact ⟨_, rfl, rfl, fun hne => absurd rfl hne⟩
  | cons c rest =>
    have hsize : ∀ d ∈ c :: rest, d.data.size = s.rowCount := hcolumns ▸ hs.sizes
    have hc : c.data.size = s.rowCount := hsize c (by simp)
    have heven : ∀ d ∈ rest, d.data.size = c.data.size := by
      intro d hd
      rw [hc, hsize d (List.mem_cons_of_mem _ hd)]
    exact ⟨_, if_pos ⟨hs.columnNames, heven⟩, rfl, fun _ => hc⟩

end Store

end ObsExport
