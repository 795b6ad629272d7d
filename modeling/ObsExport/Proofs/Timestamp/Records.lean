import ObsExport.Proofs.Observed
import ObsExport.Variable.Timestamp

/-!
# The timestamp of a record

Timestamps are composed for a whole batch at once, from columns that were looked up before. What a
record gets depends on the record alone all the same: `Timestamp.localAt` composes it from the
observations of the record, `Timestamp.utcAt` shifts it to UTC, and a batch whose fields can be used
(`Timestamp.Applies`) has these timestamps and no others (`utcSeconds_eq_ok_iff`). Composing them
fails for one of the fields and for nothing else (`answers_localSeconds`).
-/

namespace ObsExport

namespace Timestamp

/-! ### One record -/

/-- The observation of a record in a field. -/
def observedAt (data : FieldTable) (policy : MissingPolicy) (row : Nat) (field : String) :
    Option Float :=
  (data.firstAt field row).bind policy.observed?

/-- The observation of a record in a field that may be unset, which then is zero. -/
def observedOrZeroAt (data : FieldTable) (policy : MissingPolicy) (row : Nat) :
    Option String → Option Float
  | some field => observedAt data policy row field
  | none => some 0

/-- The seconds of a record since the start of 1970, before the shift to UTC. -/
def localAt (t : Timestamp) (data : FieldTable) (policy : MissingPolicy) (row : Nat) : Option Int :=
  match t.source with
  | .components year month day hour minute second =>
    (observedAt data policy row year).bind fun year =>
    (observedAt data policy row month).bind fun month =>
    (observedAt data policy row day).bind fun day =>
    (observedAt data policy row hour).bind fun hour =>
    (observedOrZeroAt data policy row minute).bind fun minute =>
    (observedOrZeroAt data policy row second).bind fun second =>
      compose? year month day hour minute second
  | .epoch field => (data.firstAt field row).bind (epochSeconds? policy)

/-- The timestamp of a record. -/
def utcAt (t : Timestamp) (data : FieldTable) (policy : MissingPolicy) (row : Nat) : Option Int :=
  (t.localAt data policy row).bind fun s => word? (s - t.hoursFromUtc * 3600)

/-- The fields that timestamps are composed from are numeric and have a column. -/
def Applies (t : Timestamp) (data : FieldTable) : Prop :=
  ∀ field ∈ t.fields, ∃ grid, data.find? field = some (.numeric grid) ∧ 0 < grid.cols

variable {t : Timestamp} {target : String} {data : FieldTable} {policy : MissingPolicy}
  {grid : Grid} {field : String} {n row : Nat}

/-! ### Looking up components -/

/-- A component that is found is a numeric field with a column. -/
theorem component_eq_ok {field : String} (h : component target data field = .ok grid) :
    data.find? field = some (.numeric grid) ∧ 0 < grid.cols := by
  unfold component at h
  split at h
  next grid' hfind =>
    split at h
    next hcols => exact ⟨Except.ok.inj h ▸ hfind, Except.ok.inj h ▸ hcols⟩
    next => contradiction
  next => contradiction
  next => contradiction

theorem height_of_component {field : String} (hrows : data.checkRows = .ok n)
    (h : component target data field = .ok grid) : grid.height = n := by
  obtain ⟨rfl, haligned⟩ := FieldTable.checkRows_eq_ok_iff.1 hrows
  exact haligned _ (Dict.mem_entries_iff.2 (component_eq_ok h).1)

/-- Look-ups after one another answer if each does. -/
theorem run_bind_eq_ok {α β : Type} {x : OptionT (Except Error) α}
    {f : α → OptionT (Except Error) β} {o : Option α} {g : α → Option β} (hx : x.run = .ok o)
    (hf : ∀ a, (f a).run = .ok (g a)) : (x >>= f).run = .ok (o.bind g) := by
  rw [OptionT.run_bind, hx]
  cases o with
  | none => rfl
  | some a => exact hf a

theorem run_liftM_ok_bind {α β : Type} (a : α) (f : α → OptionT (Except Error) β) :
    ((liftM (Except.ok a : Except Error α) : OptionT (Except Error) α) >>= f).run = (f a).run :=
  rfl

/-- Every record of a field with a column has a first value. -/
theorem run_observation (hfind : data.find? field = some (.numeric grid)) (hcols : 0 < grid.cols)
    (hrow : row < grid.height) :
    (observation policy grid row).run = .ok (observedAt data policy row field) := by
  -- The row is there and has a first cell, so the look-up answers whatever the cell is.
  have hread : grid.row row = .ok ((grid.values.drop (row * grid.cols)).take grid.cols) :=
    if_pos (.inl hrow)
  obtain ⟨x, hx⟩ := Option.isSome_iff_exists.1 (Grid.cell?_isSome_iff.2 ⟨hrow, hcols⟩)
  rw [observedAt, FieldTable.firstAt_of_numeric hfind, hx]
  rw [← Grid.getElem?_row hread] at hx
  rw [observation, hread, run_liftM_ok_bind, hx, required_some, run_liftM_ok_bind]
  rfl

/-- A component that may be unset fails with the failure of its field. -/
theorem unset_eq_error {field : Option String} {err : Error}
    (h : field.mapM (component target data) = .error err) :
    ∃ name ∈ field, component target data name = .error err := by
  cases field with
  | none => contradiction
  | some name =>
    rw [Option.mapM_some] at h
    exact ⟨name, rfl, map_eq_error_iff.1 h⟩

/-- A component that was found is observed in every record or not. -/
theorem run_component (policy : MissingPolicy) (hrows : data.checkRows = .ok n)
    (h : component target data field = .ok grid) (hrow : row < n) :
    (observation policy grid row).run = .ok (observedAt data policy row field) :=
  run_observation (component_eq_ok h).1 (component_eq_ok h).2 (height_of_component hrows h ▸ hrow)

/-- The same for a component that may be unset. -/
theorem unset_eq_ok {field : Option String} {grid : Option Grid} (policy : MissingPolicy)
    (hrows : data.checkRows = .ok n) (h : field.mapM (component target data) = .ok grid) :
    (∀ name ∈ field, ∃ grid, component target data name = .ok grid) ∧
      ∀ row < n, (observationOrZero policy row grid).run =
        .ok (observedOrZeroAt data policy row field) := by
  cases field with
  | none =>
    obtain rfl := Except.ok.inj h
    exact ⟨by simp, fun _ _ => rfl⟩
  | some name =>
    rw [Option.mapM_some] at h
    obtain ⟨grid, hgrid, rfl⟩ := map_eq_ok_iff.1 h
    exact ⟨by simpa using ⟨grid, hgrid⟩, fun _ hrow => run_component policy hrows hgrid hrow⟩

/-! ### The batch -/

/-- A timestamp can be used if all its components are found. -/
theorem applies_iff (target : String) :
    t.Applies data ↔ ∀ field ∈ t.fields, ∃ grid, component target data field = .ok grid := by
  refine forall₂_congr fun field _ => exists_congr fun grid => ⟨?_, component_eq_ok⟩
  rintro ⟨hfind, hcols⟩
  rw [component, hfind]
  exact if_pos hcols

/-- Composing timestamps fails for one of the fields, or every record gets its own. -/
def Answers (t : Timestamp) (target : String) (policy : MissingPolicy) (data : FieldTable)
    (n : Nat) : Except Error (List (Option Int)) → Prop
  | .error err => ∃ field ∈ t.fields, component target data field = .error err
  | .ok seconds => t.Applies data ∧ seconds = (List.range n).map (t.localAt data policy)

theorem Answers.of_ok {x : Except Error (List (Option Int))} (happlies : t.Applies data)
    (h : x = .ok ((List.range n).map (t.localAt data policy))) :
    t.Answers target policy data n x :=
  h ▸ ⟨happlies, rfl⟩

/-- Seconds are read from the first column of their field, record by record. -/
theorem localAt_of_epoch (hsource : t.source = .epoch field)
    (h : component target data field = .ok grid) :
    (grid.rows.mapM fun row => (required row[0]?).map (epochSeconds? policy)) =
      .ok ((List.range grid.height).map (t.localAt data policy)) := by
  obtain ⟨hfind, hcols⟩ := component_eq_ok h
  refine Grid.mapM_first_rows hcols fun row x hx => ?_
  rw [localAt, hsource]
  dsimp only
  rw [FieldTable.firstAt_of_numeric hfind, hx, Option.bind_some]

/-- The seconds of all records are found, or the first component that cannot be used is named. -/
theorem answers_localSeconds (t : Timestamp) (target : String) (policy : MissingPolicy)
    (hrows : data.checkRows = .ok n) :
    t.Answers target policy data n (t.localSeconds target policy data) := by
  unfold localSeconds
  cases hsource : t.source with
  | components year month day hour minute second =>
    have hfields : t.fields = [year, month, day, hour] ++ minute.toList ++ second.toList := by
      rw [fields, hsource]
    -- One component after another is looked up, and fails or is found.
    refine bind_cases (fun err h => ⟨year, by simp [hfields], h⟩) fun yearGrid hyear => ?_
    refine bind_cases (fun err h => ⟨month, by simp [hfields], h⟩) fun monthGrid hmonth => ?_
    refine bind_cases (fun err h => ⟨day, by simp [hfields], h⟩) fun dayGrid hday => ?_
    refine bind_cases (fun err h => ⟨hour, by simp [hfields], h⟩) fun hourGrid hhour => ?_
    refine bind_cases (fun err h => ?_) fun minuteGrid hminute => ?_
    · obtain ⟨name, hname, h⟩ := unset_eq_error h
      exact ⟨name, by simp [hfields, Option.mem_def.1 hname], h⟩
    refine bind_cases (fun err h => ?_) fun secondGrid hsecond => ?_
    · obtain ⟨name, hname, h⟩ := unset_eq_error h
      exact ⟨name, by simp [hfields, Option.mem_def.1 hname], h⟩
    obtain ⟨hminutes, hminute⟩ := unset_eq_ok policy hrows hminute
    obtain ⟨hseconds, hsecond⟩ := unset_eq_ok policy hrows hsecond
    refine .of_ok ((applies_iff target).2 fun name hname => ?_) ?_
    · simp only [hfields, List.cons_append, List.nil_append, List.mem_cons, List.mem_append,
        Option.mem_toList] at hname
      rcases hname with rfl | rfl | rfl | rfl | hname | hname
      · exact ⟨yearGrid, hyear⟩
      · exact ⟨monthGrid, hmonth⟩
      · exact ⟨dayGrid, hday⟩
      · exact ⟨hourGrid, hhour⟩
      · exact hminutes name hname
      · exact hseconds name hname
    · rw [height_of_component hrows hyear]
      refine mapM_eq_ok_map fun row hmem => ?_
      have hrow := List.mem_range.1 hmem
      have hobserved : ∀ {name : String} {grid : Grid}, component target data name = .ok grid →
          (observation policy grid row).run = .ok (observedAt data policy row name) := fun hgrid =>
        run_component policy hrows hgrid hrow
      rw [localAt, hsource]
      exact run_bind_eq_ok (hobserved hyear) fun _ => run_bind_eq_ok (hobserved hmonth) fun _ =>
        run_bind_eq_ok (hobserved hday) fun _ => run_bind_eq_ok (hobserved hhour) fun _ =>
          run_bind_eq_ok (hminute row hrow) fun _ => run_bind_eq_ok (hsecond row hrow) fun _ => rfl
  | epoch field =>
    have hfields : t.fields = [field] := by rw [fields, hsource]
    refine bind_cases (fun err h => ⟨field, by simp [hfields], h⟩) fun grid hgrid => ?_
    refine .of_ok ((applies_iff target).2 (by simpa [hfields] using ⟨grid, hgrid⟩)) ?_
    rw [← height_of_component hrows hgrid]
    exact localAt_of_epoch hsource hgrid

/-- The shift to UTC is a number of seconds or fails. -/
theorem offsetSeconds_eq_ok_iff {offset : Int} :
    t.offsetSeconds target = .ok offset ↔
      InWord (t.hoursFromUtc * 3600) ∧ t.hoursFromUtc * 3600 = offset := by
  rw [← word?_eq_some_iff, offsetSeconds]
  cases word? (t.hoursFromUtc * 3600) <;> simp

/-- A shift that is too large for a machine word is refused. -/
theorem offsetSeconds_eq_error (h : ¬ InWord (t.hoursFromUtc * 3600)) :
    t.offsetSeconds target = .error (.invalidConfig (target ++ "::hoursFromUtc") .dayOffset) := by
  have hnone : word? (t.hoursFromUtc * 3600) = none := if_neg h
  rw [offsetSeconds, hnone]

/-- Seconds of records are shifted to their timestamps. -/
theorem utcSeconds_of_local
    (h : t.localSeconds target policy data = .ok ((List.range n).map (t.localAt data policy)))
    {seconds : List (Option Int)} :
    t.utcSeconds target policy data = .ok seconds ↔
      InWord (t.hoursFromUtc * 3600) ∧ seconds = (List.range n).map (t.utcAt data policy) := by
  rw [utcSeconds, h, ok_bind, bind_eq_ok_iff]
  simp only [offsetSeconds_eq_ok_iff]
  constructor
  · rintro ⟨offset, ⟨hword, rfl⟩, h⟩
    rw [← Except.ok.inj h, List.map_map]
    exact ⟨hword, rfl⟩
  · rintro ⟨hword, rfl⟩
    refine ⟨_, ⟨hword, rfl⟩, ?_⟩
    rw [List.map_map]
    rfl

/-- A batch has timestamps if its fields can be used and the shift is a number of seconds, and then
they are those of the records. -/
theorem utcSeconds_eq_ok_iff {seconds : List (Option Int)} (hrows : data.checkRows = .ok n) :
    t.utcSeconds target policy data = .ok seconds ↔
      t.Applies data ∧ InWord (t.hoursFromUtc * 3600) ∧
        seconds = (List.range n).map (t.utcAt data policy) := by
  have hanswers := answers_localSeconds t target policy hrows
  cases hlocal : t.localSeconds target policy data with
  | error err =>
    -- A field that fails is one that cannot be used.
    rw [hlocal] at hanswers
    obtain ⟨field, hfield, herr⟩ := hanswers
    rw [utcSeconds, hlocal]
    simp only [error_bind, reduceCtorEq, false_iff]
    rintro ⟨happlies, -⟩
    obtain ⟨grid, hgrid⟩ := (applies_iff target).1 happlies field hfield
    rw [hgrid] at herr
    contradiction
  | ok composed =>
    rw [hlocal] at hanswers
    obtain ⟨happlies, rfl⟩ := hanswers
    rw [utcSeconds_of_local hlocal]
    simp only [happlies, true_and]

end Timestamp

end ObsExport
