import ObsExport.Proofs.Number.NotNaN
import ObsExport.Store.Materialize

/-!
# Columns hold the artifact

Materializing writes a missing number as null or as the fill value and leaves observed numbers as
they are, and reading takes nulls and fill values for missing ones. A fill value that was observed
is refused. So whatever is materialized can be read, and every observed number and every text comes
back as it was (`toValues_eq_reread`).

What comes back for a missing number depends on the fill value (`MissingPolicy.blank`). One that is
equal to itself is recognised, and then it is the sentinel: that is the artifact itself, up to how
missing numbers are spelled (`toValues_materialize`). NaN is equal to nothing, so as a fill value it
is read as it stands, and missing numbers come back as NaN instead
(`observed_survive_materialize`).
-/

namespace ObsExport

/-- A number with the sentinel in place of a missing one. -/
def MissingPolicy.normalised (p : MissingPolicy) (x : Float) : Float :=
  if p.isMissing x then p.sentinel else x

/-- An artifact with the sentinel in place of all missing numbers. -/
def Values.normalised (policy : MissingPolicy) : Values → Values
  | numeric grid => numeric (grid.map policy.normalised)
  | text entries => text entries

/-- What missing numbers are read as. -/
def MissingPolicy.blank (p : MissingPolicy) (fill : Option Float) : Float :=
  StoredVariable.decodeNumber p fill fill

/-- What is read of a number that was written. -/
def MissingPolicy.reread (p : MissingPolicy) (fill : Option Float) (x : Float) : Float :=
  if p.isMissing x then p.blank fill else x

/-- An artifact as it is read back. -/
def Values.reread (policy : MissingPolicy) (fill : Option Float) : Values → Values
  | numeric grid => numeric (grid.map (policy.reread fill))
  | text entries => text entries

/-! ### Single values -/

section Values

variable {policy : MissingPolicy} {fill : Option Float}

/-- If every fill value is recognised, missing numbers are read as the sentinel. -/
theorem blank_eq_sentinel (hfill : ∀ f, fill = some f → (f == f) = true) :
    policy.blank fill = policy.sentinel := by
  cases fill with
  | none => rfl
  | some f => simp [MissingPolicy.blank, StoredVariable.decodeNumber, hfill f rfl]

/-- NaN as a fill value is read as it stands. -/
theorem blank_of_isNaN {f : Float} (h : f.isNaN = true) : policy.blank (some f) = f := by
  simp [MissingPolicy.blank, StoredVariable.decodeNumber, Number.not_beq_of_isNaN h]

/-- If every fill value is recognised, an artifact is read with the sentinel for what is missing. -/
theorem Values.reread_of_beq_self (hfill : ∀ f, fill = some f → (f == f) = true) (v : Values) :
    v.reread policy fill = v.normalised policy := by
  have hblank : policy.reread fill = policy.normalised := by
    unfold MissingPolicy.reread MissingPolicy.normalised
    rw [blank_eq_sentinel hfill]
  unfold Values.reread Values.normalised
  rw [hblank]

/-- Of a written number the reader gets the number, if it was observed and not the fill value. -/
theorem decodeNumber_encodeNumber {x : Float}
    (hx : policy.isPresent x = true → ∀ f, fill = some f → (x == f) = false) :
    StoredVariable.decodeNumber policy fill (Values.encodeNumber policy fill x) =
      policy.reread fill x := by
  unfold Values.encodeNumber MissingPolicy.reread
  -- A missing number is written as the fill value itself, so both sides decode the same.
  cases hm : policy.isMissing x with
  | true => rfl
  | false =>
    rw [MissingPolicy.isMissing_eq_false_iff] at hm
    cases fill with
    | none => rfl
    | some f => simp [StoredVariable.decodeNumber, hx hm f rfl]

/-- A text is read as it was written, the empty text as null included. -/
theorem decodeText_encodeText (s : String) : (Values.encodeText s).getD "" = s := by
  unfold Values.encodeText
  split
  next h => simpa using h.symm
  next => rfl

/-- A fill value that is accepted was not observed. -/
theorem unobserved_of_checkFill {name : String} {grid : Grid}
    (h : Values.checkFill name grid policy fill = .ok ()) {x f : Float} (hx : x ∈ grid.values)
    (hp : policy.isPresent x = true) (hf : fill = some f) : (x == f) = false := by
  subst hf
  simp only [Values.checkFill] at h
  split at h
  next hzero =>
    have := List.countP_eq_zero.1 hzero x hx
    simpa [hp] using this
  next => contradiction

end Values

/-! ### Columns -/

variable {policy : MissingPolicy} {fill : Option Float} {name : String}

/-- The columns of a numeric artifact are those of its grid, with every number written. -/
theorem numericColumns_eq_ok {grid : Grid} {columns : List Column}
    (h : Values.numericColumns name grid policy fill = .ok columns) :
    columns.length = grid.cols ∧
      ∀ c, c < grid.cols → ∃ (column : Column) (xs : List Float), columns[c]? = some column ∧
        column.data = .numeric (xs.map (Values.encodeNumber policy fill)) ∧
        xs.length = grid.height ∧ ∀ r : Nat, xs[r]? = grid.cell? r c := by
  unfold Values.numericColumns at h
  -- A single column takes the values as they stand, several are cut out of the rows.
  split at h
  next hone =>
    obtain ⟨-, -, h⟩ := bind_eq_ok_iff.1 h
    obtain rfl := Except.ok.inj h
    refine ⟨hone.symm, fun c hc => ⟨⟨name, .numeric (grid.values.map
      (Values.encodeNumber policy fill))⟩, grid.values, ?_, rfl, ?_, fun r => ?_⟩⟩
    · obtain rfl : c = 0 := by omega
      rfl
    · rw [grid.length_values, hone, Nat.mul_one]
    · obtain rfl : c = 0 := by omega
      rw [← grid.getElem?_values r hc, hone, Nat.mul_one, Nat.add_zero]
  next =>
    obtain ⟨-, -, h⟩ := bind_eq_ok_iff.1 h
    obtain ⟨hlen, hcolumns⟩ := mapM_eq_ok_iff.1 h
    rw [List.length_range] at hlen
    refine ⟨hlen, fun c hc => ?_⟩
    obtain ⟨column, hcolumn, hmap⟩ := hcolumns c c (List.getElem?_range hc)
    obtain ⟨xs, hxs, rfl⟩ := map_eq_ok_iff.1 hmap
    exact ⟨_, xs, hcolumn, rfl, Grid.length_of_column hxs, Grid.getElem?_column hxs⟩

/-- The grid that written columns are read as. -/
theorem ofColumns_decode {grid : Grid} {columns : List Column}
    {numbers : List (List (Option Float))}
    (h : Values.numericColumns name grid policy fill = .ok columns)
    (hnumbers : columns.mapM StoredVariable.numbers = .ok numbers)
    (hcheck : Values.checkFill name grid policy fill = .ok ()) :
    Grid.ofColumns grid.height policy.sentinel
        (numbers.map fun c => c.map (StoredVariable.decodeNumber policy fill)) =
      grid.map (policy.reread fill) := by
  obtain ⟨hlen, hcolumns⟩ := numericColumns_eq_ok h
  obtain ⟨hlen', hread⟩ := mapM_eq_ok_iff.1 hnumbers
  have hcols : numbers.length = grid.cols := hlen'.trans hlen
  -- Cell by cell: what column `c` holds in place `r` was encoded from the cell of the grid.
  refine Grid.ext_cell? rfl ((List.length_map _).trans hcols) fun r c hr hlt => ?_
  have hr : r < grid.height := hr
  have hc : c < grid.cols := by rw [← hcols]; simpa [Grid.ofColumns] using hlt
  obtain ⟨column, xs, hcolumn, hdata, -, hxs⟩ := hcolumns c hc
  obtain ⟨written, hwritten, hnumbers⟩ := hread c column hcolumn
  rw [StoredVariable.numbers, hdata, Except.ok.injEq] at hnumbers
  have hget : (numbers.map fun c => c.map (StoredVariable.decodeNumber policy fill))[c]? =
      some (written.map (StoredVariable.decodeNumber policy fill)) := by
    rw [List.getElem?_map, hwritten]
    rfl
  obtain ⟨x, hx⟩ := Option.isSome_iff_exists.1 (Grid.cell?_isSome_iff.2 ⟨hr, hc⟩)
  have hmem : x ∈ grid.values := List.mem_iff_getElem?.2 ⟨_, (grid.getElem?_values r hc).trans hx⟩
  rw [Grid.cell?_ofColumns hr hget, Grid.cell?_map, hx, ← hnumbers, List.map_map,
    List.getElem?_map, hxs r, hx]
  exact congrArg some (decodeNumber_encodeNumber fun hp f hf =>
    unobserved_of_checkFill hcheck hmem hp hf)

/-- A grid that fits some dimensions has as many rows as the first of them says. -/
theorem height_of_checkDimensions {v : Values} {dimensions : List Dimension}
    (h : v.checkDimensions name dimensions = .ok ()) :
    (dimensions.map Dimension.size).head?.getD 0 = v.height := by
  unfold Values.checkDimensions at h
  split at h
  next hfits =>
    match v, dimensions, hfits with
    | v, [records], hfits =>
      simp only [Values.fits, Bool.and_eq_true, beq_iff_eq] at hfits
      exact hfits.1
    | .numeric grid, [records, columns], hfits =>
      simp only [Values.fits, Bool.and_eq_true, beq_iff_eq] at hfits
      exact hfits.1
  next => contradiction

/-! ### Artifacts -/

variable {v : Values} {dimensions : List Dimension} {options : WriteOptions}
  {stored : StoredVariable}

/-- The columns of an artifact can be read, and all that changes is what stands for missing
numbers. -/
theorem toValues_eq_reread (h : v.materialize name dimensions options policy = .ok stored) :
    stored.toValues policy = .ok (v.reread policy options.fillValue) := by
  obtain ⟨_, hdims, h⟩ := bind_eq_ok_iff.1 h
  obtain ⟨chunks, -, h⟩ := bind_eq_ok_iff.1 h
  obtain ⟨columns, hcolumns, h⟩ := bind_eq_ok_iff.1 h
  have hrows := height_of_checkDimensions hdims
  have hstored := Except.ok.inj h
  subst hstored
  cases v with
  | text entries =>
    have hcolumns := Except.ok.inj hcolumns
    subst hcolumns
    show Except.ok (Values.text ((entries.map Values.encodeText).map fun s => s.getD "")) = _
    have hid : ((fun s : Option String => s.getD "") ∘ Values.encodeText) = id :=
      funext decodeText_encodeText
    rw [List.map_map, hid, List.map_id, Values.reread]
  | numeric grid =>
    obtain ⟨_, hcheck, hcolumns⟩ := bind_eq_ok_iff.1 hcolumns
    obtain ⟨hlen, hall⟩ := numericColumns_eq_ok hcolumns
    -- Every column is as long as the variable is high, and numeric.
    have hdata : ∀ column ∈ columns, ∃ values, column.data = .numeric values ∧
        values.length = grid.height := by
      intro column hmem
      obtain ⟨c, hc⟩ := List.mem_iff_getElem?.1 hmem
      obtain ⟨column', xs, hcolumn, hdata, hxs, -⟩ :=
        hall c (hlen ▸ (List.getElem?_eq_some_iff.1 hc).1)
      obtain rfl : column = column' := Option.some.inj (hc.symm.trans hcolumn)
      exact ⟨_, hdata, by rw [List.length_map, hxs]⟩
    have hroom : (columns.any fun c => decide (c.data.size < grid.height)) = false := by
      rw [List.any_eq_false]
      intro column hmem
      obtain ⟨values, hvalues, hlength⟩ := hdata column hmem
      simp [hvalues, ColumnData.size, hlength]
    have hnumeric : ∀ column ∈ columns, ∃ values, StoredVariable.numbers column = .ok values := by
      intro column hmem
      obtain ⟨values, hvalues, -⟩ := hdata column hmem
      exact ⟨values, by rw [StoredVariable.numbers, hvalues]⟩
    obtain ⟨numbers, hnumbers⟩ := exists_mapM_eq_ok hnumeric
    unfold StoredVariable.toValues
    simp only [Values.isText, StoredVariable.rowCount, hrows, Values.height, hroom,
      Bool.false_eq_true, if_false, hnumbers, ok_bind]
    show Except.ok _ = _
    rw [ofColumns_decode hcolumns hnumbers hcheck]
    rfl

/-- **Reading undoes materializing.** The columns of an artifact are read as the artifact, with the
sentinel in place of all missing numbers. -/
theorem toValues_materialize (h : v.materialize name dimensions options policy = .ok stored)
    (hfill : ∀ f, options.fillValue = some f → (f == f) = true) :
    stored.toValues policy = .ok (v.normalised policy) := by
  rw [toValues_eq_reread h, Values.reread_of_beq_self hfill]

/-! ### What comes back under any fill value -/

namespace Values

/-- Values of the kind and shape of others, with the same texts and the same observed numbers. -/
def SameObserved (policy : MissingPolicy) : Values → Values → Prop
  | numeric g, numeric g' => g'.height = g.height ∧ g'.cols = g.cols ∧
      ∀ r c x, g.cell? r c = some x → policy.isPresent x = true → g'.cell? r c = some x
  | text entries, text entries' => entries' = entries
  | _, _ => False

/-- Wherever a number is missing in some values, others have the number `y`. -/
def MissingReadAs (policy : MissingPolicy) (y : Float) : Values → Values → Prop
  | numeric g, numeric g' =>
      ∀ r c x, g.cell? r c = some x → policy.isMissing x = true → g'.cell? r c = some y
  | text _, text _ => True
  | _, _ => False

/-- No number is missing. -/
def Complete (policy : MissingPolicy) : Values → Prop
  | numeric g => ∀ r c x, g.cell? r c = some x → policy.isMissing x = false
  | text _ => True

variable {y : Float}

/-- What is read back has the observed values where they were. -/
theorem sameObserved_reread (policy : MissingPolicy) (fill : Option Float) (v : Values) :
    v.SameObserved policy (v.reread policy fill) := by
  cases v with
  | text entries => rfl
  | numeric g =>
    refine ⟨rfl, rfl, fun r c x hx hp => ?_⟩
    rw [Grid.cell?_map, hx, Option.map_some, MissingPolicy.reread,
      MissingPolicy.isMissing_eq_false_iff.2 hp]
    rfl

/-- The missing numbers come back as what missing numbers are read as, and as nothing else. -/
theorem missingReadAs_reread_iff {fill : Option Float} :
    MissingReadAs policy y v (v.reread policy fill) ↔
      policy.blank fill = y ∨ v.Complete policy := by
  cases v with
  | text entries => exact ⟨fun _ => .inr trivial, fun _ => trivial⟩
  | numeric g =>
    -- Every missing number is read back as the same one.
    have hcell : ∀ r c x, g.cell? r c = some x → policy.isMissing x = true →
        (g.map (policy.reread fill)).cell? r c = some (policy.blank fill) := by
      intro r c x hx hm
      rw [Grid.cell?_map, hx, Option.map_some, MissingPolicy.reread, if_pos hm]
    constructor
    · intro h
      by_cases hcomplete : (numeric g).Complete policy
      · exact .inr hcomplete
      · -- One missing number shows what all of them are read as.
        simp only [Complete, Classical.not_forall] at hcomplete
        obtain ⟨r, c, x, hx, hm⟩ := hcomplete
        have hm : policy.isMissing x = true := by simpa using hm
        exact .inl (Option.some.inj ((hcell r c x hx hm).symm.trans (h r c x hx hm)))
    · rintro (rfl | hcomplete) r c x hx hm
      · exact hcell r c x hx hm
      · rw [hcomplete r c x hx] at hm
        contradiction

end Values

/-- Missing numbers are read as a sentinel that is a number exactly if no fill value is NaN. -/
theorem blank_eq_sentinel_iff {fill : Option Float} (hsentinel : policy.sentinel.isNaN = false) :
    policy.blank fill = policy.sentinel ↔ ∀ f, fill = some f → f.isNaN = false := by
  constructor
  · rintro hblank f rfl
    cases hnan : f.isNaN with
    | false => rfl
    | true =>
      rw [blank_of_isNaN hnan] at hblank
      rw [hblank, hsentinel] at hnan
      contradiction
  · intro hfill
    exact blank_eq_sentinel fun f hf => Number.beq_self_of_not_isNaN (hfill f hf)

/-- **Observations survive materializing under any fill value.** What was materialized can be read,
with its kind, its shape, its texts and its observed numbers. Its missing numbers come back as the
sentinel if and only if the fill value is not NaN or no number is missing; under NaN they come back
as NaN. -/
theorem observed_survive_materialize (hsentinel : Binary.isFinite policy.sentinel = true)
    (h : v.materialize name dimensions options policy = .ok stored) :
    ∃ w, stored.toValues policy = .ok w ∧ v.SameObserved policy w ∧
      (v.MissingReadAs policy policy.sentinel w ↔
        (∀ f, options.fillValue = some f → f.isNaN = false) ∨ v.Complete policy) ∧
      ∀ f, options.fillValue = some f → f.isNaN = true → v.MissingReadAs policy f w := by
  refine ⟨_, toValues_eq_reread h, v.sameObserved_reread policy _, ?_, fun f hf hnan => ?_⟩
  · rw [Values.missingReadAs_reread_iff,
      blank_eq_sentinel_iff (Number.isNaN_of_isFinite hsentinel)]
  · rw [Values.missingReadAs_reread_iff, hf]
    exact .inl (blank_of_isNaN hnan)

/-- The choice of a fill value and nothing else. -/
def filledWith (fill : Float) : WriteOptions := { WriteOptions.none with fillValue := some fill }

/-- A column with one observed and one missing value. -/
def halfObserved : Values := .numeric (.ofColumn [1.5, 1e11])

/-- What it is written as under a fill value. -/
def halfObservedStored (fill : Float) : StoredVariable where
  name := "ObsValue/x"
  dimensions := ["Location"]
  shape := [2]
  chunks := [2]
  fillValue := some fill
  compression := none
  longName := none
  units := none
  isText := false
  columns := [⟨"ObsValue/x", .numeric [some 1.5, some fill]⟩]

/-- Under NaN as fill value the observed number comes back as it was, and the missing one as NaN. -/
theorem observed_survive_materialize_nan :
    Binary.isFinite MissingPolicy.standard.sentinel = true ∧
      halfObserved.materialize "ObsValue/x" [⟨"Location", 2⟩] (filledWith (0 / 0))
        .standard = .ok (halfObservedStored (0 / 0)) ∧
      ∃ w, (halfObservedStored (0 / 0)).toValues .standard = .ok w ∧
        halfObserved.SameObserved .standard w ∧ halfObserved.MissingReadAs .standard (0 / 0) w := by
  have hfinite : Binary.isFinite MissingPolicy.standard.sentinel = true := by decide +kernel
  have hwritten : halfObserved.materialize "ObsValue/x" [⟨"Location", 2⟩]
      (filledWith (0 / 0)) .standard = .ok (halfObservedStored (0 / 0)) := rfl
  obtain ⟨w, hread, hobserved, -, hmissing⟩ := observed_survive_materialize hfinite hwritten
  exact ⟨hfinite, hwritten, w, hread, hobserved, hmissing _ rfl (by decide +kernel)⟩

/-- Missing numbers do not come back as the sentinel under every fill value. -/
theorem missing_not_sentinel_under_nan :
    ¬ ∀ (v : Values) (name : String) (dimensions : List Dimension) (options : WriteOptions)
      (policy : MissingPolicy) (stored : StoredVariable),
      Binary.isFinite policy.sentinel = true → Binary.isFinite policy.epsilon = true →
      0 ≤ policy.epsilon → v.materialize name dimensions options policy = .ok stored →
      ∃ w, stored.toValues policy = .ok w ∧ v.SameObserved policy w ∧
        v.MissingReadAs policy policy.sentinel w := by
  intro h
  obtain ⟨w, hread, -, hmissing⟩ := h halfObserved "ObsValue/x" [⟨"Location", 2⟩]
    (filledWith (0 / 0)) .standard (halfObservedStored (0 / 0))
    -- So it would have to equal the sentinel, which is a number.
    (by decide +kernel) (by decide +kernel) (by decide +kernel) rfl
  -- Read back, the second value is NaN and not the sentinel.
  have hback : (halfObservedStored (0 / 0)).toValues .standard =
      .ok (.numeric (.ofColumn [1.5, 0 / 0])) := rfl
  obtain rfl := Except.ok.inj (hread.symm.trans hback)
  have hsentinel := hmissing 1 0 1e11 (by decide +kernel) (by decide +kernel)
  revert hsentinel
  decide +kernel

end ObsExport
