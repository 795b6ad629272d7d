import ObsExport.Proofs.Batch.Conversion
import ObsExport.Proofs.Batch.Failures

/-!
# Batches as tables

The table of a batch has an entry for every declared field, made of the array with a row per record
(`Batch.entry`). Row count, width and kind of an entry are found for every field by itself, from the
records that hold it. They fit together nevertheless: every entry has a row per record, whatever
the records hold (`assembled_tables`), so that the table passes the check of its rows.

There is a table exactly if every declared field is `Tabular`: the records agree on it, a textual
field has no more than one text per record, and its array is not too large. The text of a record
may be missing, so what counts is not the number of texts but that no group repeats
(`single_iff`).
-/

namespace ObsExport

open Repeats

namespace Batch

variable {b : Batch} {name : String} {table : FieldTable} {grid : Grid} {array : FieldArray}
  {values : Values}

/-! ### Entries -/

/-- The entry of a field in the table of a batch. -/
def entry (b : Batch) (name : String) : Except Error Values := do
  (← (b.get name).outcome).toValues

/-- No record has a group around the texts of a field more than once. -/
def Single (b : Batch) (name : String) : Prop :=
  ∀ reading ∈ b.held name, reading.leaves.isText = true →
    ∀ counts ∈ reading.repeats.levels, ∀ c ∈ counts, c ≤ 1

/-- No group repeats exactly if the padded rows of a textual field are one text wide. -/
theorem single_iff (hu : b.Uniform name) :
    b.Single name ↔ (b.isTextual name = true → volume (b.maxima name) = 1) := by
  constructor
  · intro h htext
    refine volume_eq_one_iff.2 fun size hsize => ?_
    refine Nat.le_antisymm ?_ (pos_of_mem_maxima hsize)
    obtain ⟨level, -, rfl⟩ := List.mem_map.1 hsize
    refine levelMaximum_le (Nat.le_refl 1) fun tree htree counts hcounts c hc => ?_
    obtain ⟨reading, hmem, rfl⟩ := List.mem_map.1 htree
    have hkind : reading.leaves.isText = true := (hu reading hmem).2.trans htext
    exact h reading hmem hkind counts (List.mem_of_getElem? hcounts) c hc
  · intro h reading hmem hkind counts hcounts c hc
    have hone := volume_eq_one_iff.1 (h ((hu reading hmem).2.symm.trans hkind))
    obtain ⟨level, hlevel⟩ := List.mem_iff_getElem?.1 hcounts
    -- The level is one of those that have a size.
    have hlt : level < b.depthOf name := by
      rw [← (hu reading hmem).1]
      exact (List.getElem?_eq_some_iff.1 hlevel).1
    rw [← hone _ (List.mem_map.2 ⟨level, List.mem_range.2 hlt, rfl⟩)]
    exact le_levelMaximum (List.mem_map.2 ⟨reading, hmem, rfl⟩) hlevel hc

/-- An array with a row per record is as high as the batch. -/
theorem Padded.height (h : b.Padded name array) : array.height = b.size := by
  rw [FieldArray.height, h.dims]
  rfl

/-- Its width is the volume of the padded block, if that is a word. -/
theorem Padded.width (h : b.Padded name array) :
    array.width = Size.checked (volume (b.maxima name)) := by
  rw [FieldArray.width, h.dims, List.tail_cons]
  exact Size.product_of_pos fun _ => pos_of_mem_maxima

/-- An array has values exactly if it can be counted, and if texts are one to a row. -/
theorem exists_toValues_iff (hpadded : b.Padded name array) :
    (∃ values, array.toValues = .ok values) ↔ volume (b.maxima name) < Size.limit ∧
      (b.isTextual name = true → volume (b.maxima name) = 1) ∧
      (b.isTextual name = false → b.size * volume (b.maxima name) < Size.limit) := by
  have hpos := volume_maxima_pos b name
  have htakes : array.Takes (volume (b.maxima name)) ↔
      (b.isTextual name = true → volume (b.maxima name) = 1) ∧
        (b.isTextual name = false → b.size * volume (b.maxima name) < Size.limit) := by
    have hsize := hpadded.size
    rw [FieldArray.Takes, hpadded.height, ← hpadded.kind]
    cases hleaves : array.leaves with
    | numeric numbers =>
      rw [hleaves] at hsize
      simp [Leaves.isText, show numbers.length = _ from hsize]
    | text texts =>
      simp only [Leaves.isText, forall_true_left, reduceCtorEq, false_implies, and_true]
      omega
  rw [FieldArray.exists_toValues_iff, hpadded.width]
  simp [Size.checked_eq_ok_iff, htakes]

/-- The values of a padded array have the shape that it states, texts as well as numbers. -/
theorem Padded.shapedAs (hpadded : b.Padded name array) (h : array.toValues = .ok values) :
    array.ShapedAs values := by
  obtain ⟨hlimit, htexts, -⟩ := (exists_toValues_iff hpadded).1 ⟨values, h⟩
  refine (FieldArray.shapedAs_iff h).2 fun htext => ?_
  have hone := htexts (hpadded.kind ▸ htext)
  rw [hpadded.size, hpadded.height, hpadded.width, Size.checked, if_pos hlimit, hone, Nat.mul_one]
  exact ⟨rfl, rfl⟩

/-- The values of an array: a row per record, of the kind of the field and as wide as its padded
rows. -/
theorem values_of_padded (hpadded : b.Padded name array) (h : array.toValues = .ok values) :
    values.height = b.size ∧ values.isText = b.isTextual name ∧
      values.width = volume (b.maxima name) := by
  obtain ⟨hheight, hwidth⟩ := hpadded.shapedAs h
  have hkind : values.isText = array.leaves.isText := by
    rw [← FieldArray.leaves_of_toValues h]
    cases values <;> rfl
  rw [hpadded.width, Size.checked_eq_ok_iff] at hwidth
  exact ⟨hheight.trans hpadded.height, hkind.trans hpadded.kind, hwidth.2⟩

/-- What the table of a batch needs of a field. -/
structure Tabular (b : Batch) (name : String) : Prop where
  /-- The records that hold the field agree on its depth and kind. -/
  agree : ¬ b.Varies name
  single : b.Single name
  /-- There is room for the padded array. A field that no record holds needs no padding. -/
  fits : b.held name = [] ∧ b.size < Size.limit ∨
    Size.Fits (Leaves.entry (b.isTextual name)) b.size (b.maxima name)

/-- A declared field has an entry in the table exactly if it meets what a table needs. -/
theorem exists_entry_iff (hdeclared : name ∈ b.names) :
    (∃ values, b.entry name = .ok values) ↔ b.Tabular name := by
  constructor
  · rintro ⟨values, hentry⟩
    obtain ⟨array, harray, hvalues⟩ := bind_eq_ok_iff.1 hentry
    obtain ⟨-, hagree, hfits⟩ := (b.get_ends name).ok_iff.1 ⟨array, harray⟩
    have hpadded := padded_of_get harray
    obtain ⟨-, htexts, hnumbers⟩ := (exists_toValues_iff hpadded).1 ⟨values, hvalues⟩
    refine ⟨hagree, (single_iff hpadded.uniform).2 htexts, hfits.imp_left fun hheld => ⟨hheld, ?_⟩⟩
    -- A field that no record holds is a column, so its records are what is counted.
    simpa [maxima_of_held_nil hheld] using hnumbers (isTextual_of_held_nil hheld)
  · rintro ⟨hagree, hsingle, hfits⟩
    obtain ⟨array, harray⟩ :=
      (b.get_ends name).ok_iff.2 ⟨hdeclared, hagree, hfits.imp_left And.left⟩
    have hpadded := padded_of_get harray
    have htexts := (single_iff hpadded.uniform).1 hsingle
    -- Where a list has room for all values they can be counted, too.
    obtain ⟨values, hvalues⟩ := (exists_toValues_iff hpadded).2 <| by
      rcases hfits with ⟨hheld, hsize⟩ | hfits
      · have hone : volume (b.maxima name) = 1 := by rw [maxima_of_held_nil hheld, volume_nil]
        exact ⟨hone ▸ by decide, fun _ => hone, fun _ => by rwa [hone, Nat.mul_one]⟩
      · exact ⟨hfits.1, htexts, fun _ => hfits.2.lt_limit⟩
    exact ⟨values, bind_eq_ok_iff.2 ⟨array, harray, hvalues⟩⟩

/-- The entry of a field that no record holds is a column of sentinels. -/
theorem entry_of_held_nil (hheld : b.held name = []) (h : b.entry name = .ok values) :
    values = .numeric (.ofColumn (List.replicate b.size b.policy.sentinel)) := by
  obtain ⟨array, harray, hvalues⟩ := bind_eq_ok_iff.1 h
  have hpadded := padded_of_get harray
  obtain ⟨hheight, hkind, hwidth⟩ := values_of_padded hpadded hvalues
  rw [maxima_of_held_nil hheld, volume_nil] at hwidth
  rw [isTextual_of_held_nil hheld] at hkind
  cases values with
  | text texts => contradiction
  | numeric grid =>
    -- One column with a row for each record, and every cell is blank.
    have hleaves := (FieldArray.toValues_eq_numeric_iff.1 hvalues).1
    have hlength : grid.values.length = b.size := by
      rw [grid.length_values]
      show grid.height * grid.cols = _
      rw [show grid.height = b.size from hheight, show grid.cols = 1 from hwidth, Nat.mul_one]
    refine congrArg Values.numeric (Grid.ext ?_ hwidth (List.ext_getElem? fun record => ?_))
    · exact hheight.trans List.length_replicate.symm
    · by_cases hrecord : record < b.size
      · -- No leaf stands in the row of a record.
        have hblank := hpadded.blank record 0 hrecord (volume_maxima_pos b name)
          fun reading _ _ hr => absurd (mem_held_of_reading? hr) (by simp [hheld])
        rw [maxima_of_held_nil hheld, isTextual_of_held_nil hheld, hleaves, volume_nil,
          Nat.mul_one, Nat.add_zero] at hblank
        simpa [Leaves.leaf?, Leaf.blank, hrecord] using hblank
      · have hge := Nat.le_of_not_lt hrecord
        rw [List.getElem?_eq_none_iff.2 (hlength.symm ▸ hge),
          List.getElem?_eq_none_iff.2 (by simpa using hge)]

/-! ### From the batch to the table -/

/-- A fold that inserts a value per name leaves other names alone. -/
private theorem find?_of_foldlM_insert_of_not_mem {value : String → Except Error Values}
    {names : List String} {t : FieldTable}
    (h : names.foldlM (fun t name => (value name).map (t.insert name)) t = .ok table)
    (hname : name ∉ names) : table.find? name = t.find? name := by
  induction names generalizing t with
  | nil => rw [Except.ok.inj h]
  | cons first names ih =>
    rw [List.foldlM_cons] at h
    obtain ⟨_, hfirst, h⟩ := bind_eq_ok_iff.1 h
    obtain ⟨v, -, rfl⟩ := map_eq_ok_iff.1 hfirst
    rw [List.mem_cons, not_or] at hname
    rw [ih h hname.2, Dict.find?_insert, if_neg hname.1]

/-- A fold that inserts a value per name has the value of every name in the end. -/
private theorem find?_of_foldlM_insert {value : String → Except Error Values}
    {names : List String} {t : FieldTable}
    (h : names.foldlM (fun t name => (value name).map (t.insert name)) t = .ok table)
    (hname : name ∈ names) : ∃ v, value name = .ok v ∧ table.find? name = some v := by
  induction names generalizing t with
  | nil => simp at hname
  | cons first names ih =>
    rw [List.foldlM_cons] at h
    obtain ⟨_, hfirst, h⟩ := bind_eq_ok_iff.1 h
    obtain ⟨v, hv, rfl⟩ := map_eq_ok_iff.1 hfirst
    by_cases hlater : name ∈ names
    · exact ih h hlater
    · obtain rfl : name = first := (List.mem_cons.1 hname).resolve_right hlater
      refine ⟨v, hv, ?_⟩
      rw [find?_of_foldlM_insert_of_not_mem h hlater, Dict.find?_insert, if_pos rfl]

/-- A fold that inserts a value per name succeeds if every name has a value. -/
private theorem exists_foldlM_insert {value : String → Except Error Values} {names : List String}
    {t : FieldTable} (h : ∀ name ∈ names, ∃ v, value name = .ok v) :
    ∃ table, names.foldlM (fun t name => (value name).map (t.insert name)) t = .ok table := by
  induction names generalizing t with
  | nil => exact ⟨t, rfl⟩
  | cons first names ih =>
    obtain ⟨⟨v, hv⟩, hnames⟩ := List.forall_mem_cons.1 h
    rw [List.foldlM_cons, hv]
    exact ih hnames

/-- The entries are inserted one after another. -/
theorem outcome_toTable (b : Batch) : b.toTable.outcome =
    b.names.foldlM (fun table name => (b.entry name).map (table.insert name)) Dict.empty := by
  have hstep : ∀ (t : FieldTable) (name : String), (do
      let array ← b.get name
      return t.insert name (← array.toValues) : Logged FieldTable).outcome =
        (b.entry name).map (t.insert name) := by
    intro t name
    simp only [entry, Logged.outcome_bind, Logged.outcome_monadLift, Logged.outcome_pure]
    cases (b.get name).outcome with
    | error e => rfl
    | ok array =>
      rw [ok_bind, ok_bind]
      cases array.toValues <;> rfl
  simp only [toTable, Logged.outcome_foldlM, hstep]

/-- A table holds the entry of every declared field. -/
theorem find?_eq_entry (h : b.toTable.outcome = .ok table) (hname : name ∈ b.names) :
    ∃ values, b.entry name = .ok values ∧ table.find? name = some values :=
  find?_of_foldlM_insert (b.outcome_toTable ▸ h) hname

/-- A table holds the array of every declared field. -/
theorem find?_of_toTable (h : b.toTable.outcome = .ok table) (hname : name ∈ b.names) :
    ∃ array values, (b.get name).outcome = .ok array ∧ array.toValues = .ok values ∧
      table.find? name = some values := by
  obtain ⟨values, hentry, hfind⟩ := find?_eq_entry h hname
  obtain ⟨array, harray, hvalues⟩ := bind_eq_ok_iff.1 hentry
  exact ⟨array, values, harray, hvalues, hfind⟩

/-- A table has nothing but declared fields. -/
theorem mem_names_of_find? (h : b.toTable.outcome = .ok table)
    (hfind : table.find? name = some values) : name ∈ b.names := by
  refine Decidable.byContradiction fun hname => ?_
  rw [find?_of_foldlM_insert_of_not_mem (b.outcome_toTable ▸ h) hname] at hfind
  contradiction

/-- A batch has a table exactly if all its declared fields meet what a table needs. -/
theorem exists_toTable_iff (b : Batch) :
    (∃ table, b.toTable.outcome = .ok table) ↔ ∀ name ∈ b.names, b.Tabular name := by
  constructor
  · rintro ⟨table, h⟩ name hname
    obtain ⟨values, hentry, -⟩ := find?_eq_entry h hname
    exact (exists_entry_iff hname).1 ⟨values, hentry⟩
  · intro h
    -- The entries are made one by one, and none depends on another.
    rw [outcome_toTable]
    exact exists_foldlM_insert fun name hname => (exists_entry_iff hname).2 (h name hname)

/-- A table of a batch: an entry per declared field, with a row per record, of the kind of the
field and as wide as its padded rows. -/
structure Tabulates (b : Batch) (table : FieldTable) : Prop where
  names : ∀ name, name ∈ table.keys ↔ name ∈ b.names
  rows : table.checkRows = .ok b.size
  kind : ∀ name values, table.find? name = some values → values.isText = b.isTextual name
  /-- As many columns as the largest counts of all levels, each at least one, multiply to. -/
  cols : ∀ name grid, table.find? name = some (.numeric grid) → grid.cols = volume (b.maxima name)
  unobserved : ∀ name ∈ b.names, b.held name = [] →
    table.find? name = some (.numeric (.ofColumn (List.replicate b.size b.policy.sentinel)))

/-- A table of some fields holds these fields and no others, each with a row per record. -/
theorem tabulates_of_toTable (hnames : b.names ≠ []) (h : b.toTable.outcome = .ok table) :
    b.Tabulates table := by
  have hentry : ∀ name values, table.find? name = some values → values.height = b.size ∧
      values.isText = b.isTextual name ∧ values.width = volume (b.maxima name) := by
    intro name values hfind
    obtain ⟨array, values', harray, hvalues, hfind'⟩ :=
      find?_of_toTable h (mem_names_of_find? h hfind)
    obtain rfl : values = values' := Option.some.inj (hfind.symm.trans hfind')
    exact values_of_padded (padded_of_get harray) hvalues
  have hkeys : ∀ name, name ∈ table.keys ↔ name ∈ b.names := by
    intro name
    rw [← Dict.contains_iff, Dict.contains, Option.isSome_iff_exists]
    -- A key of the table was inserted, and only declared names are.
    constructor
    · rintro ⟨values, hfind⟩
      exact mem_names_of_find? h hfind
    · intro hname
      obtain ⟨values, -, hfind⟩ := find?_eq_entry h hname
      exact ⟨values, hfind⟩
  have hheights : table.Aligned b.size := fun e he =>
    (hentry e.1 e.2 (Dict.mem_entries_iff.1 he)).1
  -- There is a first entry, and it has a row per record like all others.
  have hcount : table.rowCount = b.size := by
    obtain ⟨name, names, hcons⟩ := List.exists_cons_of_ne_nil hnames
    have hkey : name ∈ table.keys := (hkeys name).2 (by simp [hcons])
    cases hentries : table.entries with
    | nil => simp [Dict.keys, hentries] at hkey
    | cons first rest =>
      rw [FieldTable.rowCount, Dict.values, hentries]
      exact hheights first (by simp [hentries])
  refine ⟨hkeys, ?_, fun name values hfind => (hentry name values hfind).2.1,
    fun name grid hfind => (hentry name _ hfind).2.2, fun name hname hheld => ?_⟩
  · exact FieldTable.checkRows_eq_ok_iff.2 ⟨hcount.symm, hcount.symm ▸ hheights⟩
  · obtain ⟨values, hvalues, hfind⟩ := find?_eq_entry h hname
    rw [hfind, entry_of_held_nil hheld hvalues]

/-- **Batches become tables.** Whatever records are offered, a batch with a declared field has a
table exactly if the records agree on the depth and kind of every declared field, no group around
the texts of one is there more than once, and the padded arrays are not too large. The table has the
declared fields, a row per record in each of them, and a column of sentinels for a field that no
record holds. -/
theorem assembled_tables (names : List String) (policy : MissingPolicy) (offered : List Record)
    (hnames : names ≠ []) :
    ((∃ table, (ofOffers names policy offered).toTable.outcome = .ok table) ↔
        ∀ name ∈ names, (ofOffers names policy offered).Tabular name) ∧
      ∀ table, (ofOffers names policy offered).toTable.outcome = .ok table →
        (ofOffers names policy offered).Tabulates table := by
  have heq := names_ofOffers names policy offered
  refine ⟨?_, fun table => tabulates_of_toTable (heq.symm ▸ hnames)⟩
  rw [exists_toTable_iff, heq]

/-- Two records with a station, of which the first has two groups of temperatures. -/
def stationRecords : List Record := [
  ⟨[.repeated "T" (.numeric [1, 2, 3]) [1, 2] ⟨[[2], [1, 2]]⟩, .text "station" "EDDM"], by decide⟩,
  ⟨[.absent "T", .text "station" "KSFO"], by decide⟩]

/-- The table of the stations, with a field that no record holds. -/
def stationTable : FieldTable :=
  ⟨[("T", .numeric ⟨2, 4, [1, 1e11, 2, 3, 1e11, 1e11, 1e11, 1e11], rfl⟩),
    ("station", .text ["EDDM", "KSFO"]),
    ("wind", .numeric ⟨2, 1, [1e11, 1e11], rfl⟩)], by decide⟩

/-- Winds, a field that no record holds, and station names make up a table of two records. -/
theorem assembled_tables_stations :
    ["wind", "T", "station"] ≠ [] ∧
      (∀ name ∈ ["wind", "T", "station"],
        (ofOffers ["wind", "T", "station"] .standard stationRecords).Tabular name) ∧
      (ofOffers ["wind", "T", "station"] .standard stationRecords).toTable.outcome =
        .ok stationTable ∧
      (ofOffers ["wind", "T", "station"] .standard stationRecords).Tabulates stationTable := by
  have htable : (ofOffers ["wind", "T", "station"] .standard stationRecords).toTable.outcome =
      .ok stationTable := by rfl
  obtain ⟨htabular, htabulates⟩ :=
    assembled_tables ["wind", "T", "station"] .standard stationRecords (by decide)
  exact ⟨by decide, htabular.1 ⟨_, htable⟩, htable, htabulates _ htable⟩

/-- A record can be taken whose only field is declared, numeric and agrees with itself, but the
batch has no table, since the padded array of the field is too large. -/
theorem toTable_fails_towering :
    (ofOffers ["T"] .standard [toweringRecord]).records = [toweringRecord] ∧
      ¬ (ofOffers ["T"] .standard [toweringRecord]).Varies "T" ∧
      (ofOffers ["T"] .standard [toweringRecord]).Single "T" ∧
      (ofOffers ["T"] .standard [toweringRecord]).toTable.outcome = .error .tooLarge := by
  refine ⟨by rfl, not_varies_towering, fun reading hreading hkind => ?_, by rfl⟩
  -- The leaves are numbers, so there is nothing to be single.
  rw [held_towering, List.mem_singleton] at hreading
  subst hreading
  contradiction

end Batch

end ObsExport
