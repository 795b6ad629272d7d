import ObsExport.Layout
import ObsExport.Proofs.Config.Readers
import Mathlib.Data.List.Nodup

/-!
# The grammar of output sections

What an output section states is a layout with its sources as they are spelled (`Layout.StatedBy`).
A section is read exactly if the layout that it states, with every source replaced by the name that
it spells, is checked against the export: its references are good and its names differ
(`Layout.Checked`). So reading a section is one statement without the order in which its parts are
looked at (`Layout.ofConfig_eq_ok_iff`).

Dimensions and variables are collected one after another under new names, and both folds are
instances of one (`foldlM_collect_eq_ok_iff`).
-/

namespace ObsExport

/-! ### Sources -/

/-- The extent with the name that its source spells. -/
def Extent.bound : Extent → Extent
  | fixed size => .fixed size
  | columnsOf source => .columnsOf (sourceName source)

/-- The dimension with the name that its source spells. -/
def DimensionSpec.bound (d : DimensionSpec) : DimensionSpec := ⟨d.name, d.extent.bound⟩

/-- The variable with the name that its source spells. -/
def OutputVariable.bound (o : OutputVariable) : OutputVariable :=
  { o with source := sourceName o.source }

/-- The layout with the names that its sources spell. -/
def Layout.bound (l : Layout) : Layout :=
  ⟨l.locationDimension, l.dimensions.map DimensionSpec.bound, l.outputs.map OutputVariable.bound⟩

/-! ### What a section states -/

/-- A dimension with a size or with a source. -/
inductive DimensionSpec.StatedBy (block : Tree) : DimensionSpec → Prop where
  | fixed {name : String} {size : Nat} (hname : block.get? "name" = some (.string name))
      (hsize : block.get? "size" = some (.integer size)) (hword : InWord size)
      (hsource : block.get? "source" = none) : StatedBy block ⟨name, .fixed size⟩
  | columnsOf {name source : String} (hname : block.get? "name" = some (.string name))
      (hsize : block.get? "size" = none) (hsource : block.get? "source" = some (.string source)) :
      StatedBy block ⟨name, .columnsOf source⟩

/-- A variable, by default over the location dimension alone and in one chunk. -/
structure OutputVariable.StatedBy (location : String) (block : Tree) (o : OutputVariable) :
    Prop where
  name : block.get? "name" = some (.string o.name)
  source : block.get? "source" = some (.string o.source)
  dimensions : ∃ names : Option (List String),
    block.get? "dimensions" = names.map (fun names => .list (names.map .string)) ∧
      o.dimensions = names.getD [location]
  chunks : ∃ sizes, block.StatesAt "chunks"
    (fun v sizes => ∃ items, v = .list items ∧
      List.Forall₂ (fun item size => item.asNatural? = some size) items sizes) sizes ∧
      o.options.chunks = sizes.getD []
  fillValue : block.StatesAt "fillValue" (fun v x => v.asFloat? = some x) o.options.fillValue
  compression : block.get? "compression" = o.options.compression.map fun c => .string c.name
  longName : block.get? "longName" = o.options.longName.map .string
  units : block.get? "units" = o.options.units.map .string

/-- A location dimension, which the settings name by default, further dimensions and variables. -/
structure Layout.StatedBy (s : Settings) (block : Tree) (l : Layout) : Prop where
  location : ∃ name : Option String, block.get? "locationDimension" = name.map .string ∧
    l.locationDimension = name.getD s.locationDimension
  dimensions : ∃ items : Option (List Tree), block.get? "dimensions" = items.map .list ∧
    List.Forall₂ DimensionSpec.StatedBy (items.getD []) l.dimensions
  outputs : ∃ items, block.get? "variables" = some (.list items) ∧
    List.Forall₂ (OutputVariable.StatedBy l.locationDimension) items l.outputs

/-! ### A section states one layout -/

/-- A block states one dimension at most. -/
theorem DimensionSpec.StatedBy.unique {block : Tree} {d d' : DimensionSpec}
    (h : d.StatedBy block) (h' : d'.StatedBy block) : d = d' := by
  cases h with
  | fixed hname hsize _ hsource =>
    cases h' with
    | fixed hname' hsize' =>
      obtain rfl := Tree.string.inj (Option.some.inj (hname.symm.trans hname'))
      have hsame := Tree.integer.inj (Option.some.inj (hsize.symm.trans hsize'))
      rw [Int.ofNat.inj hsame]
    | columnsOf _ _ hsource' => simp [hsource] at hsource'
  | columnsOf hname hsize hsource =>
    cases h' with
    | fixed _ _ _ hsource' => simp [hsource] at hsource'
    | columnsOf hname' _ hsource' =>
      obtain rfl := Tree.string.inj (Option.some.inj (hname.symm.trans hname'))
      obtain rfl := Tree.string.inj (Option.some.inj (hsource.symm.trans hsource'))
      rfl

/-- A block states one output variable at most. -/
theorem OutputVariable.StatedBy.unique {location : String} {block : Tree} {o o' : OutputVariable}
    (h : o.StatedBy location block) (h' : o'.StatedBy location block) : o = o' := by
  have hstring : Function.Injective Tree.string := fun _ _ => Tree.string.inj
  have hname : o.name = o'.name := hstring (Option.some.inj (h.name.symm.trans h'.name))
  have hsource : o.source = o'.source := hstring (Option.some.inj (h.source.symm.trans h'.source))
  have hdimensions : o.dimensions = o'.dimensions := by
    obtain ⟨names, hnames, heq⟩ := h.dimensions
    obtain ⟨names', hnames', heq'⟩ := h'.dimensions
    have hlist : Function.Injective fun names : List String => Tree.list (names.map .string) :=
      fun _ _ h => List.map_injective_iff.2 hstring (Tree.list.inj h)
    rw [heq, heq', Option.map_injective hlist (hnames.symm.trans hnames')]
  have hchunks : o.options.chunks = o'.options.chunks := by
    obtain ⟨sizes, hsizes, heq⟩ := h.chunks
    obtain ⟨sizes', hsizes', heq'⟩ := h'.chunks
    rw [heq, heq', hsizes.unique hsizes']
    -- A list states its sizes one by one, and an item is one size.
    rintro _ sizes sizes' ⟨items, rfl, hpaired⟩ ⟨_, hitems, hpaired'⟩
    obtain rfl := Tree.list.inj hitems
    exact List.right_unique_forall₂' (fun _ _ _ hn hn' => Option.some.inj (hn.symm.trans hn'))
      hpaired hpaired'
  have hfill : o.options.fillValue = o'.options.fillValue :=
    h.fillValue.unique h'.fillValue fun _ _ _ hx hx' => Option.some.inj (hx.symm.trans hx')
  have hcompression : o.options.compression = o'.options.compression := by
    have hcodec : Function.Injective fun codec : Codec => Tree.string codec.name := by
      intro codec codec' hnames
      have hread := Codec.ofName?_eq_some_iff.2 (hstring hnames)
      exact Option.some.inj ((Codec.ofName?_eq_some_iff.2 rfl).symm.trans hread)
    exact Option.map_injective hcodec (h.compression.symm.trans h'.compression)
  have hlongName : o.options.longName = o'.options.longName :=
    Option.map_injective hstring (h.longName.symm.trans h'.longName)
  have hunits : o.options.units = o'.options.units :=
    Option.map_injective hstring (h.units.symm.trans h'.units)
  -- All fields are equal.
  obtain ⟨_, _, _, _, _, _, _, _⟩ := o
  obtain ⟨_, _, _, _, _, _, _, _⟩ := o'
  simp_all

/-- A section states one layout at most. -/
theorem Layout.StatedBy.unique {s : Settings} {block : Tree} {l l' : Layout}
    (h : l.StatedBy s block) (h' : l'.StatedBy s block) : l = l' := by
  have hlocation : l.locationDimension = l'.locationDimension := by
    obtain ⟨name, hname, heq⟩ := h.location
    obtain ⟨name', hname', heq'⟩ := h'.location
    have hsame : name = name' :=
      Option.map_injective (fun _ _ => Tree.string.inj) (hname.symm.trans hname')
    rw [heq, heq', hsame]
  have hdimensions : l.dimensions = l'.dimensions := by
    obtain ⟨blocks, hblocks, hpaired⟩ := h.dimensions
    obtain ⟨blocks', hblocks', hpaired'⟩ := h'.dimensions
    obtain rfl : blocks = blocks' :=
      Option.map_injective (fun _ _ => Tree.list.inj) (hblocks.symm.trans hblocks')
    exact List.right_unique_forall₂' (R := DimensionSpec.StatedBy)
      (fun _ _ _ hd hd' => hd.unique hd') hpaired hpaired'
  have houtputs : l.outputs = l'.outputs := by
    obtain ⟨blocks, hblocks, hpaired⟩ := h.outputs
    obtain ⟨blocks', hblocks', hpaired'⟩ := h'.outputs
    obtain rfl := Tree.list.inj (Option.some.inj (hblocks.symm.trans hblocks'))
    -- Variables are stated over a location dimension, which is the same one by now.
    rw [← hlocation] at hpaired'
    exact List.right_unique_forall₂' (R := OutputVariable.StatedBy l.locationDimension)
      (fun _ _ _ ho ho' => ho.unique ho') hpaired hpaired'
  obtain ⟨_, _, _⟩ := l
  obtain ⟨_, _, _⟩ := l'
  simp_all

namespace Layout

variable {e : Export} {location : String} {c : Cursor}

/-- A layout whose references are good and whose names differ. -/
structure Checked (l : Layout) (e : Export) : Prop where
  dimensionNames : (l.locationDimension :: l.dimensions.map DimensionSpec.name).Nodup
  /-- A dimension counts the columns of a variable of the export. -/
  dimensionSources : ∀ d ∈ l.dimensions, ∀ source, d.extent = .columnsOf source →
    source ∈ e.vars.keys
  outputNames : (l.outputs.map OutputVariable.name).Nodup
  sources : ∀ o ∈ l.outputs, o.source ∈ e.vars.keys
  location : ∀ o ∈ l.outputs, o.dimensions.head? = some l.locationDimension
  declared : ∀ o ∈ l.outputs, ∀ d ∈ o.dimensions,
    d ∈ l.locationDimension :: l.dimensions.map DimensionSpec.name

/-! ### One dimension -/

/-- A source is taken exactly if the name behind its prefix is a variable of the export. -/
theorem sourceOf_eq_ok_iff {source name : String} :
    sourceOf c source e = .ok name ↔ sourceName source = name ∧ name ∈ e.vars.keys := by
  unfold sourceOf
  simp only [← Dict.contains_iff]
  split
  next h =>
    simp only [Except.ok.injEq]
    exact ⟨fun heq => ⟨heq, heq ▸ h⟩, fun h => h.1⟩
  next h =>
    simp only [reduceCtorEq, false_iff]
    rintro ⟨rfl, hname⟩
    exact h hname

/-- A dimension needs a name; what else it has must be of the right kind. -/
theorem accepts_outputDimension_iff {block : Tree} :
    Section.outputDimension.Accepts block ↔ block.entries?.isSome = true ∧
      (∀ v, block.get? "name" = some v → v.asString?.isSome = true) ∧
      (block.get? "name").isSome = true ∧
      (∀ v, block.get? "size" = some v → v.asInteger?.isSome = true) ∧
      ∀ v, block.get? "source" = some v → v.asString?.isSome = true := by
  simp [Section.Accepts, Section.outputDimension, ValueKind.admits, and_assoc]

/-- The section asks for an integer of a word and the reader for one without a sign: the number that
is read is both. -/
theorem asNatural_of_integer_iff {path : String} {v : Tree} {n : Nat}
    (hinteger : v.asInteger?.isSome = true) :
    (⟨path, v⟩ : Cursor).asNatural = .ok n ↔ v = .integer n ∧ InWord n := by
  rw [Cursor.asNatural_eq_ok_iff, Tree.asNatural?_eq_some_iff]
  obtain ⟨i, hi⟩ := Option.isSome_iff_exists.1 hinteger
  obtain ⟨hword, rfl⟩ := Tree.asInteger?_eq_some_iff.1 hi
  constructor
  · rintro ⟨-, h⟩
    exact ⟨h, Tree.integer.inj h ▸ hword⟩
  · rintro ⟨h, hn⟩
    have hle : (n : Int) ≤ 0x7fffffffffffffff := hn.2
    exact ⟨by omega, h⟩

/-- A dimension is read exactly if its block states one whose source, if it has one, is a variable
of the export. -/
theorem dimensionOfConfig_eq_ok_iff {d : DimensionSpec} :
    (dimensionOfConfig e c).outcome = .ok d ↔
      ∃ w, DimensionSpec.StatedBy c.value w ∧ w.bound = d ∧
        ∀ source, d.extent = .columnsOf source → source ∈ e.vars.keys := by
  unfold dimensionOfConfig
  rw [Cursor.check_bind_eq_ok_iff, accepts_outputDimension_iff]
  simp only [Logged.outcome_bind, Logged.outcome_monadLift, bind_eq_ok_iff,
    Cursor.string_eq_ok_iff]
  constructor
  · rintro ⟨⟨-, -, -, hinteger, -⟩, name, hname, h⟩
    -- A size or a source, but not both and not neither.
    split at h
    next size hsize hsource =>
      simp only [Logged.outcome_bind, Logged.outcome_monadLift, Logged.outcome_pure] at h
      obtain ⟨n, hn, hd⟩ := bind_eq_ok_iff.1 h
      obtain ⟨v, hv, rfl⟩ := Cursor.get?_eq_some_iff.1 hsize
      obtain ⟨rfl, hword⟩ := (asNatural_of_integer_iff (hinteger v hv)).1 hn
      obtain rfl := Except.ok.inj hd
      exact ⟨_, .fixed hname hv hword (Cursor.get?_eq_none_iff.1 hsource), rfl, by simp⟩
    next source hsize hsource =>
      simp only [Logged.outcome_bind, Logged.outcome_monadLift, Logged.outcome_pure] at h
      obtain ⟨written, hwritten, h⟩ := bind_eq_ok_iff.1 h
      obtain ⟨n, hn, hd⟩ := bind_eq_ok_iff.1 h
      obtain ⟨v, hv, rfl⟩ := Cursor.get?_eq_some_iff.1 hsource
      obtain rfl := Cursor.asString_eq_ok_iff.1 hwritten
      obtain ⟨rfl, hkey⟩ := sourceOf_eq_ok_iff.1 hn
      obtain rfl := Except.ok.inj hd
      refine ⟨_, .columnsOf hname (Cursor.get?_eq_none_iff.1 hsize) hv, rfl, ?_⟩
      rintro source heq
      exact Extent.columnsOf.inj heq ▸ hkey
    next => contradiction
    next => contradiction
  · rintro ⟨w, hstated, rfl, hkeys⟩
    cases hstated with
    | @fixed name size hname hsize hword hsource =>
      have hget : c.get? "size" = some ⟨c.pathOf "size", .integer size⟩ :=
        Cursor.get?_eq_some_iff.2 ⟨_, hsize, rfl⟩
      have hinteger : (Tree.integer size).asInteger?.isSome = true := by
        simp [Tree.asInteger?, word?, hword]
      have hread : (⟨c.pathOf "size", .integer size⟩ : Cursor).asNatural = .ok size :=
        (asNatural_of_integer_iff hinteger).2 ⟨rfl, hword⟩
      refine ⟨⟨Tree.isSome_entries?_of_get? hname, ?_⟩, name, hname, ?_⟩
      · simp [hname, hsize, hsource, Tree.asString?, hinteger]
      · rw [hget, Cursor.get?_eq_none_iff.2 hsource]
        simp [hread, DimensionSpec.bound, Extent.bound]
    | @columnsOf name source hname hsize hsource =>
      have hget : c.get? "source" = some ⟨c.pathOf "source", .string source⟩ :=
        Cursor.get?_eq_some_iff.2 ⟨_, hsource, rfl⟩
      have hread : (⟨c.pathOf "source", .string source⟩ : Cursor).asString = .ok source := rfl
      have hsourceOf : sourceOf c source e = .ok (sourceName source) :=
        sourceOf_eq_ok_iff.2 ⟨rfl, hkeys _ rfl⟩
      refine ⟨⟨Tree.isSome_entries?_of_get? hname, ?_⟩, name, hname, ?_⟩
      · simp [hname, hsize, hsource, Tree.asString?]
      · rw [hget, Cursor.get?_eq_none_iff.2 hsize]
        simp [hread, hsourceOf, DimensionSpec.bound, Extent.bound]

/-! ### One variable -/

/-- The dimensions of a variable stand in a list, and begin with the location dimension. -/
theorem dimensionsOfConfig_eq_ok_iff {names : List String}
    (hlist : ∀ v, c.value.get? "dimensions" = some v → v.items?.isSome = true) :
    dimensionsOfConfig location c = .ok names ↔
      (∃ written : Option (List String),
        c.value.get? "dimensions" = written.map (fun names => .list (names.map .string)) ∧
          names = written.getD [location]) ∧
        names.head? = some location := by
  have hread : ∀ written, c.optional "dimensions" Cursor.asStrings = .ok written ↔
      c.value.get? "dimensions" = written.map fun names => .list (names.map .string) := by
    intro written
    rw [Cursor.optional_eq_ok_iff (R := fun v names => (∃ s, v = Tree.string s ∧ names = [s]) ∨
      v = .list (names.map .string)) fun _ _ _ => Cursor.asStrings_eq_ok_iff, ← Tree.statesAt_eq_iff]
    -- The one string that could stand there instead is no list.
    refine Tree.statesAt_congr fun v hv names => or_iff_right ?_
    rintro ⟨s, rfl, -⟩
    exact absurd (hlist _ hv) (by simp [Tree.items?])
  unfold dimensionsOfConfig
  simp only [bind_eq_ok_iff, hread]
  constructor
  · rintro ⟨written, hwritten, h⟩
    split at h
    next hhead =>
      obtain rfl := Except.ok.inj h
      exact ⟨⟨written, hwritten, rfl⟩, hhead⟩
    next => contradiction
  · rintro ⟨⟨written, hwritten, rfl⟩, hhead⟩
    refine ⟨written, hwritten, ?_⟩
    rw [if_pos hhead]
    rfl

/-- A compression is read exactly by the name of a codec, or is left out. -/
theorem codecOfConfig_eq_ok_iff {codec : Option Codec} :
    codecOfConfig c = .ok codec ↔
      c.value.get? "compression" = codec.map fun codec => .string codec.name := by
  unfold codecOfConfig
  simp only [bind_eq_ok_iff, Cursor.string?_eq_ok_iff]
  constructor
  · rintro ⟨name, hname, h⟩
    rw [hname]
    cases name with
    | none => rw [← Except.ok.inj h]; rfl
    | some name =>
      -- The name of a codec is the only text from which it is read.
      cases hcodec : Codec.ofName? name with
      | none => simp [hcodec] at h
      | some codec =>
        simp only [hcodec] at h
        rw [← Except.ok.inj h, Codec.ofName?_eq_some_iff.1 hcodec]
        rfl
  · intro h
    refine ⟨codec.map Codec.name, by rw [h, Option.map_map]; rfl, ?_⟩
    cases codec with
    | none => rfl
    | some codec =>
      simp only [Option.map_some, Codec.ofName?_eq_some_iff.2 rfl]
      rfl

/-- Chunks are read exactly if all of them are natural numbers, or are left out. -/
theorem chunksOfConfig_eq_ok_iff {sizes : List Nat} :
    chunksOfConfig c = .ok sizes ↔ ∃ written, c.value.StatesAt "chunks" (fun v sizes =>
      ∃ items, v = .list items ∧
        List.Forall₂ (fun item size => item.asNatural? = some size) items sizes) written ∧
      sizes = written.getD [] := by
  -- A list of sizes is read size by size, wherever it stands.
  have hitems : ∀ path v sizes,
      ((⟨path, v⟩ : Cursor).items >>= fun items => items.mapM Cursor.asNatural) = .ok sizes ↔
        ∃ items, v = .list items ∧
          List.Forall₂ (fun item size => item.asNatural? = some size) items sizes :=
    fun _ _ _ => Cursor.items_mapM_eq_ok_iff fun _ _ _ => Cursor.asNatural_eq_ok_iff
  have hread : ∀ written, (c.optional "chunks" fun list => do
      (← list.items).mapM Cursor.asNatural) = .ok written ↔ c.value.StatesAt "chunks" _ written :=
    fun _ => Cursor.optional_eq_ok_iff hitems
  unfold chunksOfConfig
  simp only [bind_eq_ok_iff, hread]
  constructor
  · rintro ⟨written, hwritten, h⟩
    exact ⟨written, hwritten, (Except.ok.inj h).symm⟩
  · rintro ⟨written, hwritten, rfl⟩
    exact ⟨written, hwritten, rfl⟩

/-- An output variable needs a name and a source; what else it has must be of the right kind. -/
theorem accepts_outputVariable_iff {block : Tree} :
    Section.outputVariable.Accepts block ↔ block.entries?.isSome = true ∧
      ((∀ v, block.get? "name" = some v → v.asString?.isSome = true) ∧
        (block.get? "name").isSome = true) ∧
      ((∀ v, block.get? "source" = some v → v.asString?.isSome = true) ∧
        (block.get? "source").isSome = true) ∧
      (∀ v, block.get? "dimensions" = some v → v.items?.isSome = true) ∧
      (∀ v, block.get? "fillValue" = some v → v.asFloat?.isSome = true) ∧
      (∀ v, block.get? "chunks" = some v → v.items?.isSome = true) ∧
      (∀ v, block.get? "longName" = some v → v.asString?.isSome = true) ∧
      (∀ v, block.get? "units" = some v → v.asString?.isSome = true) ∧
      ∀ v, block.get? "compression" = some v → v.asString?.isSome = true := by
  simp [Section.Accepts, Section.outputVariable, ValueKind.admits, and_assoc]

/-- What states a variable has the kinds of values that its section wants. -/
theorem accepts_of_stated {block : Tree} {o : OutputVariable} (h : o.StatedBy location block) :
    Section.outputVariable.Accepts block := by
  refine accepts_outputVariable_iff.2 ⟨Tree.isSome_entries?_of_get? h.name, ?_, ?_, ?_, ?_, ?_, ?_,
    ?_, ?_⟩
  · simp [h.name, Tree.asString?]
  · simp [h.source, Tree.asString?]
  · obtain ⟨names, hnames, -⟩ := h.dimensions
    intro v hv
    rw [hnames] at hv
    obtain ⟨written, -, rfl⟩ := Option.map_eq_some_iff.1 hv
    rfl
  · intro v hv
    obtain ⟨x, hx⟩ := h.fillValue.exists_of_get? hv
    rw [hx, Option.isSome_some]
  · obtain ⟨sizes, hsizes, -⟩ := h.chunks
    intro v hv
    obtain ⟨_, items, rfl, -⟩ := hsizes.exists_of_get? hv
    rfl
  · simp [h.longName, Tree.asString?]
  · simp [h.units, Tree.asString?]
  · simp [h.compression, Tree.asString?]

/-- A variable is read from a block that states it with its source as it is spelled. -/
theorem variableOfConfig_eq_ok_iff {o : OutputVariable} :
    (variableOfConfig e location c).outcome = .ok o ↔
      ∃ w : OutputVariable, w.StatedBy location c.value ∧ w.bound = o ∧ o.source ∈ e.vars.keys ∧
        o.dimensions.head? = some location := by
  unfold variableOfConfig
  rw [Cursor.check_bind_eq_ok_iff]
  simp only [Logged.outcome_bind, Logged.outcome_monadLift, Logged.outcome_pure, bind_eq_ok_iff,
    Cursor.string_eq_ok_iff, Cursor.string?_eq_ok_iff, Cursor.float?_eq_ok_iff, sourceOf_eq_ok_iff,
    chunksOfConfig_eq_ok_iff, codecOfConfig_eq_ok_iff]
  constructor
  · rintro ⟨haccepts, name, hname, source, hsource, _, ⟨rfl, hkey⟩, dimensions, hdimensions, chunks,
      hchunks, fill, hfill, codec, hcodec, longName, hlongName, units, hunits, h⟩
    obtain rfl := Except.ok.inj h
    obtain ⟨-, -, -, hlist, -⟩ := accepts_outputVariable_iff.1 haccepts
    obtain ⟨hwritten, hhead⟩ := (dimensionsOfConfig_eq_ok_iff hlist).1 hdimensions
    exact ⟨⟨name, source, dimensions, ⟨chunks, fill, codec, longName, units⟩⟩,
      ⟨hname, hsource, hwritten, hchunks, hfill, hcodec, hlongName, hunits⟩, rfl, hkey, hhead⟩
  · rintro ⟨w, hw, rfl, hkey, hhead⟩
    have haccepts := accepts_of_stated hw
    obtain ⟨-, -, -, hlist, -⟩ := accepts_outputVariable_iff.1 haccepts
    exact ⟨haccepts, w.name, hw.name, w.source, hw.source, _, ⟨rfl, hkey⟩, w.dimensions,
      (dimensionsOfConfig_eq_ok_iff hlist).2 ⟨hw.dimensions, hhead⟩, w.options.chunks, hw.chunks,
      w.options.fillValue, hw.fillValue, w.options.compression, hw.compression, w.options.longName,
      hw.longName, w.options.units, hw.units, rfl⟩

/-! ### Lists of dimensions and variables -/

/-- Under a new name something is appended, under an old one it is refused. -/
theorem append_eq_ok_iff {α : Type} {old : Prop} [Decidable old] {error : Error}
    {read read' : List α} {a : α} :
    (if old then Logged.fail error else return read ++ [a]).outcome = .ok read' ↔
      ¬ old ∧ read' = read ++ [a] := by
  split
  next hold => simp [hold]
  next hnew => simp [hnew, eq_comm]

/-- One more dimension is read and has a new name. -/
theorem addDimension_eq_ok_iff {read read' : List DimensionSpec} :
    (addDimension e location read c).outcome = .ok read' ↔
      ∃ d, (dimensionOfConfig e c).outcome = .ok d ∧
        d.name ∉ [location] ++ read.map DimensionSpec.name ∧ read' = read ++ [d] := by
  simp only [addDimension, Logged.outcome_bind, bind_eq_ok_iff]
  refine exists_congr fun d => and_congr_right fun _ => ?_
  rw [List.mem_append, List.mem_singleton]
  exact append_eq_ok_iff

/-- One more variable is read, uses declared dimensions only and has a new name. -/
theorem addVariable_eq_ok_iff {specs : List DimensionSpec} {read read' : List OutputVariable} :
    (addVariable e location specs read c).outcome = .ok read' ↔
      ∃ o, ((variableOfConfig e location c).outcome = .ok o ∧
          ∀ d ∈ o.dimensions, d ∈ location :: specs.map DimensionSpec.name) ∧
        o.name ∉ [] ++ read.map OutputVariable.name ∧ read' = read ++ [o] := by
  simp only [addVariable, Logged.outcome_bind, bind_eq_ok_iff, and_assoc]
  refine exists_congr fun o => and_congr_right fun _ => ?_
  -- The look-up for an undeclared dimension finds nothing exactly if all are declared.
  have hdeclared : (o.dimensions.find?
      fun d => !(location :: specs.map DimensionSpec.name).contains d) = none ↔
        ∀ d ∈ o.dimensions, d ∈ location :: specs.map DimensionSpec.name := by
    simp only [List.find?_eq_none, Bool.not_eq_true', Bool.not_eq_false, List.contains_iff_mem]
  split
  next d hd =>
    have hundeclared := mt hdeclared.2 (by rw [hd]; simp)
    simp only [Logged.outcome_fail, reduceCtorEq, false_iff]
    exact fun h => hundeclared h.1
  next hnone =>
    rw [List.nil_append, and_iff_right (hdeclared.1 hnone)]
    exact append_eq_ok_iff

/-- A list whose items are added one after another under new names is one that states what is added,
and the names differ. -/
theorem items_collect_iff {β γ : Type} {f : List γ → Cursor → Except Error (List γ)}
    {S : Tree → β → Prop} {g : β → γ} {Q : γ → Prop} {name : γ → String} {taken : List String}
    {out : List γ} (htaken : taken.Nodup) (hstep : ∀ read d read', f read d = .ok read' ↔
      ∃ x, (∃ w, S d.value w ∧ g w = x ∧ Q x) ∧ name x ∉ taken ++ read.map name ∧
        read' = read ++ [x]) :
    (c.items >>= fun items => items.foldlM f []) = .ok out ↔
      (∃ items ws, c.value = .list items ∧ List.Forall₂ S items ws ∧ ws.map g = out ∧
        ∀ x ∈ out, Q x) ∧ (taken ++ out.map name).Nodup := by
  -- Adding under new names is one pairing and one statement about all names.
  have hfold : ∀ items : List Cursor, items.foldlM f [] = .ok out ↔
      List.Forall₂ (fun d x => ∃ w, S d.value w ∧ g w = x ∧ Q x) items out ∧
        (taken ++ out.map name).Nodup := by
    intro items
    rw [foldlM_collect_eq_ok_iff hstep (by simpa using htaken)]
    simp
  calc (c.items >>= fun items => items.foldlM f []) = .ok out
      ↔ (∃ items, c.items = .ok items ∧
          List.Forall₂ (fun d x => ∃ w, S d.value w ∧ g w = x ∧ Q x) items out) ∧
            (taken ++ out.map name).Nodup := by
        simp only [bind_eq_ok_iff, hfold]
        exact ⟨fun ⟨items, hitems, hpaired, hnames⟩ => ⟨⟨items, hitems, hpaired⟩, hnames⟩,
          fun ⟨⟨items, hitems, hpaired⟩, hnames⟩ => ⟨items, hitems, hpaired, hnames⟩⟩
    _ ↔ (∃ items, c.value = .list items ∧
          List.Forall₂ (fun v x => ∃ w, S v w ∧ g w = x ∧ Q x) items out) ∧
            (taken ++ out.map name).Nodup := by
        rw [Cursor.items_forall₂_iff (R := fun v x => ∃ w, S v w ∧ g w = x ∧ Q x)]
    _ ↔ _ := by simp only [forall₂_exists_map_iff, exists_and_left]

/-- The dimensions that are declared are those that the list states, under different names. -/
theorem specsOfConfig_eq_ok_iff {specs : List DimensionSpec} :
    (specsOfConfig e location c).outcome = .ok specs ↔
      (∃ (items : Option (List Tree)) (ws : List DimensionSpec),
        c.value.get? "dimensions" = items.map .list ∧
          List.Forall₂ DimensionSpec.StatedBy (items.getD []) ws ∧
          ws.map DimensionSpec.bound = specs ∧
          ∀ d ∈ specs, ∀ source, d.extent = .columnsOf source → source ∈ e.vars.keys) ∧
      (location :: specs.map DimensionSpec.name).Nodup := by
  unfold specsOfConfig
  cases hlist : c.get? "dimensions" with
  | none =>
    rw [Cursor.get?_eq_none_iff.1 hlist]
    -- A section that lists no dimensions declares none.
    constructor
    · intro h
      obtain rfl := Except.ok.inj h
      exact ⟨⟨none, [], rfl, .nil, rfl, by simp⟩, List.nodup_singleton location⟩
    · rintro ⟨⟨items, ws, hitems, hpaired, rfl, -⟩, -⟩
      cases items with
      | none =>
        cases hpaired
        rfl
      | some items => contradiction
  | some list =>
    obtain ⟨v, hv, rfl⟩ := Cursor.get?_eq_some_iff.1 hlist
    have hstep : ∀ read d read', (addDimension e location read d).outcome = .ok read' ↔
        ∃ x, (∃ w, DimensionSpec.StatedBy d.value w ∧ w.bound = x ∧
          ∀ source, x.extent = .columnsOf source → source ∈ e.vars.keys) ∧
            x.name ∉ [location] ++ read.map DimensionSpec.name ∧ read' = read ++ [x] := by
      intro read d read'
      simp only [addDimension_eq_ok_iff, dimensionOfConfig_eq_ok_iff]
    simp only [Logged.outcome_bind, Logged.outcome_monadLift, Logged.outcome_foldlM]
    rw [items_collect_iff (List.nodup_singleton location) hstep, hv]
    refine and_congr_left fun _ => ?_
    constructor
    · rintro ⟨items, ws, rfl, hall⟩
      exact ⟨some items, ws, rfl, hall⟩
    · rintro ⟨items, ws, hitems, hall⟩
      cases items with
      | none => contradiction
      | some items => exact ⟨items, ws, Option.some.inj hitems, hall⟩

/-- The variables are those that the list states, over declared dimensions and under different
names. -/
theorem outputs_eq_ok_iff {specs : List DimensionSpec} {outputs : List OutputVariable} :
    (c.items >>= fun items => items.foldlM
      (fun read d => (addVariable e location specs read d).outcome) []) = .ok outputs ↔
      (∃ (items : List Tree) (ws : List OutputVariable), c.value = .list items ∧
        List.Forall₂ (OutputVariable.StatedBy location) items ws ∧
        ws.map OutputVariable.bound = outputs ∧
        ∀ o ∈ outputs, o.source ∈ e.vars.keys ∧ o.dimensions.head? = some location ∧
          ∀ d ∈ o.dimensions, d ∈ location :: specs.map DimensionSpec.name) ∧
      (outputs.map OutputVariable.name).Nodup := by
  have hstep : ∀ read d read', (addVariable e location specs read d).outcome = .ok read' ↔
      ∃ x, (∃ w, OutputVariable.StatedBy location d.value w ∧ w.bound = x ∧
        (x.source ∈ e.vars.keys ∧ x.dimensions.head? = some location ∧
          ∀ d ∈ x.dimensions, d ∈ location :: specs.map DimensionSpec.name)) ∧
          x.name ∉ [] ++ read.map OutputVariable.name ∧ read' = read ++ [x] := by
    intro read d read'
    simp only [addVariable_eq_ok_iff, variableOfConfig_eq_ok_iff]
    constructor
    · rintro ⟨o, ⟨⟨w, hw, hbound, hkey, hhead⟩, hdeclared⟩, hnew⟩
      exact ⟨o, ⟨w, hw, hbound, hkey, hhead, hdeclared⟩, hnew⟩
    · rintro ⟨o, ⟨w, hw, hbound, hkey, hhead, hdeclared⟩, hnew⟩
      exact ⟨o, ⟨⟨w, hw, hbound, hkey, hhead⟩, hdeclared⟩, hnew⟩
  exact items_collect_iff List.nodup_nil hstep

/-- An output section needs a list of variables; what else it has must be of the right kind. -/
theorem accepts_output_iff {block : Tree} :
    Section.output.Accepts block ↔ block.entries?.isSome = true ∧
      (∀ v, block.get? "locationDimension" = some v → v.asString?.isSome = true) ∧
      (∀ v, block.get? "dimensions" = some v → v.items?.isSome = true) ∧
      (∀ v, block.get? "variables" = some v → v.items?.isSome = true) ∧
        (block.get? "variables").isSome = true := by
  simp [Section.Accepts, Section.output, ValueKind.admits]

/-- **What an output section is read as.** A section is read as a layout exactly if it states this
layout with its sources as they are spelled, and the layout is checked against the export. -/
theorem ofConfig_eq_ok_iff {s : Settings} {l : Layout} :
    (ofConfig c e s).outcome = .ok l ↔
      (∃ w : Layout, w.StatedBy s c.value ∧ w.bound = l) ∧ l.Checked e := by
  unfold ofConfig
  rw [Cursor.check_bind_eq_ok_iff]
  simp only [Logged.outcome_bind, Logged.outcome_monadLift, Logged.outcome_foldlM, bind_eq_ok_iff,
    Cursor.string?_eq_ok_iff]
  constructor
  · rintro ⟨-, name, hname, specs, hspecs, list, hlist, items, hitems, outputs, houtputs, h⟩
    obtain rfl := Except.ok.inj h
    obtain ⟨v, hv, rfl⟩ := Cursor.child_eq_ok_iff.1 hlist
    obtain ⟨⟨blocks, ds, hblocks, hds, hdimensions, hcolumns⟩, hdimensionNames⟩ :=
      specsOfConfig_eq_ok_iff.1 hspecs
    obtain ⟨⟨trees, ws, rfl, hws, hbound, hall⟩, hnames⟩ :=
      outputs_eq_ok_iff.1 (bind_eq_ok_iff.2 ⟨items, hitems, houtputs⟩)
    -- What the parts state makes up the layout that the section states.
    refine ⟨⟨⟨name.getD s.locationDimension, ds, ws⟩, ?_, ?_⟩, ?_⟩
    · exact ⟨⟨name, hname, rfl⟩, ⟨blocks, hblocks, hds⟩, ⟨trees, hv, hws⟩⟩
    · rw [Layout.bound, hdimensions, hbound]
    · exact {
        dimensionNames := hdimensionNames
        dimensionSources := hcolumns
        outputNames := hnames
        sources := fun o ho => (hall o ho).1
        location := fun o ho => (hall o ho).2.1
        declared := fun o ho => (hall o ho).2.2 }
  · rintro ⟨⟨w, hw, rfl⟩, hchecked⟩
    obtain ⟨name, hname, hlocation⟩ := hw.location
    obtain ⟨blocks, hblocks, hds⟩ := hw.dimensions
    obtain ⟨trees, hv, hws⟩ := hw.outputs
    have hspecs : (specsOfConfig e w.locationDimension c).outcome = .ok w.bound.dimensions :=
      specsOfConfig_eq_ok_iff.2 ⟨⟨blocks, w.dimensions, hblocks, hds, rfl,
        hchecked.dimensionSources⟩, hchecked.dimensionNames⟩
    let list : Cursor := ⟨c.pathOf "variables", .list trees⟩
    have hlist : c.child "variables" = .ok list := Cursor.child_eq_ok_iff.2 ⟨_, hv, rfl⟩
    have hread : (list.items >>= fun items => items.foldlM (fun read d =>
        (addVariable e w.locationDimension w.bound.dimensions read d).outcome) []) =
          .ok w.bound.outputs :=
      outputs_eq_ok_iff.2 ⟨⟨trees, w.outputs, rfl, hws, rfl, fun o ho =>
        ⟨hchecked.sources o ho, hchecked.location o ho, hchecked.declared o ho⟩⟩,
        hchecked.outputNames⟩
    obtain ⟨items, hitems, houtputs⟩ := bind_eq_ok_iff.1 hread
    -- A section that states a layout has the kinds of values that are checked first.
    refine ⟨accepts_output_iff.2 ⟨Tree.isSome_entries?_of_get? hv, ?_, ?_, ?_⟩, name, hname,
      w.bound.dimensions, hlocation ▸ hspecs, list, hlist, items, hitems, w.bound.outputs,
      hlocation ▸ houtputs, ?_⟩
    · simp [hname, Tree.asString?]
    · intro v hv
      rw [hblocks] at hv
      obtain ⟨list, -, rfl⟩ := Option.map_eq_some_iff.1 hv
      rfl
    · simp [hv, Tree.items?]
    · rw [← hlocation]
      rfl

end Layout

end ObsExport
