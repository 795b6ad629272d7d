import ObsExport.Proofs.Config.OutputGrammar

/-!
# Sources of an output

A source may be spelled with the prefix `variables/` or without it (`Spells`). A section that is
right apart from its sources, since it states a layout whose names differ and whose dimensions are
declared (`Layout.Coherent`), is read exactly if every source spells a variable of the export, and
then every output variable and every dimension is bound to the variable that its source spells
(`Layout.read_iff_spelled`).

Every variable is spelled with the prefix. It is spelled without it unless its name begins with the
prefix, for then the name is taken for the spelling of another one.
-/

namespace ObsExport

/-! ### Spellings -/

/-- How a source spells the name of a variable: behind the prefix, or without the prefix if the name
does not begin with it. -/
inductive Spells : String → String → Prop where
  | prefixed (name : String) : Spells ("variables/" ++ name) name
  | bare {name : String} (h : ¬ "variables/".toList <+: name.toList) : Spells name name

/-- What a source spells is what is left of it behind the prefix. -/
theorem spells_iff {source name : String} : Spells source name ↔ sourceName source = name := by
  unfold sourceName
  dsimp only
  constructor
  · rintro (_ | h)
    · have hstart : "variables/".toList <+: ("variables/" ++ name).toList := by
        rw [String.toList_append]
        exact List.prefix_append _ _
      rw [if_pos (List.isPrefixOf_iff_prefix.2 hstart), String.toList_append, List.drop_left,
        String.ofList_toList]
    · rw [if_neg fun hstart => h (List.isPrefixOf_iff_prefix.1 hstart)]
  · split
    next hstart =>
      -- The source is the prefix and a rest, and the rest is the name.
      obtain ⟨rest, hrest⟩ := List.isPrefixOf_iff_prefix.1 hstart
      rw [← hrest, List.drop_left]
      rintro rfl
      have hrest' : (String.ofList rest).toList = rest := String.toList_ofList
      have hsource : source = "variables/" ++ String.ofList rest := by
        rw [← String.toList_inj, String.toList_append, hrest', hrest]
      rw [hsource]
      exact .prefixed _
    next hstart =>
      rintro rfl
      exact .bare fun h => hstart (List.isPrefixOf_iff_prefix.2 h)

/-! ### What is bound to what -/

/-- A dimension that is read keeps its name and its size; a source becomes the name it spells. -/
inductive DimensionSpec.BoundTo : DimensionSpec → DimensionSpec → Prop where
  | fixed (name : String) (size : Nat) : BoundTo ⟨name, .fixed size⟩ ⟨name, .fixed size⟩
  | columnsOf {name source variableName : String} (h : Spells source variableName) :
      BoundTo ⟨name, .columnsOf source⟩ ⟨name, .columnsOf variableName⟩

/-- A variable that is read is as it was stated, but its source becomes the name it spells. -/
structure OutputVariable.BoundTo (w o : OutputVariable) : Prop where
  name : o.name = w.name
  source : Spells w.source o.source
  dimensions : o.dimensions = w.dimensions
  options : o.options = w.options

namespace Layout

/-- A layout that is read is as it was stated, but its sources become the names they spell. -/
structure BoundTo (w l : Layout) : Prop where
  location : l.locationDimension = w.locationDimension
  dimensions : List.Forall₂ DimensionSpec.BoundTo w.dimensions l.dimensions
  outputs : List.Forall₂ OutputVariable.BoundTo w.outputs l.outputs

/-- The sources of all dimensions and variables. -/
def sources (l : Layout) : List String :=
  l.dimensions.filterMap (fun d =>
    match d.extent with
    | .fixed _ => none
    | .columnsOf source => some source) ++ l.outputs.map OutputVariable.source

/-- A layout whose names differ and whose variables use declared dimensions. -/
structure Coherent (l : Layout) : Prop where
  dimensionNames : (l.locationDimension :: l.dimensions.map DimensionSpec.name).Nodup
  outputNames : (l.outputs.map OutputVariable.name).Nodup
  location : ∀ o ∈ l.outputs, o.dimensions.head? = some l.locationDimension
  declared : ∀ o ∈ l.outputs, ∀ d ∈ o.dimensions,
    d ∈ l.locationDimension :: l.dimensions.map DimensionSpec.name

variable {w l : Layout} {e : Export} {s : Settings} {c : Cursor}

/-- Every layout is bound to the one in which sources are replaced by names. -/
theorem boundTo_bound (w : Layout) : w.BoundTo w.bound := by
  refine ⟨rfl, ?_, ?_⟩
  · refine List.forall₂_map_right_iff.2 (List.forall₂_same.2 fun d _ => ?_)
    obtain ⟨name, size | source⟩ := d
    · exact .fixed name size
    · exact .columnsOf (spells_iff.2 rfl)
  · refine List.forall₂_map_right_iff.2 (List.forall₂_same.2 fun o _ => ?_)
    exact ⟨rfl, spells_iff.2 rfl, rfl, rfl⟩

/-- A source of a layout is that of a dimension or of an output variable. -/
theorem mem_sources {source : String} :
    source ∈ l.sources ↔
      (∃ d ∈ l.dimensions, d.extent = .columnsOf source) ∨ ∃ o ∈ l.outputs, o.source = source := by
  have hextent : ∀ extent : Extent, (match extent with
      | .fixed _ => none
      | .columnsOf source => some source) = some source ↔ extent = .columnsOf source := by
    intro extent
    cases extent <;> simp
  simp only [sources, List.mem_append, List.mem_filterMap, List.mem_map, hextent]

/-- A coherent layout is checked once its sources spell variables of the export. -/
theorem checked_bound_iff (h : w.Coherent) :
    w.bound.Checked e ↔ ∀ source ∈ w.sources, ∃ name ∈ e.vars.keys, Spells source name := by
  have hnames : w.bound.dimensions.map DimensionSpec.name = w.dimensions.map DimensionSpec.name :=
    List.map_map
  constructor
  · intro hchecked source hsource
    refine ⟨sourceName source, ?_, spells_iff.2 rfl⟩
    rcases mem_sources.1 hsource with ⟨d, hd, hextent⟩ | ⟨o, ho, rfl⟩
    · refine hchecked.dimensionSources d.bound (List.mem_map_of_mem hd) _ ?_
      rw [DimensionSpec.bound, hextent, Extent.bound]
    · exact hchecked.sources o.bound (List.mem_map_of_mem ho)
  · intro hspelled
    have hkey : ∀ source ∈ w.sources, sourceName source ∈ e.vars.keys := by
      intro source hsource
      obtain ⟨name, hname, hspells⟩ := hspelled source hsource
      rwa [spells_iff.1 hspells]
    -- Names, dimensions and the location are those of the layout before its sources were bound.
    have hall (P : OutputVariable → Prop) (hP : ∀ o ∈ w.outputs, P o.bound) :
        ∀ o ∈ w.bound.outputs, P o := List.forall_mem_map.2 hP
    refine ⟨?_, ?_, ?_, hall _ ?_, hall _ h.location, hall _ ?_⟩
    · rw [hnames]
      exact h.dimensionNames
    · intro d' hd' source hextent
      obtain ⟨⟨name, size | written⟩, hd, rfl⟩ := List.mem_map.1 hd'
      · contradiction
      · obtain rfl := Extent.columnsOf.inj hextent
        exact hkey written (mem_sources.2 (.inl ⟨_, hd, rfl⟩))
    · have houtputs : w.bound.outputs.map OutputVariable.name = w.outputs.map OutputVariable.name :=
        List.map_map
      rw [houtputs]
      exact h.outputNames
    · exact fun o ho => hkey o.source (mem_sources.2 (.inr ⟨o, ho, rfl⟩))
    · rw [hnames]
      exact h.declared

/-- **A source reaches the variable that it spells.** A section that is right apart from its sources
is read exactly if every source spells a variable of the export, and then every output variable and
every dimension is bound to the variable that its source spells. -/
theorem read_iff_spelled (hstated : w.StatedBy s c.value) (hcoherent : w.Coherent) :
    ((∃ l, (ofConfig c e s).outcome = .ok l) ↔
        ∀ source ∈ w.sources, ∃ name ∈ e.vars.keys, Spells source name) ∧
      ∀ l, (ofConfig c e s).outcome = .ok l → w.BoundTo l := by
  -- A section states one layout, so whatever is read is this one with its sources bound.
  have hbound : ∀ l, (ofConfig c e s).outcome = .ok l → l = w.bound ∧ l.Checked e := by
    intro l hl
    obtain ⟨⟨w', hw', rfl⟩, hchecked⟩ := ofConfig_eq_ok_iff.1 hl
    obtain rfl := hw'.unique hstated
    exact ⟨rfl, hchecked⟩
  refine ⟨?_, ?_⟩
  · rw [← checked_bound_iff hcoherent]
    constructor
    · rintro ⟨l, hl⟩
      obtain ⟨rfl, hchecked⟩ := hbound l hl
      exact hchecked
    · intro hchecked
      exact ⟨w.bound, ofConfig_eq_ok_iff.2 ⟨⟨w, hstated, rfl⟩, hchecked⟩⟩
  · intro l hl
    obtain ⟨rfl, -⟩ := hbound l hl
    exact boundTo_bound w

/-- An export with an amount of cloud and with radiances. -/
def soundings : Export :=
  ⟨⟨[("cloud", .candidates ⟨["CLAM"], [], by simp⟩), ("radiance", .candidates ⟨["TMBR"], [], by simp⟩)],
    by decide⟩, .empty, [], by simp⟩

/-- A section with both spellings, one of them for a dimension as well. -/
def bothSpellings : Tree := .map [
  ("dimensions", .list [.map [("name", .string "Channel"), ("source", .string "radiance")]]),
  ("variables", .list [
    .map [("name", .string "amount"), ("source", .string "variables/cloud")],
    .map [("dimensions", .list [.string "Location", .string "Channel"]),
      ("name", .string "temperature"), ("source", .string "radiance")]])]

/-- What `bothSpellings` states. -/
def bothSpelled : Layout :=
  ⟨"Location", [⟨"Channel", .columnsOf "radiance"⟩],
    [⟨"amount", "variables/cloud", ["Location"], .none⟩,
      ⟨"temperature", "radiance", ["Location", "Channel"], .none⟩]⟩

/-- Both spellings are read, and bound to the variables of `soundings`. -/
theorem read_iff_spelled_soundings :
    bothSpelled.StatedBy .standard bothSpellings ∧ bothSpelled.Coherent ∧
      ∃ l, (ofConfig ⟨"output", bothSpellings⟩ soundings .standard).outcome = .ok l ∧
        bothSpelled.BoundTo l := by
  have hstated : bothSpelled.StatedBy .standard bothSpellings := by
    refine ⟨⟨none, rfl, rfl⟩, ⟨some _, rfl, .cons (.columnsOf rfl rfl rfl) .nil⟩, _, rfl,
      .cons ?_ (.cons ?_ .nil)⟩
    · exact ⟨rfl, rfl, ⟨none, rfl, rfl⟩, ⟨none, .absent rfl, rfl⟩, .absent rfl, rfl, rfl, rfl⟩
    · exact ⟨rfl, rfl, ⟨some _, rfl, rfl⟩, ⟨none, .absent rfl, rfl⟩, .absent rfl, rfl, rfl, rfl⟩
  have hcoherent : bothSpelled.Coherent := by
    refine ⟨by decide, by decide, ?_, ?_⟩
    · simp [bothSpelled]
    · simp [bothSpelled]
  have hcloud : Spells "variables/cloud" "cloud" := .prefixed "cloud"
  have hradiance : Spells "radiance" "radiance" := .bare (by decide)
  have hspelled : ∀ source ∈ bothSpelled.sources,
      ∃ name ∈ soundings.vars.keys, Spells source name := by
    intro source hsource
    have hsources : source = "radiance" ∨ source = "variables/cloud" ∨ source = "radiance" := by
      simpa [sources, bothSpelled] using hsource
    rcases hsources with rfl | rfl | rfl
    · exact ⟨"radiance", by simp [soundings, Dict.keys], hradiance⟩
    · exact ⟨"cloud", by simp [soundings, Dict.keys], hcloud⟩
    · exact ⟨"radiance", by simp [soundings, Dict.keys], hradiance⟩
  obtain ⟨hread, hbound⟩ := read_iff_spelled (e := soundings) (c := ⟨"output", bothSpellings⟩)
    hstated hcoherent
  obtain ⟨l, hl⟩ := hread.2 hspelled
  exact ⟨hstated, hcoherent, l, hl, hbound l hl⟩

/-- An export whose one variable has a name that begins with the prefix. -/
def prefixed : Export :=
  ⟨⟨[("variables/cloud", .candidates ⟨["CLAM"], [], by simp⟩)], by simp⟩, .empty, [], by simp⟩

/-- A section with the name of this variable as its source. -/
def prefixedSource : Tree := .map [("variables", .list [
  .map [("name", .string "amount"), ("source", .string "variables/cloud")]])]

/-- The name of the variable is taken for a spelling of another one, and the section is refused. -/
theorem name_refused_prefixed :
    "variables/cloud" ∈ prefixed.vars.keys ∧
      (ofConfig ⟨"output", prefixedSource⟩ prefixed .standard).outcome =
        .error (.missingConfig "output::variables[0]::source -> export::variables::cloud") := by
  refine ⟨?_, rfl⟩
  simp [prefixed, Dict.keys]

end Layout

end ObsExport
