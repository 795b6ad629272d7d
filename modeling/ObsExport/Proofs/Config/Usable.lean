import ObsExport.Proofs.Config.Loaded

/-!
# Documents that are accepted

A pipeline can be used if its settings were accepted, its layout is checked against its export and
its location dimension has a name (`Pipeline.Usable`). The encoder looks at none of this again, so
all of it must hold once a document is accepted.

The location dimension can be named in two places. In the settings a blank name is refused; the
output section may name it otherwise, and nothing is asked of that name. So a document that is
accepted yields a usable pipeline exactly if its output section does not state a blank name
(`Pipeline.usable_iff_unblanked`).
-/

namespace ObsExport

/-- The name that the output section of a document gives to the location dimension. -/
def Tree.ownLocation? (t : Tree) : Option String := do
  (← (← t.get? "output").get? "locationDimension").asString?

namespace Pipeline

variable {t : Tree} {p : Pipeline}

/-- A pipeline with acceptable settings, a name for the location dimension and a checked layout. -/
structure Usable (p : Pipeline) : Prop where
  settings : p.settings.check = .ok ()
  location : Text.isBlank p.layout.locationDimension = false
  layout : p.layout.Checked p.exported

/-- The output section names the location dimension, or else the settings do. -/
theorem location_of_ofTree (h : (ofTree t).outcome = .ok p) :
    p.layout.locationDimension = t.ownLocation?.getD p.settings.locationDimension := by
  obtain ⟨-, -, -, -, part, houtput, hlayout⟩ := ofTree_eq_ok_iff.1 h
  obtain ⟨⟨w, hw, hbound⟩, -⟩ := Layout.ofConfig_eq_ok_iff.1 hlayout
  obtain ⟨name, hname, hlocation⟩ := hw.location
  have hown : t.ownLocation? = name := by
    simp only [Tree.ownLocation?, houtput, Option.bind_eq_bind, Option.bind_some, hname]
    cases name <;> rfl
  rw [hown, ← hlocation, ← hbound]
  rfl

/-- **Accepted documents.** The settings of a document that is accepted pass their check, and its
layout is checked against its export. The location dimension has the name that the output section
states, or else that of the settings. The pipeline can be used exactly if the output section does
not state a blank name. -/
theorem usable_iff_unblanked (h : (ofTree t).outcome = .ok p) :
    p.settings.check = .ok () ∧ p.layout.Checked p.exported ∧
      p.layout.locationDimension = t.ownLocation?.getD p.settings.locationDimension ∧
      (p.Usable ↔ ∀ name, t.ownLocation? = some name → Text.isBlank name = false) := by
  have hlocation := location_of_ofTree h
  obtain ⟨hlayout, -⟩ := loaded_of_ofTree h
  obtain ⟨-, -, hcheck, -⟩ := ofTree_eq_ok_iff.1 h
  have hblank : Text.isBlank p.layout.locationDimension = false ↔
      ∀ name, t.ownLocation? = some name → Text.isBlank name = false := by
    rw [hlocation]
    cases t.ownLocation? with
    | some name => simp
    | none =>
      -- The name of the settings was looked at when they were accepted.
      obtain ⟨-, -, -, hnamed, -⟩ := Settings.check_eq_ok_iff.1 hcheck
      simpa using hnamed
  exact ⟨hcheck, hlayout, hlocation, fun hp => hblank.1 hp.location,
    fun hnamed => ⟨hcheck, hblank.2 hnamed, hlayout⟩⟩

/-- A document with one variable, and with a name for the location dimension. -/
def speedDocument (location : String) : Tree := .map [
  ("export", .map [("variables", .map [("wind", .map [("mnemonic", .string "WSPD")])])]),
  ("output", .map [("locationDimension", .string location),
    ("variables", .list [.map [("name", .string "speed"), ("source", .string "wind")]])])]

/-- What `speedDocument` is read as. -/
def speedPipeline (location : String) : Pipeline where
  settings := .standard
  exported :=
    ⟨⟨[("wind", .candidates ⟨["WSPD"], [], by decide⟩)], by decide⟩, .empty, [],
      List.cons_ne_nil _ _⟩
  layout := ⟨location, [], [⟨"speed", "wind", [location], .none⟩]⟩

/-- A document that names the location dimension is read, and what it is read as can be used. -/
theorem usable_iff_unblanked_station :
    (ofTree (speedDocument "Station")).outcome = .ok (speedPipeline "Station") ∧
      (speedPipeline "Station").Usable := by
  have hread : (ofTree (speedDocument "Station")).outcome = .ok (speedPipeline "Station") := rfl
  obtain ⟨-, -, -, husable⟩ := usable_iff_unblanked hread
  refine ⟨hread, husable.2 fun name hname => ?_⟩
  obtain rfl : "Station" = name := Option.some.inj hname
  rfl

/-- The output section may state what the settings may not. -/
theorem unusable_blank :
    (ofTree (speedDocument " ")).outcome = .ok (speedPipeline " ") ∧ ¬ (speedPipeline " ").Usable ∧
      Settings.check { Settings.standard with locationDimension := " " } =
        .error (.configuration .locationDimension) :=
  ⟨rfl, fun h => absurd h.location (by decide), rfl⟩

end Pipeline

end ObsExport
