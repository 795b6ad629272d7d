import ObsExport.Pipeline
import ObsExport.Proofs.Config.Blocks
import ObsExport.Proofs.Config.OutputGrammar
import ObsExport.Proofs.Timestamp.Grammar

/-!
# What a loaded pipeline can rely on

Reading a pipeline checks references and names. A layout that was read refers to variables of its
export only, uses declared dimensions only, beginning with the location dimension, and gives no name
twice (`Layout.Checked`). An export that was read shifts no timestamp by more than a day
(`Export.WithinDay`).

`Pipeline.ofTree_eq_ok_iff` takes the reading of a document apart, and `Pipeline.loaded_of_ofTree`
says both of every pipeline that was read.
-/

namespace ObsExport

/-! ### Exports -/

/-- A timestamp is shifted by a day at most; no other variable is shifted. -/
def Variable.WithinDay : Variable → Prop
  | .candidates _ => True
  | .timestamp t => t.hoursFromUtc.natAbs ≤ 24

/-- A variable that is read shifts its times by no more than a day. -/
theorem Variable.withinDay_of_ofConfig {c : Cursor} {v : Variable}
    (h : (ofConfig c).outcome = .ok v) : v.WithinDay := by
  obtain ⟨-, ⟨block, t, -, -, ht, rfl⟩ | ⟨cs, -, -, rfl⟩⟩ := ofConfig_eq_ok_iff.1 h
  · obtain ⟨-, -, hoptions⟩ := Timestamp.ofConfig_eq_ok_iff.1 ht
    exact hoptions.withinDay
  · trivial

namespace Export

/-- Every timestamp of an export is shifted by a day at most. -/
def WithinDay (e : Export) : Prop := ∀ v ∈ e.vars.entries, v.2.WithinDay

/-- Entries that were collected are those that were given. -/
theorem mem_of_unique {α : Type} {family : NameFamily} {entries : List (String × α)}
    {d : Dict String α} (h : unique family entries = .ok d) {v : String × α}
    (hv : v ∈ d.entries) : v ∈ entries := by
  -- Whatever was collected so far was given, and an insertion adds the entry at hand.
  refine foldlM_invariant (P := fun d : Dict String α => ∀ v ∈ d.entries, v ∈ entries)
    (by simp [Dict.empty]) ?_ h v hv
  intro d entry hentry d' hd hinsert v hv
  split at hinsert
  next => contradiction
  next =>
    obtain rfl := Except.ok.inj hinsert
    have hfind := Dict.mem_entries_iff.1 hv
    rw [Dict.find?_insert] at hfind
    split at hfind
    next heq =>
      obtain rfl : v = entry := Prod.ext heq (Option.some.inj hfind).symm
      exact hentry
    next => exact hd v (Dict.mem_entries_iff.2 hfind)

/-- So do all variables of an export that is read. -/
theorem withinDay_of_ofConfig {c : Cursor} {e : Export} (h : (ofConfig c).outcome = .ok e) :
    e.WithinDay := by
  obtain ⟨-, filters, splits, entries, vars, -, -, -, hvars, hmake⟩ := ofConfig_eq_ok_iff.1 h
  obtain ⟨unique, hunique, hmake⟩ := bind_eq_ok_iff.1 hmake
  -- Clashes are looked for afterwards, and the variables stay those that were collected.
  have hresult : e.vars = unique := by
    split at hmake
    next => contradiction
    next =>
      obtain ⟨splits', -, hmake⟩ := bind_eq_ok_iff.1 hmake
      rw [← Except.ok.inj hmake]
  intro v hv
  rw [hresult] at hv
  -- Every variable of the export was read from an entry of the map of variables.
  simp only [readEntries, Logged.outcome_mapM, Logged.outcome_bind, Logged.outcome_pure] at hvars
  obtain ⟨entry, -, hentry⟩ := exists_of_mem_mapM hvars (mem_of_unique hunique hv)
  obtain ⟨var, hvar, heq⟩ := bind_eq_ok_iff.1 hentry
  obtain rfl := Except.ok.inj heq
  exact Variable.withinDay_of_ofConfig hvar

end Export

/-! ### Pipelines -/

namespace Pipeline

variable {t : Tree} {p : Pipeline}

/-- A pipeline is read from a document exactly if its settings are read and accepted, and its export
and its layout are read from the parts of the document, the layout after the export. -/
theorem ofTree_eq_ok_iff : (ofTree t).outcome = .ok p ↔
    Section.document.Accepts t ∧ settingsOfConfig ⟨"", t⟩ = .ok p.settings ∧
      p.settings.check = .ok () ∧
      (∃ part, t.get? "export" = some part ∧
        (Export.ofConfig ⟨"export", part⟩).outcome = .ok p.exported) ∧
      ∃ part, t.get? "output" = some part ∧
        (Layout.ofConfig ⟨"output", part⟩ p.exported p.settings).outcome = .ok p.layout := by
  have hpath (key : String) : Cursor.pathOf ⟨"", t⟩ key = key := rfl
  unfold ofTree
  rw [Cursor.check_bind_eq_ok_iff]
  simp only [Logged.outcome_bind, Logged.outcome_monadLift, Logged.outcome_pure, bind_eq_ok_iff,
    Cursor.child_eq_ok_iff, hpath]
  -- Both directions go through the stages in the order in which a document is read.
  refine and_congr_right fun _ => ⟨?_, ?_⟩
  · rintro ⟨settings, hsettings, _, hcheck, _, ⟨exportPart, hexport, rfl⟩, exported, hexported, _,
      ⟨outputPart, houtput, rfl⟩, layout, hlayout, -, -, h⟩
    obtain rfl := Except.ok.inj h
    exact ⟨hsettings, hcheck, ⟨exportPart, hexport, hexported⟩, outputPart, houtput, hlayout⟩
  · rintro ⟨hsettings, hcheck, ⟨exportPart, hexport, hexported⟩, outputPart, houtput, hlayout⟩
    exact ⟨_, hsettings, (), hcheck, _, ⟨exportPart, hexport, rfl⟩, _, hexported, _,
      ⟨outputPart, houtput, rfl⟩, _, hlayout, (), rfl, rfl⟩

/-- A pipeline that was read has a layout that is checked against its export, and shifts no
timestamp by more than a day. -/
theorem loaded_of_ofTree (h : (ofTree t).outcome = .ok p) :
    p.layout.Checked p.exported ∧ p.exported.WithinDay := by
  obtain ⟨-, -, -, ⟨_, -, hexported⟩, _, -, hlayout⟩ := ofTree_eq_ok_iff.1 h
  exact ⟨(Layout.ofConfig_eq_ok_iff.1 hlayout).2, Export.withinDay_of_ofConfig hexported⟩

end Pipeline

end ObsExport
