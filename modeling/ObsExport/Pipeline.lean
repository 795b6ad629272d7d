import ObsExport.Encoder

/-!
# Pipelines

A pipeline document holds settings, an export and the layout of its output. Settings are optional
and are judged before anything else is read; the layout is read last, since it refers to the
export and takes the name of the location dimension from the settings unless it has its own.
-/

namespace ObsExport

/-- A complete pipeline. -/
structure Pipeline where
  settings : Settings
  exported : Export
  layout : Layout
deriving DecidableEq

namespace Pipeline

/-- The encoder of a pipeline. -/
def encoder (p : Pipeline) : Encoder := ⟨p.layout, p.settings⟩

/-- Encodes a batch into stores. -/
def encode (p : Pipeline) (data : FieldTable) : Logged (Dict String Store × Tally) :=
  p.encoder.encode p.exported data

/-- Reads the settings of a document, which may be left out. -/
def settingsOfConfig (root : Cursor) : Except Error Settings :=
  match root.get? "settings" with
  | some c => Settings.ofTree c.value
  | none => .ok .standard

/-- Reads a pipeline from the tree of a document. -/
def ofTree (t : Tree) : Logged Pipeline := do
  let root : Cursor := ⟨"", t⟩
  root.check .document
  let settings ← settingsOfConfig root
  -- Bad settings are reported before anything in the export or the output.
  settings.check
  let exported ← Export.ofConfig (← root.child "export")
  let layout ← Layout.ofConfig (← root.child "output") exported settings
  Logged.report (.pipelineLoaded layout.outputs.length)
  return ⟨settings, exported, layout⟩

/-- Reads a pipeline from the text of a document. -/
def ofText (text : String) : Logged Pipeline :=
  match Tree.parse? text with
  | some t => ofTree t
  | none => Logged.fail .configParse

/-- Reads a pipeline from a file, of which the text is given if it can be read. -/
def ofFile (path : String) : Option String → Logged Pipeline
  | some text => ofText text
  | none => Logged.fail (.io (.readConfiguration path))

end Pipeline

end ObsExport
