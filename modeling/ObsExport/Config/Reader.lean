import ObsExport.Config.Token

/-!
# Reading a document

A document is read token by token. What has been read so far is a `Progress`: what must come next,
and the lists and maps that are open, innermost first. `Progress.step` takes one token; a token
that may not come next ends the reading without an answer. `Tree.parse?` reads a whole text, which
must hold exactly one value.

Lists and maps nest at most 127 deep.
-/

namespace ObsExport

/-- A list or a map whose end has not been read, with the latest item first. -/
inductive Unclosed where
  | list (items : List Tree)
  /-- The entries before, and the key whose value comes next. -/
  | map (entries : List (String × Tree)) (key : String)

/-- What has been read, by what may come next. -/
inductive Progress where
  /-- A value. -/
  | value (around : List Unclosed)
  /-- The first item of a list, or its end. -/
  | firstItem (around : List Unclosed)
  /-- A comma or the end of a list. -/
  | moreItems (items : List Tree) (around : List Unclosed)
  /-- The first key of a map, or its end. -/
  | firstKey (around : List Unclosed)
  /-- A key. -/
  | key (entries : List (String × Tree)) (around : List Unclosed)
  /-- The colon behind a key. -/
  | colon (entries : List (String × Tree)) (key : String) (around : List Unclosed)
  /-- A comma or the end of a map. -/
  | moreEntries (entries : List (String × Tree)) (around : List Unclosed)
  /-- Nothing. -/
  | done (t : Tree)

namespace Progress

/-- How deep lists and maps may nest. -/
def maxDepth : Nat := 127

/-- Puts a finished value where it belongs. -/
def finish (t : Tree) : List Unclosed → Progress
  | [] => .done t
  | .list items :: around => .moreItems (t :: items) around
  | .map entries k :: around => .moreEntries ((k, t) :: entries) around

/-- Begins a value. -/
def start (around : List Unclosed) : Token → Option Progress
  | .scalar t => some (finish t around)
  | .string s => some (finish (.string s) around)
  | .openList => if around.length < maxDepth then some (.firstItem around) else none
  | .openMap => if around.length < maxDepth then some (.firstKey around) else none
  | _ => none

/-- Takes one token. -/
def step : Progress → Token → Option Progress
  | .value around, token => start around token
  | .firstItem around, .closeList => some (finish (.list []) around)
  -- Anything but the end is the first item, which is not counted as a level by itself.
  | .firstItem around, token => start (.list [] :: around) token
  | .moreItems items around, .comma => some (.value (.list items :: around))
  | .moreItems items around, .closeList => some (finish (.list items.reverse) around)
  | .firstKey around, .closeMap => some (finish (.map []) around)
  | .firstKey around, .string s => some (.colon [] s around)
  | .key entries around, .string s => some (.colon entries s around)
  | .colon entries k around, .colon => some (.value (.map entries k :: around))
  | .moreEntries entries around, .comma => some (.key entries around)
  | .moreEntries entries around, .closeMap =>
    some (finish (Tree.ofEntries entries.reverse) around)
  | _, _ => none

/-- The value, if reading may end here. -/
def result? : Progress → Option Tree
  | .done t => some t
  | _ => none

end Progress

/-- Reads a text that holds one value and nothing else. -/
def Tree.parse? (text : String) : Option Tree := do
  let tokens ← Token.scan? text
  let progress ← tokens.foldlM Progress.step (.value [])
  progress.result?

end ObsExport
