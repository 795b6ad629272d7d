import ObsExport.Proofs.Config.Blocks
import ObsExport.Proofs.Config.Pruning

/-!
# Null under a known key

Null under a key counts as no such key, so pruning the tree that an export is read from should not
matter, and reader by reader it does not: filters, splits and timestamps are read alike from the
pruned tree, as are the variables and the section that are made of them.

Two readers look past the look-ups. The root is taken for a document if it has the key `export`,
whatever that holds, and a transform must be the only key of its block, whatever the others hold. An
export is read exactly if neither of the two meets a null and the same export is read from what is
left by pruning (`Export.read_iff_read_pruned`).
-/

namespace ObsExport

variable {c : Cursor}

/-- Timestamps are read alike without the nulls in their block. -/
theorem Timestamp.ofConfig_prune :
    (Timestamp.ofConfig (c.prune .ofBlock)).outcome = (Timestamp.ofConfig c).outcome := by
  have hsource : sourceOfConfig (c.prune .ofBlock) = sourceOfConfig c := by
    simp only [sourceOfConfig, Cursor.get?_prune_ofBlock, Cursor.has_prune_ofBlock,
      Cursor.string_prune_ofBlock, Cursor.string?, Cursor.optional_prune_ofBlock, Cursor.path_prune]
  have hhours : hoursOfConfig (c.prune .ofBlock) = hoursOfConfig c := by
    simp [hoursOfConfig, Cursor.integerOrDefault]
  simp [ofConfig, hsource, hhours]

/-- Categories are read alike without the nulls in their block. -/
theorem Split.ofCategory_prune :
    (Split.ofCategory (c.prune .ofBlock)).outcome = (Split.ofCategory c).outcome := by
  simp [ofCategory]

/-! ### Filters, splits and variables -/

/-- A filter is read alike; without bounds it is refused, if with another message. -/
theorem Filter.ofConfig_prune {f : Filter} :
    (Filter.ofConfig (c.prune .ofFilter)).outcome = .ok f ↔
      (Filter.ofConfig c).outcome = .ok f := by
  -- The block of the bounds is pruned where it stands, one key further down.
  have hbounding : (c.prune .ofFilter).get? "bounding" =
      (c.get? "bounding").map (Cursor.prune .ofBlock) := Cursor.get?_prune
  unfold ofConfig
  rw [hbounding]
  cases c.get? "bounding" with
  | none => simp
  | some block => simp [Cursor.float?]

/-- Splits are read alike without the nulls in their blocks. -/
theorem Split.ofConfig_prune {s : Split} :
    (Split.ofConfig (c.prune .ofSplit)).outcome = .ok s ↔
      (Split.ofConfig c).outcome = .ok s := by
  have hcategory : (c.prune .ofSplit).get? "category" =
      (c.get? "category").map (Cursor.prune .ofBlock) := Cursor.get?_prune
  unfold ofConfig
  rw [hcategory]
  cases c.get? "category" with
  | none => simp
  | some block => rw [Option.map_some, ofCategory_prune]

/-- A transform is the only key of its block, so a block that was read holds no null. -/
theorem Transform.nullFree_of_ofConfig {x : Transform} (h : Transform.ofConfig c = .ok x) :
    c.value.NullFree := by
  unfold ofConfig at h
  split at h
  next only honly =>
    obtain ⟨v, hvalue⟩ := Cursor.value_eq_of_keys honly
    obtain ⟨key, d, hd⟩ : ∃ key d, c.get? key = some d := by
      split at h
      next hscale => exact ⟨_, _, hscale⟩
      next hoffset => exact ⟨_, _, hoffset⟩
      next => contradiction
    -- What was found under one of the two kinds is the only value there is.
    obtain ⟨w, hw, -⟩ := Cursor.get?_eq_some_iff.1 hd
    obtain ⟨hfind, hnull⟩ := Tree.get?_eq_some_iff.1 hw
    rw [hvalue] at hfind ⊢
    obtain ⟨rfl, rfl⟩ := Tree.find?_single.1 hfind
    intro known _
    cases hknown : (Tree.map [(key, v)]).find? known with
    | none => rfl
    | some u =>
      obtain ⟨-, rfl⟩ := Tree.find?_single.1 hknown
      rwa [Option.any_some]
  next => contradiction

/-- A transform is read alike from a block without nulls, and from no other. -/
theorem Transform.ofConfig_prune {x : Transform} :
    Transform.ofConfig c = .ok x ↔
      c.value.NullFree ∧ Transform.ofConfig (c.prune .ofBlock) = .ok x := by
  have hsame (hfree : c.value.NullFree) : c.prune .ofBlock = c := by
    rw [Cursor.prune, Tree.ofBlock_of_nullFree hfree]
  constructor
  · intro h
    have hfree := nullFree_of_ofConfig h
    exact ⟨hfree, (hsame hfree).symm ▸ h⟩
  · rintro ⟨hfree, h⟩
    exact hsame hfree ▸ h

/-- The blocks of the transforms that stand in a variable block. -/
def Tree.transformBlocks (variableBlock : Tree) : List Tree :=
  ((variableBlock.get? "transforms").bind items?).getD []

/-- The blocks of the transforms that are read for a variable; a timestamp has none. -/
def Tree.stepBlocks (variableBlock : Tree) : List Tree :=
  if (variableBlock.get? "datetime").isSome then [] else variableBlock.transformBlocks

/-- The blocks of the transforms that are read in the section of an export. -/
def Tree.steps (t : Tree) : List Tree :=
  (((t.get? "variables").bind entries?).getD []).flatMap fun e => e.2.stepBlocks

/-- A chain of transforms is read if it is read without nulls and its steps have none: a step counts
all of its keys. -/
theorem Transform.chainOfConfig_prune {chain : List Transform} :
    Transform.chainOfConfig c = .ok chain ↔
      (∀ step ∈ c.value.transformBlocks, step.NullFree) ∧
        Transform.chainOfConfig (c.prune .ofVariable) = .ok chain := by
  have htransforms : (c.prune .ofVariable).get? "transforms" =
      (c.get? "transforms").map (Cursor.prune Pruning.ofBlock.items) := Cursor.get?_prune
  unfold chainOfConfig Tree.transformBlocks
  rw [htransforms]
  cases hlist : c.get? "transforms" with
  | none => simp [Cursor.get?_eq_none_iff.1 hlist]
  | some list =>
    obtain ⟨v, hv, rfl⟩ := Cursor.get?_eq_some_iff.1 hlist
    simp only [Option.map_some, Cursor.items_prune, hv, Option.bind_some]
    cases hitems : (⟨c.pathOf "transforms", v⟩ : Cursor).items with
    | error e => simp [Except.map]
    | ok items =>
      obtain rfl : v = .list (items.map Cursor.value) := Cursor.items_eq_ok hitems
      simp only [Except.map, Tree.items?, Option.getD_some, List.forall_mem_map, ok_bind]
      -- The items stay where they were, so each is read at its own path.
      exact mapM_eq_ok_iff_map fun _ _ => ofConfig_prune

/-- A variable that is read from fields sees nulls in the steps of its transforms and nowhere else.
-/
theorem Candidates.ofConfig_prune {candidates : Candidates} :
    Candidates.ofConfig c = .ok candidates ↔
      (∀ step ∈ c.value.transformBlocks, step.NullFree) ∧
        Candidates.ofConfig (c.prune .ofVariable) = .ok candidates := by
  have hmnemonic : (c.prune .ofVariable).child "mnemonic" = c.child "mnemonic" := by
    rw [Cursor.child, Pruning.ofVariable, Cursor.get?_prune_idle rfl, Cursor.child,
      Cursor.pathOf_prune]
  rw [ofConfig_eq_ok_iff, ofConfig_eq_ok_iff, hmnemonic, Transform.chainOfConfig_prune,
    and_left_comm]

/-- So does a variable, whichever way its values are found. -/
theorem Variable.ofConfig_prune {v : Variable} :
    (Variable.ofConfig c).outcome = .ok v ↔
      (∀ step ∈ c.value.stepBlocks, step.NullFree) ∧
        (Variable.ofConfig (c.prune .ofVariable)).outcome = .ok v := by
  have hdatetime : (c.prune .ofVariable).get? "datetime" =
      (c.get? "datetime").map (Cursor.prune .ofBlock) := Cursor.get?_prune
  have haccepts : Section.exportVariable.Accepts (c.prune .ofVariable).value ↔
      Section.exportVariable.Accepts c.value := Section.accepts_prune
  have hmnemonic : (c.prune .ofVariable).has "mnemonic" = c.has "mnemonic" := Cursor.has_prune
  rw [ofConfig_eq_ok_iff, ofConfig_eq_ok_iff, haccepts, hdatetime, hmnemonic]
  cases hblock : c.get? "datetime" with
  | some block =>
    -- The transforms beside a timestamp are not read, whatever they hold.
    have hnone : c.value.stepBlocks = [] := by
      obtain ⟨w, hw, -⟩ := Cursor.get?_eq_some_iff.1 hblock
      simp [Tree.stepBlocks, hw]
    simp [hnone, Timestamp.ofConfig_prune]
  | none =>
    have hsteps : c.value.stepBlocks = c.value.transformBlocks := by
      simp [Tree.stepBlocks, Cursor.get?_eq_none_iff.1 hblock]
    have hread : ∀ cs, Candidates.ofConfig c = .ok cs ↔
        (∀ step ∈ c.value.transformBlocks, step.NullFree) ∧
          Candidates.ofConfig (c.prune .ofVariable) = .ok cs := fun _ => Candidates.ofConfig_prune
    simp only [hsteps, Option.map_none, reduceCtorEq, false_and, exists_false, false_or, true_and,
      hread, and_assoc, exists_and_left]
    exact and_left_comm

namespace Export

/-! ### Sections and documents -/

/-- Pruning the items of a list leaves as many of them. -/
theorem nonEmptyItems_prune {p : Pruning} :
    nonEmptyItems (c.prune p.items) = (nonEmptyItems c).map (List.map (Cursor.prune p)) := by
  unfold nonEmptyItems
  rw [Cursor.items_prune]
  cases c.items with
  | error e => rfl
  | ok items => cases items <;> rfl

/-- Pruning the values of a map leaves its keys as they are. -/
theorem nonEmptyEntries_prune {p : Pruning} :
    nonEmptyEntries (c.prune p.values) =
      (nonEmptyEntries c).map (List.map fun e => (e.1, e.2.prune p)) := by
  unfold nonEmptyEntries
  rw [Cursor.entries_prune]
  cases c.entries with
  | error e => rfl
  | ok entries => cases entries <;> rfl

/-- A map whose values are read alike under a condition is read alike if all values meet the
condition. -/
theorem readEntries_prune {α : Type} {read : Cursor → Logged α} {p : Pruning} {P : Cursor → Prop}
    {entries : List (String × Cursor)} {out : List (String × α)}
    (h : ∀ d a, (read d).outcome = .ok a ↔ P d ∧ (read (d.prune p)).outcome = .ok a) :
    (readEntries read entries).outcome = .ok out ↔
      (∀ e ∈ entries, P e.2) ∧
        (readEntries read (entries.map fun e => (e.1, e.2.prune p))).outcome = .ok out := by
  simp only [readEntries, Logged.outcome_mapM, Logged.outcome_bind, Logged.outcome_pure]
  refine mapM_eq_ok_iff_map fun e a => ?_
  -- The key is not read, so the condition is about the value.
  have hvalue := h e.2
  simp only [bind_eq_ok_iff, hvalue, and_assoc, exists_and_left]

/-- The filters of an export are read alike without nulls. -/
theorem filtersOfConfig_prune {filters : List Filter} :
    (filtersOfConfig (c.prune .ofExport)).outcome = .ok filters ↔
      (filtersOfConfig c).outcome = .ok filters := by
  have hfilters : (c.prune .ofExport).get? "filters" =
      (c.get? "filters").map (Cursor.prune Pruning.ofFilter.items) := Cursor.get?_prune
  unfold filtersOfConfig
  rw [hfilters]
  cases c.get? "filters" with
  | none => rfl
  | some list =>
    simp only [Option.map_some, nonEmptyItems_prune, Logged.outcome_bind, Logged.outcome_monadLift,
      Logged.outcome_mapM]
    cases nonEmptyItems list with
    | error e => rfl
    | ok items =>
      have hread : ∀ d f, (Filter.ofConfig d).outcome = .ok f ↔
          True ∧ (Filter.ofConfig (d.prune .ofFilter)).outcome = .ok f := by
        intro d f
        rw [Filter.ofConfig_prune, true_and]
      rw [ok_bind, mapM_eq_ok_iff_map hread]
      simp [Except.map]

/-- The splits of an export are read alike without nulls. -/
theorem splitsOfConfig_prune {splits : List (String × Split)} :
    (splitsOfConfig (c.prune .ofExport)).outcome = .ok splits ↔
      (splitsOfConfig c).outcome = .ok splits := by
  have hsplits : (c.prune .ofExport).get? "splits" =
      (c.get? "splits").map (Cursor.prune Pruning.ofSplit.values) := Cursor.get?_prune
  unfold splitsOfConfig
  rw [hsplits]
  cases c.get? "splits" with
  | none => rfl
  | some map =>
    simp only [Option.map_some, nonEmptyEntries_prune, Logged.outcome_bind,
      Logged.outcome_monadLift]
    cases nonEmptyEntries map with
    | error e => rfl
    | ok entries =>
      have hread : ∀ d s, (Split.ofConfig d).outcome = .ok s ↔
          True ∧ (Split.ofConfig (d.prune .ofSplit)).outcome = .ok s := by
        intro d s
        rw [Split.ofConfig_prune, true_and]
      rw [ok_bind, readEntries_prune hread]
      simp [Except.map]

/-- The transforms of a section stand in the blocks of its variables. -/
theorem forall_mem_steps {entries : List (String × Cursor)} {P : Tree → Prop}
    (h : (c.child "variables" >>= nonEmptyEntries) = .ok entries) :
    (∀ step ∈ c.value.steps, P step) ↔ ∀ e ∈ entries, ∀ step ∈ e.2.value.stepBlocks, P step := by
  obtain ⟨map, hmap, hentries⟩ := bind_eq_ok_iff.1 h
  obtain ⟨v, hv, rfl⟩ := Cursor.child_eq_ok_iff.1 hmap
  -- The variables are a map, and its values are what is read.
  obtain rfl : v = .map (entries.map fun e => (e.1, e.2.value)) := by
    obtain ⟨entries', hentries', hsome⟩ := bind_eq_ok_iff.1 hentries
    split at hsome
    next => contradiction
    next => exact Except.ok.inj hsome ▸ Cursor.entries_eq_ok hentries'
  simp only [Tree.steps, hv, Option.bind_some, Tree.entries?, Option.getD_some, List.mem_flatMap,
    List.mem_map]
  constructor
  · exact fun hall e he step hstep => hall step ⟨_, ⟨e, he, rfl⟩, hstep⟩
  · rintro hall step ⟨_, ⟨e, he, rfl⟩, hstep⟩
    exact hall e he step hstep

/-- A section is read if no transform meets a null and the pruned section is read. -/
theorem ofConfig_prune {e : Export} :
    (ofConfig c).outcome = .ok e ↔
      (∀ step ∈ c.value.steps, step.NullFree) ∧ (ofConfig (c.prune .ofExport)).outcome = .ok e := by
  have haccepts : Section.exports.Accepts (c.prune .ofExport).value ↔
      Section.exports.Accepts c.value := Section.accepts_prune
  have hvars : ((c.prune .ofExport).child "variables" >>= nonEmptyEntries) =
      (c.child "variables" >>= nonEmptyEntries).map
        (List.map fun e => (e.1, e.2.prune .ofVariable)) := by
    have hget : (c.prune .ofExport).get? "variables" =
        (c.get? "variables").map (Cursor.prune Pruning.ofVariable.values) := Cursor.get?_prune
    unfold Cursor.child
    rw [hget]
    cases c.get? "variables" with
    | none => rfl
    | some map => exact nonEmptyEntries_prune
  rw [ofConfig_eq_ok_iff, ofConfig_eq_ok_iff, haccepts, hvars]
  cases hentries : c.child "variables" >>= nonEmptyEntries with
  | error e => simp [Except.map]
  | ok entries =>
    have hread : ∀ d v, (Variable.ofConfig d).outcome = .ok v ↔
        (∀ step ∈ d.value.stepBlocks, step.NullFree) ∧
          (Variable.ofConfig (d.prune .ofVariable)).outcome = .ok v :=
      fun _ _ => Variable.ofConfig_prune
    -- Only variables have transforms, so filters and splits ask for nothing.
    rw [forall_mem_steps hentries]
    simp only [filtersOfConfig_prune, splitsOfConfig_prune, Except.map, Except.ok.injEq]
    constructor
    · rintro ⟨hmap, filters, splits, _, vars, hfilters, hsplits, rfl, hvars, hmake⟩
      obtain ⟨hfree, hpruned⟩ := (readEntries_prune hread).1 hvars
      exact ⟨hfree, hmap, filters, splits, _, vars, hfilters, hsplits, rfl, hpruned, hmake⟩
    · rintro ⟨hfree, hmap, filters, splits, _, vars, hfilters, hsplits, rfl, hpruned, hmake⟩
      exact ⟨hmap, filters, splits, entries, vars, hfilters, hsplits, rfl,
        (readEntries_prune hread).2 ⟨hfree, hpruned⟩, hmake⟩

/-- Where the section of an export stands after pruning. -/
theorem section_pruned {t : Tree} (h : t.holdsNull "export" = false) :
    (t.pruned.find? "export").getD t.pruned = Pruning.ofExport ((t.find? "export").getD t) := by
  unfold Tree.pruned
  cases hfind : t.find? "export" with
  | none =>
    -- The tree is the section, and pruning adds no key to it.
    have hnone : t.get? "export" = none := by rw [Tree.get?, hfind, Option.filter_none]
    have hpruned : (Pruning.ofExport t).find? "export" = none := by
      rw [Pruning.ofExport, Pruning.ofParts, Tree.find?_mapKept, h, hfind]
      rfl
    simp only [hnone, hpruned, Option.getD_none]
  | some v =>
    have hv : v.isNull = false := by
      have hknown : "export" ∈ Tree.knownKeys := by decide
      simpa [Tree.holdsNull, hfind, hknown] using h
    have hget : t.get? "export" = some v := Tree.get?_eq_some_iff.2 ⟨hfind, hv⟩
    have hpruned : (Pruning.ofParts [("export", .ofExport)] t).find? "export" =
        some (Pruning.ofExport v) := by
      rw [Pruning.ofParts, Tree.find?_mapKept, h, hfind]
      rfl
    simp only [hget, hpruned, Option.getD_some]

/-- No section is read from null. -/
theorem not_holdsNull_of_ofTree {t : Tree} {e : Export} (h : (ofTree t).outcome = .ok e) :
    t.holdsNull "export" = false := by
  cases hfind : t.find? "export" with
  | none => simp [Tree.holdsNull, hfind]
  | some v =>
    rw [ofTree, hfind, Option.getD_some] at h
    obtain ⟨⟨hmap, -⟩, -⟩ := ofConfig_eq_ok_iff.1 h
    cases v with
    | null => contradiction
    | _ => simp [Tree.holdsNull, hfind, Tree.isNull]

/-- **Null counts as absence, but for the key of the section and for transforms.** An export is read
from a tree exactly if the tree has no null for the section, no transform that is read has a null
beside it, and the same export is read once every known key that holds null is deleted. -/
theorem read_iff_read_pruned {t : Tree} {e : Export} :
    (ofTree t).outcome = .ok e ↔
      t.holdsNull "export" = false ∧ (∀ step ∈ ((t.find? "export").getD t).steps, step.NullFree) ∧
        (ofTree t.pruned).outcome = .ok e := by
  have hsection (h : t.holdsNull "export" = false) : ofTree t.pruned =
      ofConfig ((⟨"export", (t.find? "export").getD t⟩ : Cursor).prune .ofExport) := by
    rw [ofTree, section_pruned h, Cursor.prune]
  constructor
  · intro h
    have hnull := not_holdsNull_of_ofTree h
    rw [hsection hnull]
    exact ⟨hnull, ofConfig_prune.1 h⟩
  · rintro ⟨hnull, hread⟩
    rw [hsection hnull] at hread
    exact ofConfig_prune.2 hread

/-- A variable whose transform has a null beside it. -/
def halfEmptyStep : Tree := .map [("variables", .map [("wind", .map [
  ("mnemonic", .string "WSPD"),
  ("transforms", .list [.map [("offset", .null), ("scale", .integer 2)]])])])]

/-- A section beside which the key of the section holds null. -/
def emptySection : Tree := .map [("export", .null), ("variables", .map [("wind", .map [
  ("mnemonic", .string "WSPD")])])]

/-- The export of one field. -/
def windOf (transforms : List Transform) : Export :=
  ⟨⟨[("wind", .candidates ⟨["WSPD"], transforms, by simp⟩)], by simp⟩, .empty, [], by simp⟩

/-- Both are refused, and read once their nulls are deleted. -/
theorem null_refused_halfEmptyStep :
    (ofTree halfEmptyStep).outcome = .error (.unknownKind .transform
        "export::variables::wind::transforms[0]"
        "expected exactly one transform key, found [offset, scale]") ∧
      (ofTree halfEmptyStep.pruned).outcome = .ok (windOf [.scale (Float.ofInt 2)]) ∧
      (ofTree emptySection).outcome = .error (.invalidConfig "export" .map) ∧
      (ofTree emptySection.pruned).outcome = .ok (windOf []) :=
  ⟨rfl, rfl, rfl, rfl⟩

end Export

end ObsExport
