import ObsExport.Proofs.Batch.Grouping
import Mathlib.Data.List.Pairwise

/-!
# When assembly fails

Assembling a field over a batch fails in three ways and in no other (`Ends`). A field may be
undeclared. The records may disagree on it: they hold it in different depths or kinds (`Varies`), or
one of them has it in other groups than the field whose instances are to be rows (`Apart`). Or the
padded array is too large (`Size.Fits`), which a few leaves under many levels suffice for. How large
is too large depends on the kind of the field, since a text takes more room than a number.

That nothing else fails rests on what a batch has taken. Counts that fit together lead every leaf
to a slot of its row (`exists_recordRow`, `exists_groupBlock`), and the readings of one record agree
on the counts of the groups that they share (`alike_of_reading?`), so that where the groups are the
same the counts need not be compared (`firstNotNested_cases`). `assembly_failures` puts these
together.
-/

namespace ObsExport

open Repeats

/-! ### Sizes -/

namespace Size

/-- The slots of a row of given sizes are a word, and there is room for some such rows. -/
def Fits (entry : Entry) (rows : Nat) (sizes : List Nat) : Prop :=
  volume sizes < limit ∧ Room entry (rows * volume sizes)

instance (entry : Entry) (rows : Nat) (sizes : List Nat) : Decidable (Fits entry rows sizes) :=
  inferInstanceAs (Decidable (_ ∧ _))

/-- Asking for rows of positive sizes. Strides do not fail where the product did not. -/
theorem product_reserve_bind {β : Type} {entry : Entry} {rows : Nat} {sizes : List Nat}
    (h : ∀ size ∈ sizes, 0 < size) (f : Nat → List Nat → Except Error β) :
    (product sizes >>= fun width => strides sizes >>= fun strides =>
      reserve entry (rows * width) >>= fun _ => f width strides) =
      if Fits entry rows sizes then f (volume sizes) (volumesBelow sizes)
      else .error .tooLarge := by
  rw [product_of_pos h, checked]
  by_cases hword : volume sizes < limit
  · rw [if_pos hword, ok_bind, strides_eq h hword, ok_bind, reserve]
    by_cases hroom : Room entry (rows * volume sizes)
    · rw [if_pos hroom, ok_bind, if_pos ⟨hword, hroom⟩]
    · rw [if_neg hroom, error_bind, if_neg fun hfits => hroom hfits.2]
  · rw [if_neg hword, error_bind, if_neg fun hfits => hword hfits.1]

end Size

/-! ### Readings of one record -/

/-- Lists that agree up to some place are at least as long alike. -/
theorem le_length_takeWhile_zip {xs ys : List Nat} {k : Nat} (h : xs.take k = ys.take k) :
    min k xs.length ≤ ((xs.zip ys).takeWhile fun p => p.1 == p.2).length := by
  induction xs generalizing ys k with
  | nil => simp
  | cons x xs ih =>
    cases k with
    | zero => simp
    | succ k =>
      cases ys with
      | nil => simp at h
      | cons y ys =>
        rw [List.take_succ_cons, List.take_succ_cons, List.cons.injEq] at h
        obtain ⟨rfl, hrest⟩ := h
        rw [List.zip_cons_cons, List.takeWhile_cons_of_pos (by simp), List.length_cons,
          List.length_cons, Nat.succ_min_succ]
        exact Nat.succ_le_succ (ih hrest)

namespace Reading

/-- Two readings have the same counts wherever they are in the same groups. -/
def Alike (a c : Reading) : Prop :=
  ∀ k, a.path.take k = c.path.take k → a.repeats.levels.take k = c.repeats.levels.take k

instance : Std.Symm Alike := ⟨fun _ _ h k hpath => (h k hpath.symm).symm⟩

theorem alike_self (a : Reading) : a.Alike a := fun _ _ => rfl

/-- Readings that agree on the groups that they share are alike. -/
theorem alike_of_agrees {a c : Reading} (ha : a.path.length = a.depth)
    (hc : c.path.length = c.depth) (h : a.agrees c = true) : a.Alike c := by
  intro k hpath
  -- Both paths are as long as the levels are deep, so a common start is a common start of levels.
  have hshared : min k a.depth ≤ shared a c := ha ▸ le_length_takeWhile_zip hpath
  have hlevels : a.repeats.levels.take (shared a c) = c.repeats.levels.take (shared a c) :=
    beq_iff_eq.1 h
  have hdepth : min k c.depth = min k a.depth := by
    have hlength := congrArg List.length hpath
    rw [List.length_take, List.length_take, ha, hc] at hlength
    exact hlength.symm
  calc a.repeats.levels.take k
      = a.repeats.levels.take (min k a.depth) := List.take_eq_take_min
    _ = (a.repeats.levels.take (shared a c)).take (min k a.depth) := by
        rw [List.take_take, Nat.min_eq_left hshared]
    _ = (c.repeats.levels.take (shared a c)).take (min k a.depth) := by rw [hlevels]
    _ = c.repeats.levels.take (min k a.depth) := by rw [List.take_take, Nat.min_eq_left hshared]
    _ = c.repeats.levels.take (min k c.depth) := by rw [hdepth]
    _ = c.repeats.levels.take k := List.take_eq_take_min.symm

end Reading

/-- The readings that a consistent record holds are alike. -/
theorem Record.Consistent.alike {r : Record} (hr : r.Consistent) {name group : String}
    {a c : Reading} (ha : r.observed? name = some a) (hc : r.observed? group = some c) :
    a.Alike c := by
  have hmem : ∀ {name x}, r.observed? name = some x →
      x ∈ r.readings.filter fun reading => !reading.flagged := by
    intro name x hx
    obtain ⟨hfind, hflag⟩ := Option.filter_eq_some_iff.1 hx
    exact List.mem_filter.2 ⟨List.mem_of_find?_eq_some hfind, hflag⟩
  -- The record was checked for pairs in its own order, but being alike goes both ways.
  have hpairwise : (r.readings.filter fun reading => !reading.flagged).Pairwise Reading.Alike :=
    hr.2.imp_of_mem fun hx hy hagrees => Reading.alike_of_agrees
      (hr.1 _ (List.mem_of_mem_filter hx)).1 (hr.1 _ (List.mem_of_mem_filter hy)).1 hagrees
  exact hpairwise.forall_of_forall (fun x _ => x.alike_self) (hmem ha) (hmem hc)

/-! ### Rows of a record -/

section Rows

variable {α : Type} {blank : α} {pick : Leaves → List α} {sizes : List Nat}
  {reading group : Reading}

/-- Values go into slots that a row has. -/
theorem exists_place {row values : List α} {slots : List Nat}
    (h : ∀ s ∈ slots, s < row.length) : ∃ out, place row (slots.zip values) = .ok out := by
  induction slots generalizing row values with
  | nil => exact ⟨row, rfl⟩
  | cons s slots ih =>
    obtain ⟨hs, hslots⟩ := List.forall_mem_cons.1 h
    cases values with
    | nil => exact ⟨row, rfl⟩
    | cons a values =>
      rw [List.zip_cons_cons, place, if_pos hs]
      exact ih (by simpa using hslots)

/-- The leaves of a record fill a row of the padded block. -/
theorem exists_recordRow {cell : Option Reading} (hword : volume sizes < Size.limit)
    (h : ∀ reading, cell = some reading → Fills pick sizes reading) :
    ∃ row, recordRow blank pick (volume sizes) (volumesBelow sizes) cell = .ok row := by
  cases cell with
  | none => exact ⟨_, rfl⟩
  | some reading =>
    have hbounded := (h reading rfl).bounded
    rw [recordRow, offsets_eq hbounded hword, ok_bind]
    refine exists_place fun s hmem => ?_
    rw [List.length_replicate]
    exact (spaced_leaves hbounded).within s hmem

/-- Every instance of a group has a value of the field around it. -/
theorem exists_enclosing (hfills : Fills pick sizes reading) (hgroup : group.repeats.Consistent)
    (hlevels : reading.repeats.levels = group.repeats.levels.take reading.depth) :
    ∃ block, ((List.range group.repeats.leafCount).mapM fun row => do
        let source ← ancestor (group.repeats.levels.drop reading.depth) row
        required (pick reading.leaves)[source]?) = .ok block := by
  refine exists_mapM_eq_ok fun row hrow => ?_
  obtain ⟨positions, hpos⟩ := exists_leafAt? hgroup (List.mem_range.1 hrow)
  obtain ⟨k, houter, hinner⟩ := exists_reach?_cut hpos reading.depth
  rw [← hlevels] at houter
  have hk : k < (pick reading.leaves).length := hfills.count ▸ lt_leafCount houter
  exact ⟨_, by rw [ancestor_eq hinner, ok_bind, List.getElem?_eq_getElem hk, required_some]⟩

/-- Every leaf of a field has an instance of the group around it. -/
theorem exists_places (hfills : Fills pick sizes reading)
    (hword : volume (sizes.drop group.depth) < Size.limit)
    (hsize : reading.leaves.size = reading.repeats.leafCount) :
    ∃ places, ((List.range reading.leaves.size).mapM fun leaf => do
        let (row, slot) ← climb (reading.repeats.levels.drop group.depth)
          (volumesBelow (sizes.drop group.depth)) leaf
        return row * volume (sizes.drop group.depth) + slot) = .ok places := by
  refine exists_mapM_eq_ok fun leaf hleaf => ?_
  obtain ⟨positions, hpos⟩ := exists_leafAt? hfills.consistent (hsize ▸ List.mem_range.1 hleaf)
  obtain ⟨row, -, hrow⟩ := exists_reach?_cut hpos group.depth
  exact ⟨_, by
    rw [(climb_inner hfills.bounded hword hrow).2, ok_bind]
    rfl⟩

/-- A field has rows among the groups of another in which it is nested. -/
theorem exists_groupBlock (hfills : Fills pick sizes reading)
    (hword : volume (sizes.drop group.depth) < Size.limit)
    (hsize : reading.leaves.size = reading.repeats.leafCount) (hgroup : group.repeats.Consistent)
    (hnested : reading.nestedIn group (min reading.depth group.depth) = true) :
    ∃ block, groupBlock blank pick reading.depth group.depth (volume (sizes.drop group.depth))
      (volumesBelow (sizes.drop group.depth)) (some reading, some group) = .ok block := by
  have hlevels := levels_of_nestedIn hnested
  rw [groupBlock]
  split
  next hle =>
    rw [Nat.min_eq_left hle, take_depth reading] at hlevels
    exact exists_enclosing hfills hgroup hlevels
  next hlt =>
    rw [Nat.min_eq_right (Nat.le_of_lt (Nat.lt_of_not_le hlt)), take_depth group] at hlevels
    obtain ⟨places, hplaces⟩ := exists_places hfills hword hsize
    have hspread := spread_of_mapM hfills.bounded hword hsize hlevels hplaces
    rw [hplaces, ok_bind]
    refine exists_place fun s hmem => ?_
    -- A place lies in the row of the instance around its leaf.
    obtain ⟨p, l, row, -, hrow, hslot, rfl⟩ := hspread.exists_of_mem hfills.consistent hmem
    rw [List.length_replicate]
    exact mul_add_lt (lt_leafCount hrow) hslot

/-- Assembling succeeds if it does for numbers and for texts alike. -/
theorem exists_assemble {isText : Bool} {policy : MissingPolicy}
    {build : {α : Type} → α → (Leaves → List α) → Except Error (List α)}
    (h : ∀ {α : Type} (blank : α) (pick : Leaves → List α),
      (∀ ls : Leaves, ls.isText = isText → (pick ls).length = ls.size) →
        ∃ out, build blank pick = .ok out) :
    ∃ leaves, assemble isText policy build = .ok leaves := by
  unfold assemble
  -- The two kinds differ in the blank and in what is picked from leaves of that kind.
  cases isText with
  | true =>
    obtain ⟨out, hout⟩ := h "" Leaves.texts fun ls hls => by
      cases ls with
      | numeric values => simp [Leaves.isText] at hls
      | text values => rfl
    refine ⟨.text out, ?_⟩
    show (build "" Leaves.texts).map Leaves.text = _
    rw [hout]
    rfl
  | false =>
    obtain ⟨out, hout⟩ := h policy.sentinel Leaves.numbers fun ls hls => by
      cases ls with
      | numeric values => rfl
      | text values => simp [Leaves.isText] at hls
    refine ⟨.numeric out, ?_⟩
    show (build policy.sentinel Leaves.numbers).map Leaves.numeric = _
    rw [hout]
    rfl

end Rows

/-- Readings without a common shape differ in depth or in kind. -/
theorem commonShape_eq_error {name : String} {cells : List (Option Reading)} {e : Error}
    (h : commonShape name cells = .error e) :
    (∃ record fault, e = .structural name record fault) ∧
      ∃ a ∈ cells.filterMap id, ∃ c ∈ cells.filterMap id,
        a.depth ≠ c.depth ∨ a.leaves.isText ≠ c.leaves.isText := by
  unfold commonShape at h
  split at h
  next => contradiction
  next reference href =>
    obtain ⟨cell, hcell, hid⟩ := List.exists_of_findSome?_eq_some href
    have hreference : reference ∈ cells.filterMap id := List.mem_filterMap.2 ⟨cell, hcell, hid⟩
    simp only at h
    split at h
    next record fault hfault =>
      refine ⟨⟨record, fault, (Except.error.inj h).symm⟩, ?_⟩
      obtain ⟨⟨cell, r⟩, hmem, hfault⟩ := List.exists_of_findSome?_eq_some hfault
      cases cell with
      | none => simp at hfault
      | some reading =>
        -- The reading that was reported differs from the first one.
        have hreading : reading ∈ cells.filterMap id :=
          List.mem_filterMap.2 ⟨some reading, List.fst_mem_of_mem_zipIdx hmem, rfl⟩
        refine ⟨reading, hreading, reference, hreference, ?_⟩
        by_cases hdepth : reading.depth = reference.depth
        · by_cases hkind : reading.leaves.isText = reference.leaves.isText
          · simp [hdepth, hkind] at hfault
          · exact .inr hkind
        · exact .inl hdepth
    next => contradiction

namespace Batch

variable {b : Batch} {name group : String}

/-! ### Records that disagree -/

/-- The records that hold a field disagree on its depth or on its kind. -/
def Varies (b : Batch) (name : String) : Prop :=
  ∃ a ∈ b.held name, ∃ c ∈ b.held name, a.depth ≠ c.depth ∨ a.leaves.isText ≠ c.leaves.isText

/-- Some record holds two fields in different groups, as far as both are nested. -/
def Apart (b : Batch) (name group : String) : Prop :=
  ∃ record reading instances, b.reading? name record = some reading ∧
    b.reading? group record = some instances ∧
      reading.path.take (min reading.depth instances.depth) ≠
        instances.path.take (min reading.depth instances.depth)

/-- Records that agree on the shape of a field do not disagree on it. -/
theorem Uniform.not_varies (h : b.Uniform name) : ¬ b.Varies name := by
  rintro ⟨a, ha, c, hc, hdepth | hkind⟩
  · exact hdepth ((h a ha).1.trans (h c hc).1.symm)
  · exact hkind ((h a ha).2.trans (h c hc).2.symm)

/-- A field has one shape exactly if no two records disagree on it. -/
theorem commonShape_cases (b : Batch) (name : String) :
    (b.Varies name ∧ ∃ record fault,
      commonShape name (b.cells name) = .error (.structural name record fault)) ∨
    (¬ b.Varies name ∧ ∃ shape, commonShape name (b.cells name) = .ok shape) := by
  cases h : commonShape name (b.cells name) with
  | ok shape => exact .inr ⟨(uniform_of_commonShape h).1.not_varies, shape, rfl⟩
  | error e =>
    obtain ⟨⟨record, fault, rfl⟩, hvaries⟩ := commonShape_eq_error h
    rw [filterMap_cells] at hvaries
    exact .inl ⟨hvaries, record, fault, rfl⟩

/-- The readings that a batch holds in one record are alike. -/
theorem alike_of_reading? {record : Nat} {reading instances : Reading}
    (hr : b.reading? name record = some reading) (hg : b.reading? group record = some instances) :
    reading.Alike instances := by
  obtain ⟨r, hrecord, hr⟩ := Option.bind_eq_some_iff.1 hr
  obtain ⟨r', hrecord', hg⟩ := Option.bind_eq_some_iff.1 hg
  obtain rfl : r = r' := Option.some.inj (hrecord.symm.trans hrecord')
  exact (b.consistent r (List.mem_of_getElem? hrecord)).alike hr hg

/-- The field of a record and the group around it, from the places of both. -/
theorem reading?_of_mem_zip {reading instances : Reading}
    (h : (some reading, some instances) ∈ (b.cells name).zip (b.cells group)) :
    ∃ record, b.reading? name record = some reading ∧
      b.reading? group record = some instances := by
  obtain ⟨record, hrecord⟩ := List.mem_iff_getElem?.1 h
  obtain ⟨hname, hgroup⟩ := List.getElem?_zip_eq_some.1 hrecord
  have hlt : record < b.size := by
    rw [← length_cells b name]
    exact (List.getElem?_eq_some_iff.1 hname).1
  rw [getElem?_cells hlt, Option.some.injEq] at hname hgroup
  exact ⟨record, hname, hgroup⟩

/-- A record is reported exactly if the fields are apart in some record: their counts alone never
tell them apart. -/
theorem firstNotNested_cases (hu : b.Uniform name) (hug : b.Uniform group) :
    (b.Apart name group ∧ ∃ record, firstNotNested (min (b.depthOf name) (b.depthOf group))
      ((b.cells name).zip (b.cells group)) = some record) ∨
    (¬ b.Apart name group ∧ firstNotNested (min (b.depthOf name) (b.depthOf group))
      ((b.cells name).zip (b.cells group)) = .none) := by
  have hdepth : ∀ {record reading instances}, b.reading? name record = some reading →
      b.reading? group record = some instances →
        min (b.depthOf name) (b.depthOf group) = min reading.depth instances.depth := by
    intro record reading instances hr hg
    rw [(hu reading (mem_held_of_reading? hr)).1, (hug instances (mem_held_of_reading? hg)).1]
  cases h : firstNotNested (min (b.depthOf name) (b.depthOf group))
      ((b.cells name).zip (b.cells group)) with
  | none =>
    refine .inr ⟨?_, rfl⟩
    rintro ⟨record, reading, instances, hr, hg, hne⟩
    have hnested := nestedIn_of_firstNotNested h hr hg
    rw [hdepth hr hg, Reading.nestedIn, Bool.and_eq_true, beq_iff_eq] at hnested
    exact hne hnested.1
  | some first =>
    refine .inl ⟨?_, first, rfl⟩
    obtain ⟨⟨⟨cell, cell'⟩, r⟩, hmem, hfirst⟩ := List.exists_of_findSome?_eq_some h
    cases cell with
    | none => simp at hfirst
    | some reading =>
      cases cell' with
      | none => simp at hfirst
      | some instances =>
        obtain ⟨record, hr, hg⟩ := reading?_of_mem_zip (List.fst_mem_of_mem_zipIdx hmem)
        refine ⟨record, reading, instances, hr, hg, fun hpath => ?_⟩
        -- With the same groups the counts are the same, so the record would not be reported.
        have hlevels := alike_of_reading? hr hg _ hpath
        have hnested : reading.nestedIn instances (min (b.depthOf name) (b.depthOf group)) =
            true := by
          rw [hdepth hr hg, Reading.nestedIn, hpath, hlevels]
          simp
        simp [hnested] at hfirst

/-! ### How assembly ends -/

/-- How an assembly of some fields ends: it fails for a field that is not declared, or else because
the records disagree, or else for its size, and for nothing else. -/
structure Ends {α : Type} (outcome : Except Error α) (fields : List String)
    (declared disagree fits : Prop) : Prop where
  fieldNotFound_iff :
    (∃ field ∈ fields, outcome = .error (.fieldNotFound field)) ↔ ¬ declared
  structural_iff :
    (∃ field ∈ fields, ∃ record fault, outcome = .error (.structural field record fault)) ↔
      declared ∧ disagree
  tooLarge_iff : outcome = .error .tooLarge ↔ declared ∧ ¬ disagree ∧ ¬ fits
  ok_iff : (∃ a, outcome = .ok a) ↔ declared ∧ ¬ disagree ∧ fits
  /-- No index is out of range. -/
  inBounds : outcome ≠ .error .outOfBounds

section Ends

variable {α : Type} {outcome : Except Error α} {fields : List String}
  {declared disagree fits : Prop} {field : String} {record : Nat} {fault : StructureFault} {a : α}

/-- For a field that is not declared the other questions do not matter. -/
theorem Ends.undeclared (hfield : field ∈ fields) (h : ¬ declared)
    (hout : outcome = .error (.fieldNotFound field)) :
    Ends outcome fields declared disagree fits := by
  subst hout
  constructor <;> simp [h, hfield]

/-- Where records disagree the size does not matter. -/
theorem Ends.disagreeing (hfield : field ∈ fields) (hdeclared : declared) (h : disagree)
    (hout : outcome = .error (.structural field record fault)) :
    Ends outcome fields declared disagree fits := by
  subst hout
  constructor <;> simp [hdeclared, h, hfield]

/-- An array that does not fit is the last thing that can go wrong. -/
theorem Ends.large (hdeclared : declared) (hagree : ¬ disagree) (h : ¬ fits)
    (hout : outcome = .error .tooLarge) : Ends outcome fields declared disagree fits := by
  subst hout
  constructor <;> simp [hdeclared, hagree, h]

/-- What is assembled has passed all three questions. -/
theorem Ends.assembled (hdeclared : declared) (hagree : ¬ disagree) (h : fits)
    (hout : outcome = .ok a) : Ends outcome fields declared disagree fits := by
  subst hout
  constructor <;> simp [hdeclared, hagree, h]

end Ends

/-- The rows of all records, for numbers and for texts alike. -/
theorem exists_rows (hu : b.Uniform name) (hword : volume (b.maxima name) < Size.limit) :
    ∃ leaves, assemble (b.isTextual name) b.policy (fun blank pick =>
      ((b.cells name).mapM (recordRow blank pick (volume (b.maxima name))
        (volumesBelow (b.maxima name)))).map List.flatten) = .ok leaves := by
  refine exists_assemble fun blank pick hpick => ?_
  obtain ⟨rows, hrows⟩ := exists_mapM_eq_ok (l := b.cells name)
    (f := recordRow blank pick (volume (b.maxima name)) (volumesBelow (b.maxima name)))
    fun cell hcell => exists_recordRow hword fun reading hr => fills_of_held hu hpick
      (filterMap_cells b name ▸ List.mem_filterMap.2 ⟨cell, hcell, hr⟩)
  exact ⟨rows.flatten, by rw [hrows]; rfl⟩

/-- How assembling a field with a row per record ends. -/
theorem get_ends (b : Batch) (name : String) :
    Ends (b.get name).outcome [name] (name ∈ b.names) (b.Varies name)
      (b.held name = [] ∨ Size.Fits (Leaves.entry (b.isTextual name)) b.size (b.maxima name)) := by
  have hname := List.mem_singleton.2 (rfl : name = name)
  unfold get
  simp only [Logged.outcome_bind, Logged.outcome_monadLift]
  -- The cases come in the order of the steps: look-up, shape, size.
  by_cases hdeclared : name ∈ b.names
  case neg =>
    rw [observed_of_not_mem hdeclared, error_bind]
    exact .undeclared hname hdeclared rfl
  rw [observed_of_mem hdeclared, ok_bind]
  rcases b.commonShape_cases name with ⟨hvaries, record, fault, herr⟩ | ⟨hagree, shape, hshape⟩
  · rw [herr, error_bind]
    exact .disagreeing hname hdeclared hvaries rfl
  obtain ⟨hu, hdefault⟩ := uniform_of_commonShape hshape
  have hheld := held_eq_nil_iff_of_shape hshape
  rw [hshape, ok_bind]
  cases shape with
  | none => exact .assembled hdeclared hagree (.inl (hheld.2 rfl)) rfl
  | some shape =>
    obtain ⟨depth, isText⟩ := shape
    obtain ⟨rfl, rfl⟩ := Prod.mk.inj hdefault
    simp only [Logged.outcome_bind, Logged.outcome_monadLift, Logged.outcome_report,
      commonMaxima_eq hu, List.drop_zero]
    rw [Size.product_reserve_bind fun _ => pos_of_mem_maxima]
    by_cases hfits : Size.Fits (Leaves.entry (b.isTextual name)) b.size (b.maxima name)
    · -- Once there is room, every record fills its row.
      obtain ⟨leaves, hleaves⟩ := exists_rows hu hfits.1
      rw [if_pos hfits, hleaves, ok_bind, ok_bind]
      exact .assembled hdeclared hagree (.inr hfits) rfl
    · rw [if_neg hfits]
      exact .large hdeclared hagree (by simp [hheld, hfits]) rfl

/-- The rows of all records among the groups of another field. -/
theorem exists_blocks (hu : b.Uniform name) (hug : b.Uniform group)
    (hword : volume ((b.maxima name).drop (b.depthOf group)) < Size.limit)
    (hnested : firstNotNested (min (b.depthOf name) (b.depthOf group))
      ((b.cells name).zip (b.cells group)) = .none) :
    ∃ leaves, assemble (b.isTextual name) b.policy (fun blank pick =>
      (((b.cells name).zip (b.cells group)).mapM (groupBlock blank pick (b.depthOf name)
        (b.depthOf group) (volume ((b.maxima name).drop (b.depthOf group)))
        (volumesBelow ((b.maxima name).drop (b.depthOf group))))).map List.flatten) =
          .ok leaves := by
  refine exists_assemble fun blank pick hpick => ?_
  -- A record that lacks one of the fields has blank rows; in any other the field is nested in the
  -- groups, as no record was reported.
  have hblocks : ∀ pair ∈ (b.cells name).zip (b.cells group), ∃ block,
      groupBlock blank pick (b.depthOf name) (b.depthOf group)
        (volume ((b.maxima name).drop (b.depthOf group)))
        (volumesBelow ((b.maxima name).drop (b.depthOf group))) pair = .ok block := by
    rintro ⟨cell, cell'⟩ hmem
    cases cell with
    | none => exact ⟨_, rfl⟩
    | some reading =>
      cases cell' with
      | none => exact ⟨_, rfl⟩
      | some instances =>
        obtain ⟨record, hr, hg⟩ := reading?_of_mem_zip hmem
        have hheld := mem_held_of_reading? hr
        have hgheld := mem_held_of_reading? hg
        have hin := nestedIn_of_firstNotNested hnested hr hg
        rw [← (hug instances hgheld).1] at hword
        rw [← (hu reading hheld).1, ← (hug instances hgheld).1] at hin ⊢
        exact exists_groupBlock (fills_of_held hu hpick hheld) hword (consistent_of_held hheld).2
          (consistent_of_held hgheld).1 hin
  obtain ⟨blocks, hblocks⟩ := exists_mapM_eq_ok hblocks
  exact ⟨blocks.flatten, by rw [hblocks]; rfl⟩

/-- How assembling a field with a row per instance of the groups around another ends. -/
theorem getGrouped_ends (b : Batch) (name group : String) :
    Ends (b.getGrouped name group).outcome [name, group] (name ∈ b.names ∧ group ∈ b.names)
      (b.Varies name ∨ b.Varies group ∨ b.Apart name group)
      (Size.Fits (Leaves.entry (b.isTextual name)) (b.startOf group b.size)
        ((b.maxima name).drop (b.depthOf group))) := by
  have hname : name ∈ [name, group] := List.mem_cons_self
  have hgroup : group ∈ [name, group] := List.mem_cons_of_mem _ (List.mem_singleton.2 rfl)
  unfold getGrouped
  simp only [Logged.outcome_bind, Logged.outcome_monadLift]
  -- Both fields are looked up before the readings of either are compared.
  by_cases hdeclared : name ∈ b.names
  case neg =>
    rw [observed_of_not_mem hdeclared, error_bind]
    exact .undeclared hname (fun h => hdeclared h.1) rfl
  by_cases hgdeclared : group ∈ b.names
  case neg =>
    rw [observed_of_mem hdeclared, ok_bind, observed_of_not_mem hgdeclared, error_bind]
    exact .undeclared hgroup (fun h => hgdeclared h.2) rfl
  have hboth := And.intro hdeclared hgdeclared
  rw [observed_of_mem hdeclared, ok_bind, observed_of_mem hgdeclared, ok_bind]
  rcases b.commonShape_cases name with ⟨hvaries, record, fault, herr⟩ | ⟨hagree, shape, hshape⟩
  · rw [herr, error_bind]
    exact .disagreeing hname hboth (.inl hvaries) rfl
  rw [hshape, ok_bind]
  rcases b.commonShape_cases group with
    ⟨hvaries, record, fault, herr⟩ | ⟨hgagree, gshape, hgshape⟩
  · rw [herr, error_bind]
    exact .disagreeing hgroup hboth (.inr (.inl hvaries)) rfl
  rw [hgshape, ok_bind]
  obtain ⟨hu, hdefault⟩ := uniform_of_commonShape hshape
  obtain ⟨hug, -⟩ := uniform_of_commonShape hgshape
  rw [hdefault, depth_of_commonShape hgshape]
  rcases firstNotNested_cases hu hug with ⟨hapart, record, hfirst⟩ | ⟨hnested, hfirst⟩
  · rw [hfirst]
    exact .disagreeing hname hboth (.inr (.inr hapart)) rfl
  have hagree : ¬ (b.Varies name ∨ b.Varies group ∨ b.Apart name group) := by
    simp [hagree, hgagree, hnested]
  rw [hfirst]
  simp only [Logged.outcome_bind, Logged.outcome_monadLift, Logged.outcome_report,
    commonMaxima_eq hu, total_groupRows]
  rw [Size.product_reserve_bind fun _ hsize => pos_of_mem_maxima (List.mem_of_mem_drop hsize)]
  by_cases hfits : Size.Fits (Leaves.entry (b.isTextual name)) (b.startOf group b.size)
      ((b.maxima name).drop (b.depthOf group))
  · obtain ⟨leaves, hleaves⟩ := exists_blocks hu hug hfits.1 hfirst
    rw [if_pos hfits, hleaves, ok_bind, ok_bind]
    exact .assembled hboth hagree hfits rfl
  · rw [if_neg hfits]
    exact .large hboth hagree hfits rfl

/-- **When assembly fails.** Whatever records are offered, a field is assembled with a row per
record, or with a row per instance of the groups around another field, unless a field that is asked
for is not declared, or the records disagree on the depth or kind of one, or some record has the two
in different groups, or the padded array is too large. These are the only failures, and no index is
ever out of range. The counts of the groups need no comparison of their own: fields of one record
agree on the counts of all leading groups that they have in common. -/
theorem assembly_failures (names : List String) (policy : MissingPolicy) (offered : List Record)
    (name group : String) :
    let b := ofOffers names policy offered
    Ends (b.get name).outcome [name] (name ∈ names) (b.Varies name)
        (b.held name = [] ∨
          Size.Fits (Leaves.entry (b.isTextual name)) b.size (b.maxima name)) ∧
      Ends (b.getGrouped name group).outcome [name, group] (name ∈ names ∧ group ∈ names)
        (b.Varies name ∨ b.Varies group ∨ b.Apart name group)
        (Size.Fits (Leaves.entry (b.isTextual name)) (b.startOf group b.size)
          ((b.maxima name).drop (b.depthOf group))) ∧
      ∀ record reading instances k, b.reading? name record = some reading →
        b.reading? group record = some instances →
          reading.path.take k = instances.path.take k →
            reading.repeats.levels.take k = instances.repeats.levels.take k := by
  intro b
  have hnames : b.names = names := names_ofOffers names policy offered
  refine ⟨hnames ▸ b.get_ends name, hnames ▸ b.getGrouped_ends name group, ?_⟩
  intro record reading instances k hr hg hpath
  exact alike_of_reading? hr hg k hpath

/-- Two numbers under 64 levels. Every level has two instances, and only the first of them has
instances below it. -/
def toweringReading : Reading :=
  .repeated "T" (.numeric [1, 2]) (List.range' 1 64) (tower 63)

/-- The record with nothing but these numbers. -/
def toweringRecord : Record := ⟨[toweringReading], List.pairwise_singleton _ _⟩

/-- The record of the tower is taken. -/
theorem held_towering :
    (ofOffers ["T"] .standard [toweringRecord]).held "T" = [toweringReading] := by rfl

/-- A field in one record has nothing to disagree with. -/
theorem not_varies_towering : ¬ (ofOffers ["T"] .standard [toweringRecord]).Varies "T" := by
  rintro ⟨a, ha, c, hc, hne⟩
  rw [held_towering, List.mem_singleton] at ha hc
  subst ha hc
  simp at hne

/-- A record can be taken whose only field is declared and agrees with itself, but has no array:
padded to two instances per level, its row has more slots than can be counted with a word. -/
theorem get_fails_towering :
    (ofOffers ["T"] .standard [toweringRecord]).records = [toweringRecord] ∧
      "T" ∈ (ofOffers ["T"] .standard [toweringRecord]).names ∧
      ¬ (ofOffers ["T"] .standard [toweringRecord]).Varies "T" ∧
      ((ofOffers ["T"] .standard [toweringRecord]).get "T").outcome = .error .tooLarge :=
  ⟨by rfl, List.mem_singleton.2 rfl, not_varies_towering, by rfl⟩

end Batch

end ObsExport
