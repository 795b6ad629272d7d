import ObsExport.Batch.Assembly
import ObsExport.Proofs.Repeats.Offsets

/-!
# What a batch holds of a field

A batch is reached by offering records, of which the inconsistent ones leave it as it was
(`Batch.offer`, `Batch.ofOffers`); the records that stay are the consistent ones in the order in
which they were offered (`records_ofOffers`).

Of a field a batch holds the readings that are not flagged, one at most per record
(`Batch.reading?`). Depth, kind and sizes of the field are read off these readings alone:
`depthOf` and `isTextual` off the first one, `maxima` off all of them. `commonShape` succeeds only
if depth and kind are those of every reading (`commonShape_eq_ok`), and its sizes are `maxima`
(`commonMaxima_eq`).
-/

namespace ObsExport

/-! ### Single leaves -/

/-- A number or a text. -/
inductive Leaf where
  | number (x : Float)
  | text (s : String)
deriving DecidableEq

/-- What stands where there is no leaf. -/
def Leaf.blank (isText : Bool) (policy : MissingPolicy) : Leaf :=
  if isText then .text "" else .number policy.sentinel

/-- A leaf by its number. -/
def Leaves.leaf? : Leaves → Nat → Option Leaf
  | numeric values, i => values[i]?.map .number
  | text values, i => values[i]?.map .text

namespace Batch

/-! ### Offering records -/

/-- The batch after a record was offered to it. -/
def offer (b : Batch) (record : Record) : Batch :=
  match b.push record with
  | .ok b' => b'
  | .error _ => b

/-- The batch after some records were offered to one without records. -/
def ofOffers (names : List String) (policy : MissingPolicy) (offered : List Record) : Batch :=
  offered.foldl offer (empty names policy)

/-- An offer is appended if nothing is wrong with it, and changes nothing otherwise. -/
private theorem offer_eq (b : Batch) (record : Record) :
    (b.offer record).names = b.names ∧ (b.offer record).policy = b.policy ∧
      (b.offer record).records =
        b.records ++ [record].filter fun r => r.fault?.isNone := by
  unfold offer push
  split
  next b' h =>
    -- The record was taken, so it is consistent.
    split at h
    next => contradiction
    next hf =>
      simp only [Except.ok.injEq] at h
      simp [← h, hf]
  next e h =>
    split at h
    next field fault hf => simp [hf]
    next => contradiction

/-- Offers one after another append those of them with which nothing is wrong. -/
private theorem foldl_offer (b : Batch) (offered : List Record) :
    (offered.foldl offer b).names = b.names ∧ (offered.foldl offer b).policy = b.policy ∧
      (offered.foldl offer b).records =
        b.records ++ offered.filter fun r => r.fault?.isNone := by
  induction offered generalizing b with
  | nil => simp
  | cons record offered ih =>
    obtain ⟨hnames, hpolicy, hrecords⟩ := offer_eq b record
    obtain ⟨hnames', hpolicy', hrecords'⟩ := ih (b.offer record)
    refine ⟨hnames'.trans hnames, hpolicy'.trans hpolicy, ?_⟩
    rw [List.foldl_cons, hrecords', hrecords, List.append_assoc, ← List.filter_append]
    rfl

section Offers

variable (names : List String) (policy : MissingPolicy) (offered : List Record)

@[simp] theorem names_ofOffers : (ofOffers names policy offered).names = names :=
  (foldl_offer _ offered).1

@[simp] theorem policy_ofOffers : (ofOffers names policy offered).policy = policy :=
  (foldl_offer _ offered).2.1

/-- The consistent records stay, in the order in which they were offered. -/
theorem records_ofOffers :
    (ofOffers names policy offered).records = offered.filter fun r => r.fault?.isNone :=
  (foldl_offer _ offered).2.2

end Offers

/-! ### Readings of a field -/

/-- The reading of a field in a record, unless the record lacks the field or flags it. -/
def reading? (b : Batch) (name : String) (record : Nat) : Option Reading :=
  b.records[record]?.bind fun r => r.observed? name

/-- The readings of a field, record after record. -/
def held (b : Batch) (name : String) : List Reading :=
  b.records.filterMap fun r => r.observed? name

/-- The places of a field, one per record. -/
def cells (b : Batch) (name : String) : List (Option Reading) :=
  b.records.map fun r => r.observed? name

/-- How deep a field is nested; a field that no record holds is not nested. -/
def depthOf (b : Batch) (name : String) : Nat := ((b.held name).head?.map Reading.depth).getD 0

/-- Whether a field holds texts; a field that no record holds does not. -/
def isTextual (b : Batch) (name : String) : Bool :=
  ((b.held name).head?.map fun reading => reading.leaves.isText).getD false

/-- The largest repeat count of every level of a field over the batch, and at least one. -/
def maxima (b : Batch) (name : String) : List Nat :=
  (List.range (b.depthOf name)).map
    (Repeats.levelMaximum ((b.held name).map fun reading => reading.repeats.levels))

/-- A field has one depth and one kind over the batch. -/
def Uniform (b : Batch) (name : String) : Prop :=
  ∀ reading ∈ b.held name,
    reading.depth = b.depthOf name ∧ reading.leaves.isText = b.isTextual name

variable {b : Batch} {name : String}

@[simp] theorem length_maxima : (b.maxima name).length = b.depthOf name := by simp [maxima]

/-- Every level of a padded block has room for one instance at least. -/
theorem pos_of_mem_maxima {size : Nat} (h : size ∈ b.maxima name) : 0 < size := by
  obtain ⟨level, -, rfl⟩ := List.mem_map.1 h
  exact Repeats.levelMaximum_pos _ _

/-- A padded row has a slot, whatever its field looks like. -/
theorem volume_maxima_pos (b : Batch) (name : String) : 0 < volume (b.maxima name) :=
  volume_pos fun _ => pos_of_mem_maxima

/-- A field that no record holds is neither nested nor textual. -/
theorem maxima_of_held_nil (h : b.held name = []) : b.maxima name = [] := by
  simp [maxima, depthOf, h]

/-- A field that no record holds counts as numeric. -/
theorem isTextual_of_held_nil (h : b.held name = []) : b.isTextual name = false := by
  simp [isTextual, h]

/-- What a record holds under a name is among all that records hold under it. -/
theorem mem_held_of_reading? {record : Nat} {reading : Reading}
    (h : b.reading? name record = some reading) : reading ∈ b.held name := by
  obtain ⟨r, hr, hobs⟩ := Option.bind_eq_some_iff.1 h
  exact List.mem_filterMap.2 ⟨r, List.mem_iff_getElem?.2 ⟨record, hr⟩, hobs⟩

/-- Readings are found in records that are there. -/
theorem lt_size_of_reading? {record : Nat} {reading : Reading}
    (h : b.reading? name record = some reading) : record < b.size := by
  obtain ⟨r, hr, _⟩ := Option.bind_eq_some_iff.1 h
  exact (List.getElem?_eq_some_iff.1 hr).1

/-- A reading that a batch holds is consistent and has the leaves that its counts imply. -/
theorem consistent_of_held {reading : Reading} (h : reading ∈ b.held name) :
    reading.repeats.Consistent ∧ reading.leaves.size = reading.repeats.leafCount := by
  obtain ⟨record, hrecord, hobs⟩ := List.mem_filterMap.1 h
  obtain ⟨hfind, hflag⟩ := Option.filter_eq_some_iff.1 hobs
  obtain ⟨hall, _⟩ := b.consistent record hrecord
  obtain ⟨_, hrepeats, hsize⟩ := hall reading (List.mem_of_find?_eq_some hfind)
  exact ⟨hrepeats, hsize (by simpa using hflag)⟩

/-! ### What assembly works with -/

/-- The places of a field, one per record. -/
theorem observed_eq_ok {found : List (Option Reading)} (h : b.observed name = .ok found) :
    name ∈ b.names ∧ found = b.cells name := by
  unfold observed at h
  split at h
  next hmem => exact ⟨hmem, (Except.ok.inj h).symm⟩
  next => contradiction

/-- The readings of a declared field are looked up in every record. -/
theorem observed_of_mem (h : name ∈ b.names) : b.observed name = .ok (b.cells name) := if_pos h

/-- A field that is not declared is not found, even if records hold it. -/
theorem observed_of_not_mem (h : name ∉ b.names) :
    b.observed name = .error (.fieldNotFound name) := if_neg h

@[simp] theorem length_cells (b : Batch) (name : String) : (b.cells name).length = b.size :=
  List.length_map _

/-- Every record has a place in the list of readings, filled or not. -/
theorem getElem?_cells {record : Nat} (h : record < b.size) :
    (b.cells name)[record]? = some (b.reading? name record) := by
  have hget : b.records[record]? = some b.records[record] := List.getElem?_eq_getElem h
  rw [cells, List.getElem?_map, reading?, hget]
  rfl

/-- What the places give in terms of the records. -/
theorem map_cells {γ : Type} (b : Batch) (name : String) (f : Option Reading → γ) :
    (b.cells name).map f = (List.range b.size).map fun record => f (b.reading? name record) := by
  refine List.ext_getElem? fun record => ?_
  by_cases hlt : record < b.size
  · rw [List.getElem?_map, List.getElem?_map, getElem?_cells hlt, List.getElem?_range hlt]
    rfl
  · rw [List.getElem?_eq_none_iff.2 (by simpa using hlt),
      List.getElem?_eq_none_iff.2 (by simpa using hlt)]

/-- The places that are filled hold all that records hold under the name. -/
theorem filterMap_cells (b : Batch) (name : String) :
    (b.cells name).filterMap id = b.held name := by
  rw [cells, List.filterMap_map]
  rfl

end Batch

/-- A shape that readings have in common is that of the first one and of every other. -/
theorem commonShape_eq_ok {name : String} {cells : List (Option Reading)}
    {shape : Option (Nat × Bool)} (h : commonShape name cells = .ok shape) :
    shape = (cells.filterMap id).head?.map (fun r => (r.depth, r.leaves.isText)) ∧
      ∀ reading ∈ cells.filterMap id, shape = some (reading.depth, reading.leaves.isText) := by
  unfold commonShape at h
  rw [List.head?_filterMap]
  split at h
  next hnone =>
    -- There is no reading at all.
    simp only [Except.ok.injEq] at h
    refine ⟨by simp [hnone, ← h], fun reading hmem => ?_⟩
    obtain ⟨cell, hcell, hid⟩ := List.mem_filterMap.1 hmem
    have := List.findSome?_eq_none_iff.1 hnone cell hcell
    simp_all
  next reference href =>
    simp only at h
    split at h
    next => contradiction
    next hall =>
      simp only [Except.ok.injEq] at h
      refine ⟨by simp [href, ← h], fun reading hmem => ?_⟩
      obtain ⟨cell, hcell, hid⟩ := List.mem_filterMap.1 hmem
      obtain rfl : cell = some reading := hid
      -- A reading of another shape would have been reported with its record.
      obtain ⟨record, hrecord⟩ := List.mem_iff_getElem?.1 hcell
      have hfault := List.findSome?_eq_none_iff.1 hall (some reading, record)
        (List.mem_zipIdx_iff_getElem?.2 hrecord)
      simp only at hfault
      by_cases hdepth : reading.depth = reference.depth
      · by_cases hkind : reading.leaves.isText = reference.leaves.isText
        · rw [← h, hdepth, hkind]
        · simp [hdepth, hkind] at hfault
      · simp [hdepth] at hfault

namespace Batch

variable {b : Batch} {name : String}

/-- A field with a common shape is uniform, and the shape is the one that the batch has for it. -/
theorem uniform_of_commonShape {shape : Option (Nat × Bool)}
    (h : commonShape name (b.cells name) = .ok shape) :
    b.Uniform name ∧ shape.getD (0, false) = (b.depthOf name, b.isTextual name) := by
  obtain ⟨hshape, hall⟩ := commonShape_eq_ok h
  rw [filterMap_cells] at hshape hall
  have hgetD : shape.getD (0, false) = (b.depthOf name, b.isTextual name) := by
    rw [hshape, depthOf, isTextual]
    cases (b.held name).head? <;> rfl
  refine ⟨fun reading hmem => ?_, hgetD⟩
  have hreading := hall reading hmem
  rw [hreading] at hgetD
  exact Prod.mk.inj hgetD

/-- The depth that was found for all records is the depth of the field; without readings it is zero.
-/
theorem depth_of_commonShape {shape : Option (Nat × Bool)}
    (h : commonShape name (b.cells name) = .ok shape) :
    (shape.map Prod.fst).getD 0 = b.depthOf name := by
  have hdepth := congrArg Prod.fst (uniform_of_commonShape h).2
  cases shape <;> simpa using hdepth

/-- There is no shape exactly if no record holds the field. -/
theorem held_eq_nil_iff_of_shape {shape : Option (Nat × Bool)}
    (h : commonShape name (b.cells name) = .ok shape) : b.held name = [] ↔ shape = none := by
  obtain ⟨hshape, -⟩ := commonShape_eq_ok h
  rw [hshape, filterMap_cells, Option.map_eq_none_iff, List.head?_eq_none_iff]

/-- The trees of one field have one depth. -/
theorem length_levels_of_held (hu : b.Uniform name) {tree : List (List Nat)}
    (h : tree ∈ (b.held name).map fun reading => reading.repeats.levels) :
    tree.length = b.depthOf name := by
  obtain ⟨reading, hmem, rfl⟩ := List.mem_map.1 h
  exact (hu reading hmem).1

/-- The sizes that assembly pads the levels below some outer ones to. -/
theorem commonMaxima_eq (hu : b.Uniform name) (outer : Nat) :
    commonMaxima (b.depthOf name) outer (b.cells name) =
      (b.maxima name).drop outer := by
  have hlen : ∀ tree ∈ (b.held name).map fun reading => reading.repeats.levels.drop outer,
      tree.length = b.depthOf name - outer := by
    intro tree htree
    obtain ⟨reading, hmem, rfl⟩ := List.mem_map.1 htree
    rw [List.length_drop, length_levels_of_held hu (List.mem_map.2 ⟨reading, hmem, rfl⟩)]
  -- Level `k` of the trees without their outer levels is level `outer + k` of the trees.
  rw [commonMaxima, filterMap_cells, Repeats.maxima_eq hlen]
  refine List.ext_getElem (by simp) fun level hlt hlt' => ?_
  rw [List.getElem_drop]
  simp only [maxima, List.getElem_map, List.getElem_range, Repeats.levelMaximum, List.flatMap_map,
    List.getElem?_drop]

/-- The sizes of a field are large enough for each of its readings. -/
theorem bounded_of_held (hu : b.Uniform name) {reading : Reading} (h : reading ∈ b.held name) :
    Repeats.Bounded reading.repeats.levels (b.maxima name) := by
  have hmem : reading.repeats.levels ∈ (b.held name).map fun r => r.repeats.levels :=
    List.mem_map.2 ⟨reading, h, rfl⟩
  have hbounded := Repeats.bounded_maxima (fun _ => length_levels_of_held hu) hmem
  rwa [Repeats.maxima_eq fun _ => length_levels_of_held hu] at hbounded

end Batch

end ObsExport
