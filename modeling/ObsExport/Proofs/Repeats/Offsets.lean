import ObsExport.Proofs.Repeats.Positions

/-!
# Two walks through a tree of instances

`Repeats.offsets` expands a tree from the record downward and `Repeats.climb` walks it from a leaf
upward. Both count with words and fail where a number is too large for one. What they compute is said
here without that limit: the strides of a block are the volumes of the levels below
(`volumesBelow`), and `leafSlots` expands a tree with strides given.

Both walks are the positions of the leaf in disguise: where positions lead to leaf `l`,

* the slot listed for `l` is the sum of strides times positions (`getElem?_leafSlots`);
* climbing from `l` passes the same sum and ends where the positions start, if the sum is a word
  (`climb_eq`).

With the strides of a padded block that sum is the row-major slot (`offsetOf_volumesBelow`). The
sizes of the block are the largest counts of every level (`maxima_eq`), so no leaf leaves it
(`bounded_maxima`).
-/

namespace ObsExport

namespace Repeats

/-! ### Lists of runs -/

section Runs

variable {α β : Type} (len : α → Nat)

/-- Element `i` of part `n` stands behind the parts before it. -/
theorem getElem?_flatten_parts {parts : List (List β)} {n i : Nat} {part : List β}
    (hn : parts[n]? = some part) (hi : i < part.length) :
    parts.flatten[total ((parts.map List.length).take n) + i]? = part[i]? := by
  induction parts generalizing n with
  | nil => simp at hn
  | cons first parts ih =>
    rw [List.flatten_cons]
    cases n with
    | zero =>
      obtain rfl : first = part := by simpa using hn
      rw [List.take_zero, total_nil, Nat.zero_add, List.getElem?_append_left hi]
    | succ n =>
      -- Behind the first part the number is counted from its end.
      rw [List.map_cons, List.take_succ_cons, total_cons, Nat.add_assoc,
        List.getElem?_append_right (by omega), Nat.add_sub_cancel_left]
      exact ih (by simpa using hn)

private theorem map_length_runs (f : α → Nat → β) (l : List α) :
    (l.map fun a => (List.range (len a)).map (f a)).map List.length = l.map len := by
  simp [List.map_map, Function.comp_def]

/-- Element `i` of the run that element `n` of a list contributes. -/
private theorem getElem?_flatMap_runs (f : α → Nat → β) {l : List α} {n i : Nat} {a : α}
    (ha : l[n]? = some a) (hi : i < len a) :
    (l.flatMap fun a => (List.range (len a)).map (f a))[total ((l.map len).take n) + i]? =
      some (f a i) := by
  have hrun : (l.map fun a => (List.range (len a)).map (f a))[n]? =
      some ((List.range (len a)).map (f a)) := by rw [List.getElem?_map, ha]; rfl
  rw [List.flatMap_def, ← map_length_runs len f,
    getElem?_flatten_parts hrun (by simpa using hi), List.getElem?_map, List.getElem?_range hi]
  rfl

private theorem length_flatMap_runs (f : α → Nat → β) (l : List α) :
    (l.flatMap fun a => (List.range (len a)).map (f a)).length = total (l.map len) := by
  rw [List.flatMap_def, length_flatten_parts, map_length_runs]

end Runs

/-! ### From the record downward -/

/-- The sum of strides times positions. -/
def offsetOf : List Nat → List Nat → Nat
  | stride :: strides, i :: positions => i * stride + offsetOf strides positions
  | _, _ => 0

/-- Of every level the number of slots in the levels below it. -/
def volumesBelow : List Nat → List Nat
  | [] => []
  | _ :: below => volume below :: volumesBelow below

/-- The slots of the leaves below instances that have slots themselves, whatever numbers they
are. -/
def slotsFrom (bases : List Nat) : List (List Nat × Nat) → List Nat
  | [] => bases
  | (counts, stride) :: below =>
    slotsFrom
      ((bases.zip counts).flatMap fun b => (List.range b.2).map fun j => b.1 + j * stride) below

/-- The slots of all leaves. -/
def leafSlots (r : Repeats) (strides : List Nat) : List Nat := slotsFrom [0] (r.levels.zip strides)

/-- The strides of a block turn positions into slots. -/
theorem offsetOf_volumesBelow (sizes positions : List Nat) :
    offsetOf (volumesBelow sizes) positions = slot sizes positions := by
  induction sizes generalizing positions with
  | nil => rfl
  | cons m sizes ih =>
    cases positions with
    | nil => rfl
    | cons i positions => rw [volumesBelow, offsetOf, slot_cons, ih]

theorem length_volumesBelow (sizes : List Nat) : (volumesBelow sizes).length = sizes.length := by
  induction sizes with
  | nil => rfl
  | cons m sizes ih => simp [volumesBelow, ih]

/-- A block of which all slots can be counted has strides. -/
theorem strides_eq {sizes : List Nat} (hpos : ∀ m ∈ sizes, 1 ≤ m)
    (hword : volume sizes < Size.limit) : strides sizes = .ok (volumesBelow sizes) := by
  induction sizes with
  | nil => rfl
  | cons m sizes ih =>
    obtain ⟨hm, hsizes⟩ := List.forall_mem_cons.1 hpos
    have hle : volume sizes ≤ volume (m :: sizes) := Nat.le_mul_of_pos_left _ hm
    have hbelow : volume sizes < Size.limit := Nat.lt_of_le_of_lt hle hword
    rw [strides, Size.product_of_pos hsizes, Size.checked_of_lt hbelow, ok_bind, ih hsizes hbelow]
    rfl

/-- Strides that are found are the volumes of the levels below. -/
theorem eq_volumesBelow {sizes found : List Nat} (h : strides sizes = .ok found) :
    found = volumesBelow sizes := by
  induction sizes generalizing found with
  | nil => exact (Except.ok.inj h).symm
  | cons m sizes ih =>
    obtain ⟨stride, hstride, h⟩ := bind_eq_ok_iff.1 h
    obtain ⟨rest, hrest, h⟩ := bind_eq_ok_iff.1 h
    rw [← Except.ok.inj h, Size.product_eq_ok hstride, ih hrest, volumesBelow]

/-- A slot that is a word is reached by words. -/
theorem advance_eq {slot position stride : Nat} (h : slot + position * stride < Size.limit) :
    advance slot position stride = .ok (slot + position * stride) := by
  have hmoved : position * stride < Size.limit := Nat.lt_of_le_of_lt (Nat.le_add_left _ _) h
  rw [advance, Size.checked_of_lt hmoved, ok_bind, Size.checked_of_lt h]

/-- A slot that is reached is a word. -/
theorem advance_eq_ok {slot position stride next : Nat}
    (h : advance slot position stride = .ok next) :
    next = slot + position * stride ∧ next < Size.limit := by
  obtain ⟨moved, hmoved, h⟩ := bind_eq_ok_iff.1 h
  obtain ⟨-, rfl⟩ := Size.checked_eq_ok_iff.1 hmoved
  obtain ⟨hword, rfl⟩ := Size.checked_eq_ok_iff.1 h
  exact ⟨rfl, hword⟩

/-- Slots that are found from words are those of the leaves, and words. -/
theorem offsetsFrom_eq_ok {bases found : List Nat} {levels : List (List Nat × Nat)}
    (hwords : ∀ b ∈ bases, b < Size.limit) (h : offsetsFrom bases levels = .ok found) :
    found = slotsFrom bases levels ∧ ∀ s ∈ found, s < Size.limit := by
  induction levels generalizing bases with
  | nil =>
    obtain rfl := Except.ok.inj h
    exact ⟨rfl, hwords⟩
  | cons level below ih =>
    obtain ⟨counts, stride⟩ := level
    obtain ⟨runs, hruns, h⟩ := bind_eq_ok_iff.1 h
    -- Every run is found slot by slot.
    have hslots : runs = (bases.zip counts).map fun b =>
        (List.range b.2).map fun j => b.1 + j * stride :=
      eq_map_of_mapM (fun _ _ => eq_map_of_mapM fun _ _ hs => (advance_eq_ok hs).1) hruns
    have hnext : ∀ s ∈ runs.flatten, s < Size.limit := by
      intro s hs
      obtain ⟨run, hrun, hs⟩ := List.mem_flatten.1 hs
      obtain ⟨b, -, hrun⟩ := exists_of_mem_mapM hruns hrun
      obtain ⟨j, -, hs⟩ := exists_of_mem_mapM hrun hs
      exact (advance_eq_ok hs).2
    obtain ⟨rfl, hfound⟩ := ih hnext h
    exact ⟨by rw [slotsFrom, List.flatMap_def, hslots], hfound⟩

/-- If the offsets are found, they are the slots of the leaves, and each is a machine word. -/
theorem eq_leafSlots {r : Repeats} {strides found : List Nat} (h : r.offsets strides = .ok found) :
    found = r.leafSlots strides ∧ ∀ s ∈ found, s < Size.limit :=
  offsetsFrom_eq_ok (by simp [Size.limit]) h

/-- The offset of a leaf lies the sum of strides times positions behind that of the instance from
which the positions lead to it. -/
theorem getElem?_slotsFrom {bases strides positions : List Nat} {levels : List (List Nat)}
    {n l base : Nat} (hc : ConsistentFrom bases.length levels)
    (hs : strides.length = levels.length) (hb : bases[n]? = some base)
    (h : reach? n levels positions = some l) :
    (slotsFrom bases (levels.zip strides))[l]? = some (base + offsetOf strides positions) := by
  induction levels generalizing bases strides positions n base with
  | nil =>
    cases positions with
    | nil =>
      obtain rfl : n = l := by simpa [reach?] using h
      obtain rfl : strides = [] := List.length_eq_zero_iff.1 hs
      exact hb
    | cons i inner => simp [reach?] at h
  | cons counts below ih =>
    obtain ⟨i, inner, rfl, hi, hl⟩ := reach?_cons_eq_some.1 h
    obtain ⟨hlen, _, hbelow⟩ := hc
    cases strides with
    | nil => simp at hs
    | cons stride strides =>
      have hcounts : (bases.zip counts).map Prod.snd = counts :=
        List.map_snd_zip (Nat.le_of_eq hlen)
      have hcount : ∃ c, counts[n]? = some c ∧ i < c := by
        cases hn : counts[n]? with
        | none => simp [hn] at hi
        | some c => exact ⟨c, rfl, by simpa [hn] using hi⟩
      obtain ⟨c, hn, hic⟩ := hcount
      have hpair : (bases.zip counts)[n]? = some (base, c) := by
        simp [List.getElem?_zip_eq_some, hb, hn]
      -- One level down the bases are the runs of all instances, and the walk goes on from the
      -- instance that `i` names, whose base is its own offset.
      rw [List.zip_cons_cons, slotsFrom, offsetOf, ← Nat.add_assoc]
      refine ih (n := total (counts.take n) + i) ?_ (by simpa using hs) ?_ hl
      · rwa [length_flatMap_runs, hcounts]
      · have hrun := getElem?_flatMap_runs Prod.snd (fun b j => b.1 + j * stride) hpair hic
        rwa [hcounts] at hrun

theorem length_slotsFrom {bases strides : List Nat} {levels : List (List Nat)}
    (hc : ConsistentFrom bases.length levels) (hs : strides.length = levels.length) :
    (slotsFrom bases (levels.zip strides)).length = leavesBelow bases.length levels := by
  induction levels generalizing bases strides with
  | nil => rfl
  | cons counts below ih =>
    obtain ⟨hlen, _, hbelow⟩ := hc
    cases strides with
    | nil => simp at hs
    | cons stride strides =>
      have hlength : ((bases.zip counts).flatMap fun b =>
          (List.range b.2).map fun j => b.1 + j * stride).length = total counts := by
        rw [length_flatMap_runs, List.map_snd_zip (Nat.le_of_eq hlen)]
      rw [List.zip_cons_cons, slotsFrom, ih (hlength ▸ hbelow) (by simpa using hs), hlength,
        leavesBelow_cons]

/-- The offset listed for a leaf is the sum of strides times positions. -/
theorem getElem?_leafSlots {r : Repeats} {strides positions : List Nat} {l : Nat}
    (hc : r.Consistent) (hs : strides.length = r.depth) (h : r.leafAt? positions = some l) :
    (r.leafSlots strides)[l]? = some (offsetOf strides positions) := by
  have hfrom := @getElem?_slotsFrom [0] strides positions r.levels 0 l 0 hc hs rfl h
  rwa [Nat.zero_add] at hfrom

/-- There is one slot for each leaf. -/
theorem length_leafSlots {r : Repeats} {strides : List Nat} (hc : r.Consistent)
    (hs : strides.length = r.depth) : (r.leafSlots strides).length = r.leafCount :=
  @length_slotsFrom [0] strides r.levels hc hs

/-- Positions lead to exactly the leaves that the counts imply. -/
theorem lt_leafCount {r : Repeats} {positions : List Nat} {l : Nat}
    (h : r.leafAt? positions = some l) : l < r.leafCount :=
  lt_leavesBelow Nat.one_pos h

/-- Each leaf is at the end of a path. -/
theorem exists_leafAt? {r : Repeats} {l : Nat} (hc : r.Consistent) (hl : l < r.leafCount) :
    ∃ positions, r.leafAt? positions = some l := by
  obtain ⟨n, positions, hn, h⟩ := exists_reach? hc hl
  obtain rfl : n = 0 := by omega
  exact ⟨positions, h⟩

/-- Every leaf is reached by one list of positions and no other. -/
theorem existsUnique_leafAt? {r : Repeats} {l : Nat} (hc : r.Consistent) (hl : l < r.leafCount) :
    ∃! positions, r.leafAt? positions = some l := by
  obtain ⟨positions, h⟩ := exists_leafAt? hc hl
  exact ⟨positions, h, fun _ h' => (reach?_injective h' h).2⟩

/-- With the strides of a block every entry of the list is the slot of a leaf. -/
theorem exists_of_mem_leafSlots {r : Repeats} {sizes : List Nat} {s : Nat} (hc : r.Consistent)
    (hb : Bounded r.levels sizes) (h : s ∈ r.leafSlots (volumesBelow sizes)) :
    ∃ positions l, r.leafAt? positions = some l ∧ slot sizes positions = s := by
  have hs : (volumesBelow sizes).length = r.depth :=
    (length_volumesBelow sizes).trans hb.length_eq.symm
  obtain ⟨l, hl⟩ := List.mem_iff_getElem?.1 h
  have hlt : l < r.leafCount := by
    rw [← length_leafSlots hc hs]
    exact (List.getElem?_eq_some_iff.1 hl).1
  obtain ⟨positions, hp⟩ := exists_leafAt? hc hlt
  rw [getElem?_leafSlots hc hs hp, offsetOf_volumesBelow, Option.some.injEq] at hl
  exact ⟨positions, l, hp, hl⟩

/-! ### From a leaf upward -/

/-- The instances of a level are numbered run by run. -/
theorem getElem?_instances {counts : List Nat} {n i : Nat} (hi : i < counts[n]?.getD 0) :
    (instances counts)[total (counts.take n) + i]? = some (n, i) := by
  cases hn : counts[n]? with
  | none => simp [hn] at hi
  | some c =>
    -- Every instance is listed with the number of its run, so the runs are those of `zipIdx`.
    have hpair : counts.zipIdx[n]? = some (c, n) := by simp [List.getElem?_zipIdx, hn]
    have hrun := getElem?_flatMap_runs Prod.fst (fun c j => (c.2, j)) (i := i) hpair
      (by simpa [hn] using hi)
    rwa [List.zipIdx_map_fst] at hrun

/-- One level of a climb. -/
private theorem climbFrom_cons {counts : List Nat} {index parent position : Nat}
    (h : (instances counts)[index]? = some (parent, position)) (slot stride : Nat)
    (above : List (List Nat × Nat)) :
    climbFrom index slot ((counts, stride) :: above) =
      advance slot position stride >>= fun next => climbFrom parent next above := by
  rw [climbFrom, h]
  rfl

/-- Climbing through some levels and on through those around them. -/
private theorem climbFrom_append (index slot : Nat) (inner outer : List (List Nat × Nat)) :
    climbFrom index slot (inner ++ outer) =
      climbFrom index slot inner >>= fun a => climbFrom a.1 a.2 outer := by
  induction inner generalizing index slot with
  | nil => rfl
  | cons level inner ih =>
    obtain ⟨counts, stride⟩ := level
    rw [List.cons_append]
    cases hi : (instances counts)[index]? with
    | none => rw [climbFrom, climbFrom, hi, required_none, error_bind, error_bind, error_bind]
    | some found =>
      rw [climbFrom_cons hi, climbFrom_cons hi]
      cases advance slot found.2 stride with
      | error e => rfl
      | ok next => exact ih found.1 next

/-- Climbing from a leaf ends at the instance from which its positions lead to it, and passes the
sum of strides times positions. -/
theorem climb_eq {levels : List (List Nat)} {strides positions : List Nat} {n l : Nat}
    (hs : strides.length = levels.length) (h : reach? n levels positions = some l)
    (hword : offsetOf strides positions < Size.limit) :
    climb levels strides l = .ok (n, offsetOf strides positions) := by
  induction levels generalizing strides positions n with
  | nil =>
    cases positions with
    | nil =>
      obtain rfl : n = l := by simpa [reach?] using h
      obtain rfl : strides = [] := List.length_eq_zero_iff.1 hs
      rfl
    | cons i inner => simp [reach?] at h
  | cons counts below ih =>
    obtain ⟨i, inner, rfl, hi, hl⟩ := reach?_cons_eq_some.1 h
    cases strides with
    | nil => simp at hs
    | cons stride strides =>
      -- Climbing begins at the innermost level, so this level is the last one to be passed.
      rw [offsetOf, Nat.add_comm] at hword
      have hbelow : climb below strides l = .ok (_, offsetOf strides inner) :=
        ih (by simpa using hs) hl (Nat.lt_of_le_of_lt (Nat.le_add_right _ _) hword)
      unfold climb at hbelow ⊢
      rw [List.zip_cons_cons, List.reverse_cons, climbFrom_append, hbelow, ok_bind,
        climbFrom_cons (getElem?_instances hi), advance_eq hword, ok_bind, climbFrom, offsetOf,
        Nat.add_comm]

/-- Without strides nothing is passed. -/
private theorem offsetOf_zeros (levels : List (List Nat)) (positions : List Nat) :
    offsetOf (levels.map fun _ => 0) positions = 0 := by
  induction levels generalizing positions with
  | nil => rfl
  | cons counts below ih =>
    cases positions with
    | nil => rfl
    | cons i inner => rw [List.map_cons, offsetOf, ih, Nat.mul_zero]

/-- The instance around a leaf is the one from which its positions lead to it. -/
theorem ancestor_eq {levels : List (List Nat)} {positions : List Nat} {n l : Nat}
    (h : reach? n levels positions = some l) : ancestor levels l = .ok n := by
  have hword : offsetOf (levels.map fun _ => 0) positions < Size.limit := by
    rw [offsetOf_zeros]
    decide
  rw [ancestor, climb_eq (List.length_map _) h hword]
  rfl

/-! ### The largest counts -/

/-- The largest count of a level over some trees, and at least one. -/
def levelMaximum (trees : List (List (List Nat))) (level : Nat) : Nat :=
  (trees.flatMap fun tree => tree[level]?.getD []).foldl max 1

/-- Offers raise the maximum of each level to the largest of their counts there. -/
theorem getElem?_foldl_raise {trees : List (List (List Nat))} {sizes : List Nat}
    (h : ∀ tree ∈ trees, tree.length = sizes.length) (level : Nat) :
    (trees.foldl raise sizes)[level]? =
      sizes[level]?.map fun m => (trees.flatMap fun tree => tree[level]?.getD []).foldl max m := by
  induction trees generalizing sizes with
  | nil => simp
  | cons tree trees ih =>
    have hlen : tree.length = sizes.length := h tree (by simp)
    have hraise : (raise sizes tree).length = sizes.length := by simp [raise, hlen]
    rw [List.foldl_cons, ih fun t ht => hraise ▸ h t (by simp [ht])]
    cases hm : sizes[level]? with
    | none =>
      rw [List.getElem?_eq_none_iff] at hm
      rw [List.getElem?_eq_none_iff.2 (by omega)]
      rfl
    | some m =>
      -- All trees are as long as the sizes, so the level takes part in every step.
      obtain ⟨hlt, _⟩ := List.getElem?_eq_some_iff.1 hm
      have htree : tree[level]? = some tree[level] := List.getElem?_eq_getElem (hlen ▸ hlt)
      simp [raise, List.getElem?_zipWith, hm, htree, List.foldl_append]

/-- The sizes of the padded block, level by level. -/
theorem maxima_eq {depth : Nat} {trees : List (List (List Nat))}
    (h : ∀ tree ∈ trees, tree.length = depth) :
    maxima depth trees = (List.range depth).map (levelMaximum trees) := by
  refine List.ext_getElem? fun level => ?_
  rw [maxima, getElem?_foldl_raise (by simpa using h)]
  by_cases hlt : level < depth
  · simp [hlt, levelMaximum]
  · rw [List.getElem?_eq_none_iff.2 (by simpa using hlt),
      List.getElem?_eq_none_iff.2 (by simpa using hlt)]
    rfl

private theorem le_foldl_max (counts : List Nat) (m : Nat) :
    m ≤ counts.foldl max m ∧ ∀ c ∈ counts, c ≤ counts.foldl max m := by
  induction counts generalizing m with
  | nil => simp
  | cons c counts ih =>
    obtain ⟨hm, hall⟩ := ih (max m c)
    refine ⟨by rw [List.foldl_cons]; omega, fun c' hc' => ?_⟩
    rw [List.foldl_cons]
    rcases List.mem_cons.1 hc' with rfl | hc'
    · omega
    · exact hall c' hc'

/-- No count of a tree exceeds the largest count of its level. -/
theorem le_levelMaximum {trees : List (List (List Nat))} {tree : List (List Nat)} {level c : Nat}
    {counts : List Nat} (ht : tree ∈ trees) (hl : tree[level]? = some counts) (hc : c ∈ counts) :
    c ≤ levelMaximum trees level := by
  refine (le_foldl_max _ 1).2 c (List.mem_flatMap.2 ⟨tree, ht, ?_⟩)
  simpa [hl] using hc

/-- The largest count of a level is no larger than what no count exceeds. -/
theorem levelMaximum_le {trees : List (List (List Nat))} {level m : Nat} (hm : 1 ≤ m)
    (h : ∀ tree ∈ trees, ∀ counts, tree[level]? = some counts → ∀ c ∈ counts, c ≤ m) :
    levelMaximum trees level ≤ m := by
  -- A running maximum that starts below the bound stays below it.
  have hfold : ∀ (counts : List Nat) (start : Nat), start ≤ m → (∀ c ∈ counts, c ≤ m) →
      counts.foldl max start ≤ m := by
    intro counts
    induction counts with
    | nil => exact fun _ hstart _ => hstart
    | cons c counts ih =>
      intro start hstart hall
      obtain ⟨hc, hall⟩ := List.forall_mem_cons.1 hall
      exact ih _ (Nat.max_le.2 ⟨hstart, hc⟩) hall
  refine hfold _ 1 hm fun c hc => ?_
  obtain ⟨tree, htree, hc⟩ := List.mem_flatMap.1 hc
  cases hcounts : tree[level]? with
  | none => simp [hcounts] at hc
  | some counts => exact h tree htree counts hcounts c (by simpa [hcounts] using hc)

/-- No maximum is zero. -/
theorem levelMaximum_pos (trees : List (List (List Nat))) (level : Nat) :
    0 < levelMaximum trees level :=
  (le_foldl_max _ 1).1

/-- The padded block is large enough for each of the trees. -/
theorem bounded_maxima {depth : Nat} {trees : List (List (List Nat))} {tree : List (List Nat)}
    (h : ∀ t ∈ trees, t.length = depth) (ht : tree ∈ trees) :
    Bounded tree (maxima depth trees) := by
  rw [Bounded, maxima_eq h, List.forall₂_iff_get]
  refine ⟨by simp [h tree ht], fun level hlt hlt' c hc => ?_⟩
  simp only [List.get_eq_getElem, List.getElem_map, List.getElem_range]
  exact le_levelMaximum ht (List.getElem?_eq_getElem hlt) hc

end Repeats

end ObsExport
