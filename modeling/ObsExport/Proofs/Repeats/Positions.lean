import ObsExport.Batch.Repeats
import Mathlib.Data.List.Forall2
import Mathlib.Data.Nat.Init

/-!
# Positions in a tree of instances

An instance of a tree is reached by its *positions*, one per level and outermost first, each below
the repeat count that is met on the way. `Repeats.reach?` follows positions downward and answers
the number of the instance in its level, and `Repeats.leafAt?` does so from the record to a leaf.

Positions and leaves are two names of one thing:

* `exists_reach?` and `lt_leavesBelow`: positions lead exactly to the leaves that the counts imply;
* `reach?_injective`: no two lists of positions lead to one leaf.

`slot` is the row-major number of positions in a block of given sizes. Positions within the sizes
have slots within the block (`slot_lt`) and different ones have different slots (`slot_injective`).
Both notions respect a cut between two levels (`reach?_append`, `slot_append`), which is what lets
the outer levels become rows and the inner ones columns.
-/

namespace ObsExport

namespace Repeats

/-! ### The instances of one level -/

/-- The instances below `n` start behind those below its predecessors and stay inside the level. -/
theorem total_take_add_lt {counts : List Nat} {n i : Nat} (h : i < counts[n]?.getD 0) :
    total (counts.take n) + i < total counts := by
  induction counts generalizing n with
  | nil => simp at h
  | cons c counts ih =>
    cases n with
    | zero =>
      simp only [List.getElem?_cons_zero, Option.getD_some] at h
      simp only [List.take_zero, total_nil, total_cons]
      omega
    | succ n =>
      have := ih (by simpa using h)
      simp only [List.take_succ_cons, total_cons]
      omega

/-- Every instance of a level stands below one of the instances above. -/
theorem exists_of_lt_total {counts : List Nat} {m : Nat} (h : m < total counts) :
    ∃ n i, n < counts.length ∧ i < counts[n]?.getD 0 ∧ total (counts.take n) + i = m := by
  induction counts generalizing m with
  | nil => simp at h
  | cons c counts ih =>
    by_cases hm : m < c
    · exact ⟨0, m, by simp, by simpa using hm, by simp⟩
    · -- Behind the first run the search goes on with what is left of `m`.
      rw [total_cons] at h
      obtain ⟨n, i, hn, hi, heq⟩ := ih (m := m - c) (by omega)
      refine ⟨n + 1, i, by simpa using hn, by simpa using hi, ?_⟩
      simp only [List.take_succ_cons, total_cons]
      omega

/-- A running number among the entries of a level tells the parent and the position. -/
theorem eq_of_total_take_add {counts : List Nat} {n k i j : Nat} (hi : i < counts[n]?.getD 0)
    (hj : j < counts[k]?.getD 0) (h : total (counts.take n) + i = total (counts.take k) + j) :
    n = k ∧ i = j := by
  induction counts generalizing n k with
  | nil => simp at hi
  | cons c counts ih =>
    -- Only runs of one number can meet: a later run starts where the first one has ended.
    cases n with
    | zero =>
      cases k with
      | zero => simpa using h
      | succ k =>
        simp only [List.getElem?_cons_zero, Option.getD_some] at hi
        simp only [List.take_zero, total_nil, List.take_succ_cons, total_cons] at h
        omega
    | succ n =>
      cases k with
      | zero =>
        simp only [List.getElem?_cons_zero, Option.getD_some] at hj
        simp only [List.take_zero, total_nil, List.take_succ_cons, total_cons] at h
        omega
      | succ k =>
        simp only [List.take_succ_cons, total_cons] at h
        obtain ⟨rfl, rfl⟩ := ih (by simpa using hi) (by simpa using hj) (by omega)
        exact ⟨rfl, rfl⟩

/-! ### Following positions -/

/-- The instance that positions lead to from instance `n`, level by level. The instances below one
stand behind all those below its predecessors. -/
def reach? (n : Nat) : List (List Nat) → List Nat → Option Nat
  | [], [] => some n
  | counts :: below, i :: positions =>
    if i < counts[n]?.getD 0 then reach? (total (counts.take n) + i) below positions else .none
  | _, _ => .none

/-- The leaf that positions lead to from the record. -/
def leafAt? (r : Repeats) (positions : List Nat) : Option Nat := reach? 0 r.levels positions

/-- The number of leaves below `n` instances. -/
def leavesBelow (n : Nat) (levels : List (List Nat)) : Nat := (levels.getLast?.map total).getD n

/-- The entries of the first level are the parents of the next. -/
theorem leavesBelow_cons (n : Nat) (counts : List Nat) (below : List (List Nat)) :
    leavesBelow n (counts :: below) = leavesBelow (total counts) below := by
  unfold leavesBelow
  cases below with
  | nil => rfl
  | cons counts' below =>
    rw [List.getLast?_cons_cons]
    cases h : (counts' :: below).getLast? with
    | none => simp at h
    | some last => rfl

/-- A path goes to one of the entries of its parent and on from there. -/
theorem reach?_cons_eq_some {n l : Nat} {counts : List Nat} {below : List (List Nat)}
    {positions : List Nat} :
    reach? n (counts :: below) positions = some l ↔
      ∃ i inner, positions = i :: inner ∧ i < counts[n]?.getD 0 ∧
        reach? (total (counts.take n) + i) below inner = some l := by
  cases positions with
  | nil => simp [reach?]
  | cons i inner =>
    rw [reach?]
    split
    -- The first position must be below the count of the parent.
    next h =>
      constructor
      · exact fun hl => ⟨i, inner, rfl, h, hl⟩
      · rintro ⟨_, _, ⟨rfl, rfl⟩, _, hl⟩
        exact hl
    next h =>
      simp only [reduceCtorEq, false_iff]
      rintro ⟨_, _, ⟨rfl, rfl⟩, hlt, _⟩
      exact h hlt

/-- A path has one position for each level. -/
theorem length_of_reach? {n l : Nat} {levels : List (List Nat)} {positions : List Nat}
    (h : reach? n levels positions = some l) : positions.length = levels.length := by
  induction levels generalizing n positions with
  | nil => cases positions <;> simp_all [reach?]
  | cons counts below ih =>
    obtain ⟨i, inner, rfl, _, hl⟩ := reach?_cons_eq_some.1 h
    simp [ih hl]

/-- Positions lead to leaves that the counts imply. -/
theorem lt_leavesBelow {m n l : Nat} {levels : List (List Nat)} {positions : List Nat} (hn : n < m)
    (h : reach? n levels positions = some l) : l < leavesBelow m levels := by
  -- From level to level the invariant is that the instance is one of those that the level above
  -- counts.
  induction levels generalizing m n positions with
  | nil =>
    cases positions with
    | nil =>
      simp only [reach?, Option.some.injEq] at h
      simpa [leavesBelow, ← h] using hn
    | cons i inner => simp [reach?] at h
  | cons counts below ih =>
    obtain ⟨i, inner, rfl, hi, hl⟩ := reach?_cons_eq_some.1 h
    rw [leavesBelow_cons]
    exact ih (total_take_add_lt hi) hl

/-- Every leaf that the counts imply is reached. -/
theorem exists_reach? {m l : Nat} {levels : List (List Nat)} (hc : ConsistentFrom m levels)
    (hl : l < leavesBelow m levels) :
    ∃ n positions, n < m ∧ reach? n levels positions = some l := by
  induction levels generalizing m with
  | nil => exact ⟨l, [], by simpa [leavesBelow] using hl, rfl⟩
  | cons counts below ih =>
    obtain ⟨hlen, _, hbelow⟩ := hc
    rw [leavesBelow_cons] at hl
    -- The leaf is below some instance of the level, and that one is below one of the `m`.
    obtain ⟨k, inner, hk, hinner⟩ := ih hbelow hl
    obtain ⟨n, i, hn, hi, rfl⟩ := exists_of_lt_total hk
    exact ⟨n, i :: inner, hlen ▸ hn, reach?_cons_eq_some.2 ⟨i, inner, rfl, hi, hinner⟩⟩

/-- A leaf is reached from one instance and by one list of positions only. -/
theorem reach?_injective {n k l : Nat} {levels : List (List Nat)} {p q : List Nat}
    (hp : reach? n levels p = some l) (hq : reach? k levels q = some l) : n = k ∧ p = q := by
  induction levels generalizing n k p q with
  | nil =>
    cases p <;> cases q <;> simp_all [reach?]
  | cons counts below ih =>
    obtain ⟨i, p, rfl, hi, hp⟩ := reach?_cons_eq_some.1 hp
    obtain ⟨j, q, rfl, hj, hq⟩ := reach?_cons_eq_some.1 hq
    -- From the leaf upward: the inner positions agree, so both come through one instance.
    obtain ⟨heq, rfl⟩ := ih hp hq
    obtain ⟨rfl, rfl⟩ := eq_of_total_take_add hi hj heq
    exact ⟨rfl, rfl⟩

/-- Following positions through a cut between two levels. -/
theorem reach?_append {n : Nat} {outer inner : List (List Nat)} {p q : List Nat}
    (h : p.length = outer.length) :
    reach? n (outer ++ inner) (p ++ q) = (reach? n outer p).bind fun k => reach? k inner q := by
  induction outer generalizing n p with
  | nil =>
    obtain rfl : p = [] := List.length_eq_zero_iff.1 h
    rfl
  | cons counts outer ih =>
    cases p with
    | nil => simp at h
    | cons i p =>
      simp only [List.cons_append, reach?]
      split
      · exact ih (by simpa using h)
      · rfl

/-- Following positions to an instance of the level `cut`, and on from there. -/
theorem exists_reach?_cut {n l : Nat} {levels : List (List Nat)} {positions : List Nat}
    (h : reach? n levels positions = some l) (cut : Nat) :
    ∃ k, reach? n (levels.take cut) (positions.take cut) = some k ∧
      reach? k (levels.drop cut) (positions.drop cut) = some l := by
  have hlen : (positions.take cut).length = (levels.take cut).length := by
    rw [List.length_take, List.length_take, length_of_reach? h]
  -- The levels and the positions are their two parts put together again.
  have happend := @reach?_append n _ (levels.drop cut) _ (positions.drop cut) hlen
  rw [List.take_append_drop, List.take_append_drop, h] at happend
  exact Option.bind_eq_some_iff.1 happend.symm

/-! ### Slots of a padded block -/

/-- The row-major number of positions in a block of given sizes. -/
def slot : List Nat → List Nat → Nat
  | _ :: sizes, i :: positions => i * volume sizes + slot sizes positions
  | _, _ => 0

@[simp] theorem slot_cons (m i : Nat) (sizes positions : List Nat) :
    slot (m :: sizes) (i :: positions) = i * volume sizes + slot sizes positions := rfl

/-- A place in a piece of the whole is a place in the whole. -/
theorem mul_add_lt {w a b i : Nat} (ha : a < b) (hi : i < w) : a * w + i < b * w := by
  rw [Nat.mul_comm a]
  exact Nat.mul_add_lt_mul_of_lt_of_lt ha hi

/-- Positions that are in range have a slot in the record. -/
theorem slot_lt {sizes positions : List Nat} (h : List.Forall₂ (· < ·) positions sizes) :
    slot sizes positions < volume sizes := by
  induction h with
  | nil => simp [slot]
  | @cons i m positions sizes him _ ih =>
    rw [slot_cons, volume_cons]
    exact mul_add_lt him ih

/-- The number of a piece and the place in it are determined by the place in the whole. -/
theorem eq_of_mul_add {w a b i j : Nat} (hi : i < w) (hj : j < w) (h : a * w + i = b * w + j) :
    a = b ∧ i = j := by
  have hdiv : ∀ c k, k < w → (c * w + k) / w = c := fun c k hk => by
    rw [Nat.mul_comm, Nat.mul_add_div (by omega), Nat.div_eq_of_lt hk, Nat.add_zero]
  have hab : a = b := by rw [← hdiv a i hi, h, hdiv b j hj]
  subst hab
  exact ⟨rfl, by omega⟩

/-- Different positions in range have different slots. -/
theorem slot_injective {sizes p q : List Nat} (hp : List.Forall₂ (· < ·) p sizes)
    (hq : List.Forall₂ (· < ·) q sizes) (h : slot sizes p = slot sizes q) : p = q := by
  induction hp generalizing q with
  | nil => cases hq; rfl
  | cons _ hp ih =>
    cases hq with
    | cons _ hq =>
      -- The inner slot is less than the volume by which the outer position is multiplied.
      rw [slot_cons, slot_cons] at h
      obtain ⟨rfl, hinner⟩ := eq_of_mul_add (slot_lt hp) (slot_lt hq) h
      rw [ih hq hinner]

/-- The slot of positions through a cut between two levels. -/
theorem slot_append {outer inner p q : List Nat} (h : p.length = outer.length) :
    slot (outer ++ inner) (p ++ q) = slot outer p * volume inner + slot inner q := by
  induction outer generalizing p with
  | nil =>
    obtain rfl : p = [] := List.length_eq_zero_iff.1 h
    simp [slot]
  | cons m outer ih =>
    cases p with
    | nil => simp at h
    | cons i p =>
      simp only [List.cons_append, slot_cons, volume_append]
      rw [ih (by simpa using h), Nat.add_mul, Nat.mul_assoc, Nat.add_assoc]

/-- The slot of positions by the part of the block in which it lies and the place in that part. -/
theorem slot_cut {sizes positions : List Nat} (h : positions.length = sizes.length) (cut : Nat) :
    slot sizes positions =
      slot (sizes.take cut) (positions.take cut) * volume (sizes.drop cut) +
        slot (sizes.drop cut) (positions.drop cut) := by
  have hlen : (positions.take cut).length = (sizes.take cut).length := by
    rw [List.length_take, List.length_take, h]
  have happend := @slot_append _ (sizes.drop cut) _ (positions.drop cut) hlen
  rwa [List.take_append_drop, List.take_append_drop] at happend

/-- No count of a tree exceeds the size of its level. -/
def Bounded (levels : List (List Nat)) (sizes : List Nat) : Prop :=
  List.Forall₂ (fun counts m => ∀ c ∈ counts, c ≤ m) levels sizes

/-- Positions stay within sizes that no count exceeds. -/
theorem within_of_reach? {n l : Nat} {levels : List (List Nat)} {sizes positions : List Nat}
    (hs : Bounded levels sizes) (h : reach? n levels positions = some l) :
    List.Forall₂ (· < ·) positions sizes := by
  induction hs generalizing n positions with
  | nil =>
    cases positions with
    | nil => exact .nil
    | cons i inner => simp [reach?] at h
  | @cons counts m below sizes hm _ ih =>
    obtain ⟨i, inner, rfl, hi, hl⟩ := reach?_cons_eq_some.1 h
    refine .cons ?_ (ih hl)
    cases hn : counts[n]? with
    | none => simp [hn] at hi
    | some c =>
      have hle := hm c (List.mem_iff_getElem?.2 ⟨n, hn⟩)
      simp only [hn, Option.getD_some] at hi
      omega

end Repeats

end ObsExport
