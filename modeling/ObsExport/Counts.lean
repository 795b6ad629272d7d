/-!
# Sums and products of counts

A level of a tree has as many instances as its counts add up to (`total`), and a block has as many
slots as the product of its sizes (`volume`). Both follow the list, one equation per constructor.
-/

namespace ObsExport

/-- The sum of some counts. -/
def total : List Nat → Nat
  | [] => 0
  | n :: rest => n + total rest

/-- The number of slots of a block with the given sizes. Without sizes there is one slot. -/
def volume : List Nat → Nat
  | [] => 1
  | n :: rest => n * volume rest

@[simp] theorem total_nil : total [] = 0 := rfl

@[simp] theorem total_cons (n : Nat) (rest : List Nat) : total (n :: rest) = n + total rest := rfl

/-- Two lists add up to the sum of what each adds up to. -/
@[simp] theorem total_append (xs ys : List Nat) : total (xs ++ ys) = total xs + total ys := by
  induction xs with
  | nil => simp
  | cons n xs ih => simp [ih, Nat.add_assoc]

/-- Parts that are put together have as many elements as all of them have. -/
theorem length_flatten_parts {α : Type} (parts : List (List α)) :
    parts.flatten.length = total (parts.map List.length) := by
  induction parts with
  | nil => rfl
  | cons part parts ih => simp [ih]

@[simp] theorem volume_nil : volume [] = 1 := rfl

@[simp] theorem volume_cons (n : Nat) (rest : List Nat) :
    volume (n :: rest) = n * volume rest := rfl

/-- The volume of a block is that of its outer levels times that of its inner ones. -/
@[simp] theorem volume_append (xs ys : List Nat) : volume (xs ++ ys) = volume xs * volume ys := by
  induction xs with
  | nil => simp
  | cons n xs ih => simp [ih, Nat.mul_assoc]

/-- A block has a slot if no level is empty. -/
theorem volume_pos {sizes : List Nat} (h : ∀ size ∈ sizes, 0 < size) : 0 < volume sizes := by
  induction sizes with
  | nil => simp
  | cons size sizes ih =>
    exact Nat.mul_pos (h size (by simp)) (ih fun s hs => h s (by simp [hs]))

/-- A block has one slot exactly if all its sizes are one. -/
theorem volume_eq_one_iff {sizes : List Nat} : volume sizes = 1 ↔ ∀ size ∈ sizes, size = 1 := by
  induction sizes with
  | nil => simp
  | cons size sizes ih =>
    rw [volume_cons, List.forall_mem_cons, ← ih]
    constructor
    · intro h
      exact ⟨Nat.eq_one_of_mul_eq_one_right h, Nat.eq_one_of_mul_eq_one_left h⟩
    · rintro ⟨hsize, hrest⟩
      rw [hsize, hrest]

end ObsExport
