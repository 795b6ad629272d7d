import ObsExport.Attempts
import ObsExport.Counts

/-!
# Sizes that can be handled

Sizes come from documents and from decoders, so they may be larger than anything that exists. Two
limits apply. A size must be a 64-bit word, and so must every number on the way to it
(`Size.checked`, `Size.product`). A list must not take more bytes than can be addressed, which
depends on what its entries are (`Size.Entry`), and this is asked before the list is made
(`Size.reserve`).

Not every list needs to be asked for. Where one list is made of another, entry by entry, the
entries of the other one are in memory, and memory never holds so many that the new list would be
too large. A list is asked for if its length is a number that no list of that length backs: a
product of sizes, the height of a grid without columns, the number of rows that are listed over and
over. `Size.reserveBeyond` asks only for what exceeds the entries that are there.

A product that succeeds is the volume of its factors (`product_eq_ok`). It may fail although the
volume is small, since a factor zero helps only the factors behind it; without such a factor only
the volume matters (`product_of_pos`).
-/

namespace ObsExport.Size

/-- The first number that is not a 64-bit word. -/
def limit : Nat := 0x10000000000000000

/-- The first number of bytes that no list takes. -/
def addressable : Nat := 0x8000000000000000

/-- What the entries of a list are. -/
inductive Entry where
  | flag
  | number
  /-- A number that may be missing. -/
  | optional
  /-- A column of a variable, which is a reference to its values. -/
  | column
  /-- A text or a list: where its characters or entries are, how many of them there are, and for
  how many there is room. -/
  | text
deriving DecidableEq

/-- The number of bytes of an entry. -/
def Entry.bytes : Entry → Nat
  | flag => 1
  | number => 8
  | optional => 16
  | column => 16
  | text => 24

/-- Whether a list can have a number of entries. -/
def Room (entry : Entry) (entries : Nat) : Prop := entries * entry.bytes < addressable

instance (entry : Entry) (entries : Nat) : Decidable (Room entry entries) :=
  inferInstanceAs (Decidable (_ < _))

/-- Whether a list can have a number of entries, given how many entries are there already. -/
def Backed (there : Nat) (entry : Entry) (entries : Nat) : Prop :=
  entries ≤ there ∨ Room entry entries

instance (there : Nat) (entry : Entry) (entries : Nat) : Decidable (Backed there entry entries) :=
  inferInstanceAs (Decidable (_ ∨ _))

/-- A number that must be a word. -/
def checked (n : Nat) : Except Error Nat := if n < limit then .ok n else .error .tooLarge

/-- The product of sizes, taken from left to right. -/
def product (sizes : List Nat) : Except Error Nat :=
  sizes.foldlM (fun slots size => checked (slots * size)) 1

/-- Asks for a list with a number of entries. -/
def reserve (entry : Entry) (entries : Nat) : Except Error Unit :=
  if Room entry entries then .ok () else .error .tooLarge

/-- Asks for a list with a number of entries, unless as many entries are there already. -/
def reserveBeyond (there : Nat) (entry : Entry) (entries : Nat) : Except Error Unit :=
  if Backed there entry entries then .ok () else .error .tooLarge

/-- Asks for a list that grows entry by entry. Whenever it is full its room is doubled, so the last
entry may need room for twice as many as came before it. -/
def reserveGrowing (entry : Entry) (entries : Nat) : Except Error Unit :=
  reserve entry (2 * (entries - 1))

/-- A number passes exactly if it is a word, and passes unchanged. -/
theorem checked_eq_ok_iff {n m : Nat} : checked n = .ok m ↔ n < limit ∧ m = n := by
  unfold checked
  split
  next h => simp [h, eq_comm]
  next h => simp [h]

/-- Numbers that are words need no check. -/
theorem checked_of_lt {n : Nat} (h : n < limit) : checked n = .ok n := if_pos h

/-- A list is granted exactly if there is room for it. -/
theorem reserve_eq_ok_iff {entry : Entry} {entries : Nat} {u : Unit} :
    reserve entry entries = .ok u ↔ Room entry entries := by
  unfold reserve
  split
  next h => simp [h]
  next h => simp [h]

/-- Room is asked for in vain only if there is too little of it. -/
theorem reserve_eq_error {entry : Entry} {entries : Nat} {e : Error}
    (h : reserve entry entries = .error e) : e = .tooLarge := by
  unfold reserve at h
  split at h
  · contradiction
  · exact (Except.error.inj h).symm

/-- A list is granted exactly if the entries that are there back it or there is room for it. -/
theorem reserveBeyond_eq_ok_iff {there entries : Nat} {entry : Entry} {u : Unit} :
    reserveBeyond there entry entries = .ok u ↔ Backed there entry entries := by
  unfold reserveBeyond
  split
  next h => simp [h]
  next h => simp [h]

/-- What is refused is refused for its size. -/
theorem reserveBeyond_eq_error {there entries : Nat} {entry : Entry} {e : Error}
    (h : reserveBeyond there entry entries = .error e) : e = .tooLarge := by
  unfold reserveBeyond at h
  split at h
  · contradiction
  · exact (Except.error.inj h).symm

/-- For nothing there is always room. -/
theorem room_zero {entry : Entry} : Room entry 0 := by
  rw [Room, Nat.zero_mul]
  decide

/-- Where there is room for some entries there is room for fewer. -/
theorem Room.mono {entry : Entry} {few many : Nat} (h : Room entry many) (hle : few ≤ many) :
    Room entry few :=
  Nat.lt_of_le_of_lt (Nat.mul_le_mul_right _ hle) h

/-- What backs many entries backs fewer. -/
theorem Backed.mono {there few many : Nat} {entry : Entry} (h : Backed there entry many)
    (hle : few ≤ many) : Backed there entry few :=
  h.imp (Nat.le_trans hle) fun hroom => hroom.mono hle

/-- What a list backs that there is room for, there is room for. -/
theorem Backed.trans {there between entries : Nat} {entry : Entry}
    (h : Backed there entry between) (h' : Backed between entry entries) :
    Backed there entry entries :=
  h'.elim h.mono .inr

/-- An entry takes a byte or more, so entries for which there is room can be counted. -/
theorem Room.lt_limit {entry : Entry} {entries : Nat} (h : Room entry entries) :
    entries < limit := by
  have hbytes : 0 < entry.bytes := by cases entry <;> decide
  calc entries ≤ entries * entry.bytes := Nat.le_mul_of_pos_right _ hbytes
    _ < addressable := h
    _ < limit := by decide

/-- A product that was taken on from some slots is these times the volume of the sizes. -/
theorem foldlM_checked {sizes : List Nat} {slots n : Nat}
    (h : sizes.foldlM (fun slots size => checked (slots * size)) slots = .ok n) :
    n = slots * volume sizes := by
  induction sizes generalizing slots with
  | nil =>
    simp only [List.foldlM_nil, pure, Except.pure, Except.ok.injEq] at h
    simp [h]
  | cons size sizes ih =>
    rw [List.foldlM_cons] at h
    cases hs : checked (slots * size) with
    | error e => simp [hs, bind, Except.bind] at h
    | ok m =>
      -- What was checked is the product itself, so the rest is taken on from there.
      obtain ⟨_, rfl⟩ := checked_eq_ok_iff.1 hs
      rw [ih (by simpa [hs, bind, Except.bind] using h), volume_cons, Nat.mul_assoc]

/-- A product that succeeds is the volume. -/
theorem product_eq_ok {sizes : List Nat} {n : Nat} (h : product sizes = .ok n) :
    n = volume sizes := by
  simpa using foldlM_checked h

/-- A product fails only for its size. -/
theorem product_eq_error {sizes : List Nat} {e : Error} (h : product sizes = .error e) :
    e = .tooLarge := by
  obtain ⟨_, size, _, slots, -, -, hsize⟩ := foldlM_eq_error h
  unfold checked at hsize
  split at hsize
  · contradiction
  · exact (Except.error.inj hsize).symm

/-- Of positive sizes the whole volume decides whether there is a product. -/
theorem product_of_pos {sizes : List Nat} (h : ∀ size ∈ sizes, 0 < size) :
    product sizes = checked (volume sizes) := by
  -- The product so far varies along the sizes, and is a word until the first overflow.
  have hgen : ∀ (sizes : List Nat) (slots : Nat), (∀ size ∈ sizes, 0 < size) → slots < limit →
      sizes.foldlM (fun slots size => checked (slots * size)) slots =
        checked (slots * volume sizes) := by
    intro sizes
    induction sizes with
    | nil =>
      intro slots _ hslots
      simp [checked, hslots, pure, Except.pure]
    | cons size sizes ih =>
      intro slots hpos hslots
      have hrest : ∀ s ∈ sizes, 0 < s := fun s hs => hpos s (by simp [hs])
      rw [List.foldlM_cons, volume_cons, ← Nat.mul_assoc]
      by_cases hs : slots * size < limit
      · rw [← ih (slots * size) hrest hs]
        simp [checked, hs, bind, Except.bind]
      · -- A product that is too large stays so, as no later size is zero.
        have : slots * size ≤ slots * size * volume sizes :=
          Nat.le_mul_of_pos_right _ (volume_pos hrest)
        have hlarge : ¬ slots * size * volume sizes < limit := by omega
        simp [checked, hs, hlarge, bind, Except.bind]
  simpa [product] using hgen sizes 1 h (by decide)

end ObsExport.Size
