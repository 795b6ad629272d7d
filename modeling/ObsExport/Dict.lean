/-!
# Dictionaries in key order

A `Dict κ α` holds at most one value per key and lists its entries in ascending key order. Since
the order is part of the type, two dictionaries that answer every look-up alike are equal
(`Dict.ext_find?`), and whatever is printed from one is printed in one order.

Main statements, each of them an equation for `find?`:

* `find?_insert`: an inserted value replaces what its key held and leaves every other key alone;
* `find?_ofList`: of several entries for one key the last one counts;
* `find?_mapM`: a step that succeeds on every value changes the value of every key;
* `mem_entries_iff`: an entry is listed exactly if its key looks it up.
-/

namespace ObsExport

/-- Entries in strictly ascending key order. -/
@[ext] structure Dict (κ α : Type) [LT κ] where
  entries : List (κ × α)
  sorted : (entries.map Prod.fst).Pairwise (· < ·)

namespace Dict

set_option linter.unusedSectionVars false

variable {κ α β : Type} [LT κ] [LE κ] [DecidableLT κ] [DecidableEq κ]

/-! ### Operations -/

/-- The dictionary without entries. -/
def empty : Dict κ α := ⟨[], by simp⟩

instance : EmptyCollection (Dict κ α) := ⟨empty⟩

instance : Inhabited (Dict κ α) := ⟨empty⟩

instance [DecidableEq α] : DecidableEq (Dict κ α) := fun d e =>
  decidable_of_iff (d.entries = e.entries) ⟨Dict.ext, congrArg entries⟩

/-- The keys, ascending. -/
def keys (d : Dict κ α) : List κ := d.entries.map Prod.fst

/-- The values, in the order of their keys. -/
def values (d : Dict κ α) : List α := d.entries.map Prod.snd

/-- The number of entries. -/
def size (d : Dict κ α) : Nat := d.entries.length

/-- The value of the first entry with a key. -/
def lookup (k : κ) : List (κ × α) → Option α
  | [] => none
  | (k', v) :: rest => if k = k' then some v else lookup k rest

/-- The value a key holds. -/
def find? (d : Dict κ α) (k : κ) : Option α := lookup k d.entries

/-- Whether a key holds a value. -/
def contains (d : Dict κ α) (k : κ) : Bool := (d.find? k).isSome

/-- Puts an entry where its key belongs, in the place of an entry with that key. -/
def insertEntry (k : κ) (v : α) : List (κ × α) → List (κ × α)
  | [] => [(k, v)]
  | (k', v') :: rest =>
    if k < k' then (k, v) :: (k', v') :: rest
    else if k' < k then (k', v') :: insertEntry k v rest
    else (k, v) :: rest

/-- Inserting brings no key but its own. -/
theorem mem_keys_insertEntry {k x : κ} {v : α} {l : List (κ × α)}
    (h : x ∈ (insertEntry k v l).map Prod.fst) : x = k ∨ x ∈ l.map Prod.fst := by
  induction l with
  | nil => simpa [insertEntry] using h
  | cons e rest ih =>
    obtain ⟨k', v'⟩ := e
    rw [insertEntry] at h
    -- The entry goes in front, further back, or in the place of its own key.
    split at h
    · simpa using h
    · split at h
      · rcases List.mem_cons.1 h with h | h
        · simp [h]
        · rcases ih h with h | h
          · exact .inl h
          · simp only [List.map_cons, List.mem_cons]
            exact .inr (.inr h)
      · rcases List.mem_cons.1 h with h | h
        · exact .inl h
        · simp only [List.map_cons, List.mem_cons]
          exact .inr (.inr h)

section Order

variable [Std.IsLinearOrder κ] [Std.LawfulOrderLT κ]

/-- Of two keys neither of which is below the other there is only one. -/
theorem eq_of_not_lt {a b : κ} (h : ¬ a < b) (h' : ¬ b < a) : a = b :=
  Std.le_antisymm (Std.not_lt.1 h') (Std.not_lt.1 h)

/-- An entry that is put where its key belongs leaves the keys ascending. -/
theorem sorted_insertEntry {k : κ} {v : α} {l : List (κ × α)}
    (h : (l.map Prod.fst).Pairwise (· < ·)) :
    ((insertEntry k v l).map Prod.fst).Pairwise (· < ·) := by
  induction l with
  | nil => simp [insertEntry]
  | cons e rest ih =>
    obtain ⟨k', v'⟩ := e
    obtain ⟨hk', hrest⟩ := List.pairwise_cons.1 h
    rw [insertEntry]
    split
    -- Where the new key is smaller, it is below all others by way of the first one.
    next hlt =>
      refine List.pairwise_cons.2 ⟨fun x hx => ?_, h⟩
      rcases List.mem_cons.1 hx with rfl | hx
      · exact hlt
      · exact Std.lt_trans hlt (hk' x hx)
    next hlt =>
      split
      next hgt =>
        refine List.pairwise_cons.2 ⟨fun x hx => ?_, ih hrest⟩
        rcases mem_keys_insertEntry hx with rfl | hx
        · exact hgt
        · exact hk' x hx
      next hgt =>
        obtain rfl : k = k' := eq_of_not_lt hlt hgt
        exact List.pairwise_cons.2 ⟨hk', hrest⟩

/-- Gives a key a value, in the place of the value it held. -/
def insert (d : Dict κ α) (k : κ) (v : α) : Dict κ α :=
  ⟨insertEntry k v d.entries, sorted_insertEntry d.sorted⟩

/-- Collects entries; of several with one key the last one stays. -/
def ofList (l : List (κ × α)) : Dict κ α :=
  l.foldl (fun d e => d.insert e.1 e.2) empty

end Order

/-- Replaces the values of entries one after another by a step that may fail. -/
def mapEntries {ε : Type} (f : κ → α → Except ε β) : List (κ × α) → Except ε (List (κ × β))
  | [] => .ok []
  | (k, v) :: rest =>
    match f k v with
    | .error e => .error e
    | .ok w =>
      match mapEntries f rest with
      | .error e => .error e
      | .ok rest' => .ok ((k, w) :: rest')

/-- Steps on values leave the keys as they are. -/
theorem keys_mapEntries {ε : Type} {f : κ → α → Except ε β} {l : List (κ × α)} {l' : List (κ × β)}
    (h : mapEntries f l = .ok l') : l'.map Prod.fst = l.map Prod.fst := by
  induction l generalizing l' with
  | nil => simp_all [mapEntries]
  | cons e rest ih =>
    obtain ⟨k, v⟩ := e
    rw [mapEntries] at h
    split at h
    · contradiction
    · split at h
      · contradiction
      next rest' hr =>
        simp only [Except.ok.injEq] at h
        simp [← h, ih hr]

/-- Replaces the values one after another, in key order, by a step that may fail; the first failure
is the answer. -/
def mapM {ε : Type} (f : κ → α → Except ε β) (d : Dict κ α) : Except ε (Dict κ β) :=
  match h : mapEntries f d.entries with
  | .error e => .error e
  | .ok l => .ok ⟨l, by rw [keys_mapEntries h]; exact d.sorted⟩

/-! ### What a look-up finds -/

/-- A key looks up nothing exactly if no entry has it. -/
theorem lookup_eq_none_iff {k : κ} {l : List (κ × α)} :
    lookup k l = none ↔ k ∉ l.map Prod.fst := by
  induction l with
  | nil => simp [lookup]
  | cons e rest ih =>
    obtain ⟨k', v⟩ := e
    by_cases h : k = k' <;> simp [lookup, h, ih]

/-- What a key looks up is listed with the key. -/
theorem mem_of_lookup {k : κ} {v : α} {l : List (κ × α)} (h : lookup k l = some v) :
    (k, v) ∈ l := by
  induction l with
  | nil => simp [lookup] at h
  | cons e rest ih =>
    obtain ⟨k', v'⟩ := e
    by_cases hk : k = k'
    · simp only [lookup, hk, if_true, Option.some.injEq] at h
      simp [hk, h]
    · simp only [lookup, hk, if_false] at h
      exact List.mem_cons_of_mem _ (ih h)

/-- Where no key comes twice, a look-up finds an entry wherever it stands. -/
theorem lookup_eq_some_iff_mem {k : κ} {v : α} {l : List (κ × α)} (h : (l.map Prod.fst).Nodup) :
    lookup k l = some v ↔ (k, v) ∈ l := by
  refine ⟨mem_of_lookup, fun hmem => ?_⟩
  induction l with
  | nil => simp at hmem
  | cons e rest ih =>
    obtain ⟨hnew, hrest⟩ := List.nodup_cons.1 h
    rcases List.mem_cons.1 hmem with rfl | hmem
    · simp [lookup]
    · have hk : k ≠ e.1 := fun hk => hnew (hk ▸ List.mem_map.2 ⟨(k, v), hmem, rfl⟩)
      simp [lookup, hk, ih hrest hmem]

/-- Of entries with different keys each is found from both ends of the list. -/
theorem lookup_reverse {k : κ} {l : List (κ × α)} (h : (l.map Prod.fst).Nodup) :
    lookup k l.reverse = lookup k l := by
  have hreverse : (l.reverse.map Prod.fst).Nodup := by
    rw [List.map_reverse]
    exact List.pairwise_reverse.2 (List.Pairwise.imp Ne.symm h)
  refine Option.ext fun v => ?_
  rw [lookup_eq_some_iff_mem hreverse, lookup_eq_some_iff_mem h, List.mem_reverse]

/-- A key is looked up in the second list if the first one does not have it. -/
theorem lookup_append (k : κ) (l l' : List (κ × α)) :
    lookup k (l ++ l') = (lookup k l).or (lookup k l') := by
  induction l with
  | nil => rfl
  | cons e rest ih =>
    by_cases h : k = e.1 <;> simp [lookup, h, ih]

@[simp] theorem find?_empty (k : κ) : (empty : Dict κ α).find? k = none := rfl

/-- A step on values that looks at the key changes what the key looks up. -/
theorem lookup_map (f : κ → α → β) (k : κ) (l : List (κ × α)) :
    lookup k (l.map fun e => (e.1, f e.1 e.2)) = (lookup k l).map (f k) := by
  induction l with
  | nil => rfl
  | cons e rest ih =>
    by_cases h : k = e.1 <;> simp [lookup, h, ih]

/-- What is kept by its key is found, and nothing else is. -/
theorem lookup_filter (p : κ → Bool) (k : κ) (l : List (κ × α)) :
    lookup k (l.filter fun e => p e.1) = if p k then lookup k l else none := by
  induction l with
  | nil => simp [lookup]
  | cons e rest ih =>
    by_cases hp : p e.1 = true <;> by_cases hk : k = e.1 <;> simp_all [lookup]

/-- After steps that succeeded every key looks up the answer of the step on its value. -/
theorem lookup_mapEntries {ε : Type} {f : κ → α → Except ε β} {l : List (κ × α)}
    {l' : List (κ × β)} (h : mapEntries f l = .ok l') (k : κ) :
    (lookup k l = none ∧ lookup k l' = none) ∨
      ∃ v w, lookup k l = some v ∧ f k v = .ok w ∧ lookup k l' = some w := by
  induction l generalizing l' with
  | nil =>
    obtain rfl : [] = l' := by simpa [mapEntries] using h
    exact .inl ⟨rfl, rfl⟩
  | cons e rest ih =>
    obtain ⟨k', v⟩ := e
    rw [mapEntries] at h
    split at h
    · contradiction
    next w hw =>
      split at h
      · contradiction
      next rest' hrest =>
        obtain rfl := Except.ok.inj h
        -- The first entry answers for its key, and the others are left to the induction.
        by_cases hk : k = k'
        · subst hk
          exact .inr ⟨v, w, by simp [lookup], hw, by simp [lookup]⟩
        · simpa [lookup, hk] using ih hrest

/-- Steps that succeed on every entry succeed one after another. -/
theorem exists_mapEntries {ε : Type} {f : κ → α → Except ε β} {l : List (κ × α)}
    (h : ∀ e ∈ l, ∃ w, f e.1 e.2 = .ok w) : ∃ l', mapEntries f l = .ok l' := by
  induction l with
  | nil => exact ⟨[], rfl⟩
  | cons e rest ih =>
    obtain ⟨k, v⟩ := e
    obtain ⟨w, hw⟩ := h (k, v) (by simp)
    obtain ⟨rest', hrest⟩ := ih fun e he => h e (by simp [he])
    exact ⟨(k, w) :: rest', by rw [mapEntries, hw, hrest]⟩

/-- Where every value is replaced, a key holds what the step makes of its value. -/
theorem find?_mapM {ε : Type} {f : κ → α → Except ε β} {d : Dict κ α} {d' : Dict κ β}
    (h : d.mapM f = .ok d') (k : κ) :
    (d.find? k = none ∧ d'.find? k = none) ∨
      ∃ v w, d.find? k = some v ∧ f k v = .ok w ∧ d'.find? k = some w := by
  -- The match carries a proof of its own, so it is split and not rewritten.
  unfold mapM at h
  split at h
  · contradiction
  next l hl =>
    obtain rfl := Except.ok.inj h
    exact lookup_mapEntries hl k

/-- Steps that succeed on every entry of a dictionary succeed on the dictionary. -/
theorem exists_mapM {ε : Type} {f : κ → α → Except ε β} {d : Dict κ α}
    (h : ∀ e ∈ d.entries, ∃ w, f e.1 e.2 = .ok w) : ∃ d', d.mapM f = .ok d' := by
  obtain ⟨l, hl⟩ := exists_mapEntries h
  unfold mapM
  split
  next e he => rw [hl] at he; contradiction
  next l' _ => exact ⟨_, rfl⟩

/-- A key holds a value exactly if it is among the keys. -/
theorem contains_iff {d : Dict κ α} {k : κ} : d.contains k = true ↔ k ∈ d.keys := by
  unfold contains find? keys
  cases h : lookup k d.entries with
  | none => simpa using lookup_eq_none_iff.1 h
  | some v => simpa using ⟨v, mem_of_lookup h⟩

section Order

variable [Std.IsLinearOrder κ] [Std.LawfulOrderLT κ]

/-- An entry that is put among ascending keys is found by its key, and hides no other. -/
theorem lookup_insertEntry (k k' : κ) (v : α) {l : List (κ × α)}
    (h : (l.map Prod.fst).Pairwise (· < ·)) :
    lookup k' (insertEntry k v l) = if k' = k then some v else lookup k' l := by
  induction l with
  | nil => simp [insertEntry, lookup]
  | cons e rest ih =>
    obtain ⟨k₀, v₀⟩ := e
    obtain ⟨_, hrest⟩ := List.pairwise_cons.1 h
    rw [insertEntry]
    split
    next hlt => simp [lookup]
    next hlt =>
      split
      -- The entry goes behind a smaller key, which it cannot hide.
      next hgt =>
        have hne : k₀ ≠ k := fun hk => Std.lt_irrefl (hk ▸ hgt)
        simp only [lookup, ih hrest]
        by_cases h₀ : k' = k₀
        · simp [h₀, hne]
        · simp [h₀]
      next hgt =>
        obtain rfl : k = k₀ := eq_of_not_lt hlt hgt
        by_cases h₀ : k' = k <;> simp [lookup, h₀]

/-- An inserted value is what its key holds, and no other key is touched. -/
@[simp] theorem find?_insert (d : Dict κ α) (k k' : κ) (v : α) :
    (d.insert k v).find? k' = if k' = k then some v else d.find? k' :=
  lookup_insertEntry k k' v d.sorted

/-- Of values that are inserted one after another the last one with a key counts; behind them comes
what the dictionary held. -/
theorem find?_foldl_insert (l : List (κ × α)) (d : Dict κ α) (k : κ) :
    (l.foldl (fun d e => d.insert e.1 e.2) d).find? k = (lookup k l.reverse).or (d.find? k) := by
  induction l generalizing d with
  | nil => simp [lookup]
  | cons e rest ih =>
    rw [List.foldl_cons, ih, find?_insert]
    -- In the reversed list the entry comes last, so it counts only if no later one has its key.
    rw [List.reverse_cons, lookup_append]
    by_cases h : k = e.1 <;> cases lookup k rest.reverse <;> simp [lookup, h]

/-- Of several entries for one key the last one counts. -/
theorem find?_ofList (l : List (κ × α)) (k : κ) : (ofList l).find? k = lookup k l.reverse := by
  simp [ofList, find?_foldl_insert]

/-- An entry with the largest key is put at the end. -/
theorem insertEntry_eq_append {k : κ} {v : α} {l : List (κ × α)}
    (h : ∀ x ∈ l.map Prod.fst, x < k) : insertEntry k v l = l ++ [(k, v)] := by
  induction l with
  | nil => rfl
  | cons e rest ih =>
    have hlt : e.1 < k := h e.1 (by simp)
    have hge : ¬ k < e.1 := fun hgt => Std.lt_irrefl (Std.lt_trans hlt hgt)
    rw [insertEntry, if_neg hge, if_pos hlt,
      ih fun x hx => h x (List.mem_cons_of_mem _ hx), List.cons_append]

/-- Entries that come in ascending key order are listed as they came. -/
theorem entries_ofList {l : List (κ × α)} (h : (l.map Prod.fst).Pairwise (· < ·)) :
    (ofList l).entries = l := by
  -- All keys that were inserted before lie below the next one.
  have hgen : ∀ (l : List (κ × α)) (d : Dict κ α),
      ((d.entries ++ l).map Prod.fst).Pairwise (· < ·) →
      (l.foldl (fun d e => d.insert e.1 e.2) d).entries = d.entries ++ l := by
    intro l
    induction l with
    | nil => simp
    | cons e rest ih =>
      intro d hd
      have hbelow : ∀ x ∈ d.entries.map Prod.fst, x < e.1 := by
        rw [List.map_append] at hd
        exact fun x hx => (List.pairwise_append.1 hd).2.2 x hx e.1 (by simp)
      have hinsert : (d.insert e.1 e.2).entries = d.entries ++ [e] := insertEntry_eq_append hbelow
      rw [List.foldl_cons, ih, hinsert, List.append_assoc, List.singleton_append]
      rw [hinsert, List.append_assoc, List.singleton_append]
      exact hd
  exact hgen l empty h

/-- Entries with other values under the same keys are collected as they are listed. -/
theorem entries_ofList_map (d : Dict κ α) (f : κ × α → β) :
    (ofList (d.entries.map fun e => (e.1, f e))).entries = d.entries.map fun e => (e.1, f e) :=
  entries_ofList (by simpa [List.map_map, Function.comp_def] using d.sorted)

/-- No key is listed twice. -/
theorem nodup_keys (d : Dict κ α) : d.keys.Nodup := by
  refine List.Pairwise.imp (fun {a b} hlt heq => ?_) d.sorted
  rw [heq] at hlt
  exact Std.lt_irrefl hlt

/-- An entry is listed exactly if its key looks it up. -/
theorem mem_entries_iff {d : Dict κ α} {k : κ} {v : α} :
    (k, v) ∈ d.entries ↔ d.find? k = some v :=
  (lookup_eq_some_iff_mem d.nodup_keys).symm

/-- The first of ascending keys is not above a key that is found among them. -/
theorem not_lt_of_lookup {k : κ} {e : κ × α} {rest : List (κ × α)} {v : α}
    (hs : ∀ x ∈ rest.map Prod.fst, e.1 < x) (h : lookup k (e :: rest) = some v) : ¬ k < e.1 := by
  intro hlt
  have hmem : k ∈ (e :: rest).map Prod.fst := List.mem_map.2 ⟨(k, v), mem_of_lookup h, rfl⟩
  rcases List.mem_cons.1 hmem with rfl | hmem
  · exact Std.lt_irrefl hlt
  · exact Std.lt_irrefl (Std.lt_trans hlt (hs k hmem))

/-- Ascending lists that answer every look-up alike are the same list. -/
theorem eq_of_lookup {l l' : List (κ × α)} (hs : (l.map Prod.fst).Pairwise (· < ·))
    (hs' : (l'.map Prod.fst).Pairwise (· < ·)) (h : ∀ k, lookup k l = lookup k l') : l = l' := by
  induction l generalizing l' with
  | nil =>
    cases l' with
    | nil => rfl
    | cons e rest => simpa [lookup] using h e.1
  | cons e rest ih =>
    cases l' with
    | nil => simpa [lookup] using h e.1
    | cons e' rest' =>
      obtain ⟨hlt, hrest⟩ := List.pairwise_cons.1 hs
      obtain ⟨hlt', hrest'⟩ := List.pairwise_cons.1 hs'
      -- The first key of each side is found on the other, and neither side has a smaller one.
      have hfirst : lookup e.1 (e' :: rest') = some e.2 := by rw [← h e.1]; simp [lookup]
      have hfirst' : lookup e'.1 (e :: rest) = some e'.2 := by rw [h e'.1]; simp [lookup]
      have hk : e.1 = e'.1 :=
        eq_of_not_lt (not_lt_of_lookup hlt' hfirst) (not_lt_of_lookup hlt hfirst')
      have hv : e.2 = e'.2 := by
        have h0 := h e.1
        simpa [lookup, hk] using h0
      -- Behind equal first entries the rests answer alike: neither knows the first key.
      have htail : rest = rest' := by
        refine ih hrest hrest' fun k => ?_
        by_cases hke : k = e.1
        · rw [lookup_eq_none_iff.2 fun hm => Std.lt_irrefl (hke ▸ hlt k hm),
            lookup_eq_none_iff.2 fun hm => Std.lt_irrefl (hk ▸ hke ▸ hlt' k hm)]
        · have h0 := h k
          have hke' : k ≠ e'.1 := hk ▸ hke
          simpa [lookup, hke, hke'] using h0
      obtain ⟨k₁, v₁⟩ := e
      obtain ⟨k₂, v₂⟩ := e'
      simp_all

/-- Dictionaries that answer every look-up alike are equal. -/
theorem ext_find? {d e : Dict κ α} (h : ∀ k, d.find? k = e.find? k) : d = e :=
  Dict.ext (eq_of_lookup d.sorted e.sorted h)

/-- Entries with different keys are all kept when they are collected. -/
theorem mem_entries_ofList {l : List (κ × α)} (h : (l.map Prod.fst).Nodup) {e : κ × α} :
    e ∈ (ofList l).entries ↔ e ∈ l := by
  obtain ⟨k, v⟩ := e
  rw [mem_entries_iff, find?_ofList, lookup_reverse h, lookup_eq_some_iff_mem h]

/-- The entries of a dictionary make that dictionary, in whatever order they come. -/
theorem ofList_eq_of_mem_iff {l : List (κ × α)} {d : Dict κ α}
    (h : ∀ e, e ∈ l ↔ e ∈ d.entries) : ofList l = d := by
  refine ext_find? fun k => ?_
  rw [find?_ofList]
  cases hl : lookup k l.reverse with
  | some v =>
    have hmem := List.mem_reverse.1 (mem_of_lookup hl)
    exact (mem_entries_iff.1 ((h (k, v)).1 hmem)).symm
  | none =>
    refine (lookup_eq_none_iff.2 fun hk => ?_).symm
    obtain ⟨e, he, rfl⟩ := List.mem_map.1 hk
    exact lookup_eq_none_iff.1 hl (List.mem_map.2 ⟨e, List.mem_reverse.2 ((h e).2 he), rfl⟩)

end Order

end Dict

end ObsExport
