import ObsExport.Config.Cursor
import ObsExport.Proofs.Pairing

/-!
# What readers answer

A reader of a cursor may fail, and its failure tells the path. What it answers depends on the value
alone, and for each reader there is one statement that says exactly when it answers what: a string
where a string is (`Cursor.string_eq_ok_iff`), something that may be missing where it is missing or
can be read (`Cursor.optional_eq_ok_iff`), and the items of a list and the entries of a map one by
one (`Cursor.items_mapM_eq_ok_iff`, `Cursor.entries_mapM_eq_ok_iff`). With them the blocks of a
document are described without a word about cursors or the order in which keys are looked at.
-/

namespace ObsExport

namespace Tree

variable {t : Tree} {key : String}

theorem asString?_eq_some_iff {s : String} : t.asString? = some s ↔ t = .string s := by
  cases t <;> simp [asString?]

theorem items?_eq_some_iff {items : List Tree} : t.items? = some items ↔ t = .list items := by
  cases t <;> simp [items?]

theorem entries?_eq_some_iff {entries : List (String × Tree)} :
    t.entries? = some entries ↔ t = .map entries := by
  cases t <;> simp [entries?]

/-- Integers are read if they are words with a sign. -/
theorem asInteger?_eq_some_iff {i : Int} : t.asInteger? = some i ↔ InWord i ∧ t = .integer i := by
  cases t with
  | integer j =>
    simp only [asInteger?, word?_eq_some_iff, integer.injEq]
    exact ⟨fun ⟨hword, heq⟩ => ⟨heq ▸ hword, heq⟩, fun ⟨hword, heq⟩ => ⟨heq ▸ hword, heq⟩⟩
  | _ => simp [asInteger?]

/-- Natural numbers are read if they are words without a sign. -/
theorem asNatural?_eq_some_iff {n : Nat} :
    t.asNatural? = some n ↔ n < 0x10000000000000000 ∧ t = .integer n := by
  cases t with
  | integer i =>
    simp only [asNatural?, Option.ite_none_right_eq_some, Option.some.injEq, integer.injEq]
    omega
  | _ => simp [asNatural?]

/-- Only a map holds something. -/
theorem isSome_entries?_of_get? {v : Tree} (h : t.get? key = some v) :
    t.entries?.isSome = true := by
  obtain ⟨hfind, -⟩ := get?_eq_some_iff.1 h
  obtain ⟨entries, hentries, -⟩ := Option.bind_eq_some_iff.1 hfind
  rw [hentries, Option.isSome_some]

/-- What a block states under a key that may be left out, in terms of what a value states. -/
inductive StatesAt {α : Type} (block : Tree) (key : String) (R : Tree → α → Prop) :
    Option α → Prop where
  | absent (h : block.get? key = none) : StatesAt block key R none
  | present {v : Tree} {a : α} (h : block.get? key = some v) (hv : R v a) :
      StatesAt block key R (some a)

/-- Whatever stands under the key states something. -/
theorem StatesAt.exists_of_get? {α : Type} {block v : Tree} {R : Tree → α → Prop} {a : Option α}
    (h : block.StatesAt key R a) (hv : block.get? key = some v) : ∃ x, R v x := by
  rcases h with hnone | ⟨hsome, hx⟩
  · exact absurd (hnone.symm.trans hv) (by simp)
  · exact Option.some.inj (hsome.symm.trans hv) ▸ ⟨_, hx⟩

/-- If a value states one thing at most, then so does a key. -/
theorem StatesAt.unique {α : Type} {block : Tree} {R : Tree → α → Prop} {a b : Option α}
    (h : block.StatesAt key R a) (h' : block.StatesAt key R b)
    (hR : ∀ v x y, R v x → R v y → x = y) : a = b := by
  rcases h with hnone | ⟨hsome, hx⟩
  · rcases h' with hnone' | ⟨hsome', -⟩
    · rfl
    · exact absurd (hnone.symm.trans hsome') (by simp)
  · rcases h' with hnone' | ⟨hsome', hy⟩
    · exact absurd (hsome.symm.trans hnone') (by simp)
    · obtain rfl := Option.some.inj (hsome.symm.trans hsome')
      rw [hR _ _ _ hx hy]

/-- What a key states depends on the value that it holds alone. -/
theorem statesAt_congr {α : Type} {block : Tree} {R R' : Tree → α → Prop} {a : Option α}
    (h : ∀ v, block.get? key = some v → ∀ x, R v x ↔ R' v x) :
    block.StatesAt key R a ↔ block.StatesAt key R' a := by
  constructor
  · rintro (hnone | ⟨hsome, hx⟩)
    · exact .absent hnone
    · exact .present hsome ((h _ hsome _).1 hx)
  · rintro (hnone | ⟨hsome, hx⟩)
    · exact .absent hnone
    · exact .present hsome ((h _ hsome _).2 hx)

/-- Where a value is written in one way only, it is what stands under the key. -/
theorem statesAt_eq_iff {α : Type} {block : Tree} {write : α → Tree} {a : Option α} :
    block.StatesAt key (fun v x => v = write x) a ↔ block.get? key = a.map write := by
  constructor
  · rintro (h | ⟨h, rfl⟩)
    · exact h
    · exact h
  · intro h
    cases a with
    | none => exact .absent h
    | some x => exact .present h rfl

end Tree

namespace Cursor

variable {c d : Cursor} {key : String}

theorem get?_eq_none_iff : c.get? key = none ↔ c.value.get? key = none := Option.map_eq_none_iff

theorem get?_eq_some_iff :
    c.get? key = some d ↔ ∃ v, c.value.get? key = some v ∧ ⟨c.pathOf key, v⟩ = d :=
  Option.map_eq_some_iff

theorem has_eq : c.has key = (c.value.get? key).isSome := Option.isSome_map

/-- A child is there exactly if its key holds something. -/
theorem child_eq_ok_iff :
    c.child key = .ok d ↔ ∃ v, c.value.get? key = some v ∧ ⟨c.pathOf key, v⟩ = d := by
  unfold child
  rw [← get?_eq_some_iff]
  cases c.get? key <;> simp

/-- What is expected is answered exactly if it is there. -/
theorem expect_eq_ok_iff {α : Type} {expectation : Expectation} {o : Option α} {a : α} :
    c.expect expectation o = .ok a ↔ o = some a := by
  cases o <;> simp [expect]

theorem asString_eq_ok_iff {s : String} : c.asString = .ok s ↔ c.value = .string s :=
  expect_eq_ok_iff.trans Tree.asString?_eq_some_iff

theorem asFloat_eq_ok_iff {x : Float} : c.asFloat = .ok x ↔ c.value.asFloat? = some x :=
  expect_eq_ok_iff

theorem asNatural_eq_ok_iff {n : Nat} : c.asNatural = .ok n ↔ c.value.asNatural? = some n :=
  expect_eq_ok_iff

/-- A text that is required is read exactly if its key holds a text. -/
theorem string_eq_ok_iff {s : String} :
    c.string key = .ok s ↔ c.value.get? key = some (.string s) := by
  simp only [string, bind_eq_ok_iff, child_eq_ok_iff, asString_eq_ok_iff]
  constructor
  · rintro ⟨_, ⟨v, hv, rfl⟩, rfl⟩
    exact hv
  · exact fun h => ⟨_, ⟨_, h, rfl⟩, rfl⟩

/-- A list is read as its items, wherever these stand. -/
theorem items_eq_ok {l : List Cursor} (h : c.items = .ok l) : c.value = .list (l.map value) := by
  unfold items at h
  split at h
  next items hitems =>
    rw [Tree.items?_eq_some_iff.1 hitems, ← Except.ok.inj h, List.map_map]
    exact congrArg Tree.list (List.zipIdx_map_fst 0 items).symm
  next => contradiction

/-- A map is read as its entries. -/
theorem entries_eq_ok {l : List (String × Cursor)} (h : c.entries = .ok l) :
    c.value = .map (l.map fun e => (e.1, e.2.value)) := by
  unfold entries at h
  split at h
  next entries hentries =>
    rw [Tree.entries?_eq_some_iff.1 hentries, ← Except.ok.inj h, List.map_map]
    exact congrArg Tree.map (List.map_id entries).symm
  next => contradiction

/-- What comes behind the check of a map is reached exactly if the section accepts the map. -/
theorem check_bind_eq_ok_iff {α : Type} {s : Section} {next : Logged α} {a : α} :
    (c.check s >>= fun _ => next).outcome = .ok a ↔ s.Accepts c.value ∧ next.outcome = .ok a := by
  rw [Logged.outcome_bind, bind_eq_ok_iff, ← outcome_check_eq_ok_iff]
  -- The check answers nothing, so there is one answer to go on with.
  exact ⟨fun ⟨⟨⟩, hcheck, hnext⟩ => ⟨hcheck, hnext⟩, fun ⟨hcheck, hnext⟩ => ⟨(), hcheck, hnext⟩⟩

section Parts

variable {α : Type} {read : Cursor → Except Error α} {R : Tree → α → Prop}

/-- What may be missing is read as what the value states there. -/
theorem optional_eq_ok_iff {a : Option α} (hread : ∀ path v x, read ⟨path, v⟩ = .ok x ↔ R v x) :
    c.optional key read = .ok a ↔ c.value.StatesAt key R a := by
  unfold optional get?
  cases hget : c.value.get? key with
  | none =>
    constructor
    · exact fun h => Except.ok.inj h ▸ .absent hget
    · rintro (_ | ⟨hsome, -⟩)
      · rfl
      · exact absurd (hget.symm.trans hsome) (by simp)
  | some v =>
    simp only [Option.map_some, map_eq_ok_iff, hread]
    constructor
    · rintro ⟨x, hx, rfl⟩
      exact .present hget hx
    · rintro (hnone | ⟨hsome, hx⟩)
      · exact absurd (hget.symm.trans hnone) (by simp)
      · obtain rfl := Option.some.inj (hget.symm.trans hsome)
        exact ⟨_, hx, rfl⟩

/-- A text that may be left out is read if it is a text or is left out. -/
theorem string?_eq_ok_iff {a : Option String} :
    c.string? key = .ok a ↔ c.value.get? key = a.map .string := by
  have hread : c.string? key = .ok a ↔ c.value.StatesAt key (fun v s => v = .string s) a :=
    optional_eq_ok_iff fun _ _ _ => asString_eq_ok_iff
  rw [hread, Tree.statesAt_eq_iff]

/-- A number that may be left out is read if it is a number or is left out. -/
theorem float?_eq_ok_iff {a : Option Float} :
    c.float? key = .ok a ↔ c.value.StatesAt key (fun v x => v.asFloat? = some x) a :=
  optional_eq_ok_iff fun _ _ _ => asFloat_eq_ok_iff

/-- The items of a list are paired as the values that they are, wherever they stand. -/
theorem items_forall₂_iff {out : List α} :
    (∃ items, c.items = .ok items ∧ List.Forall₂ (fun d a => R d.value a) items out) ↔
      ∃ items, c.value = .list items ∧ List.Forall₂ R items out := by
  constructor
  · rintro ⟨items, hitems, hpaired⟩
    exact ⟨items.map value, items_eq_ok hitems, List.forall₂_map_left_iff.2 hpaired⟩
  · rintro ⟨items, hvalue, hpaired⟩
    refine ⟨items.zipIdx.map fun i => ⟨c.path ++ s!"[{i.2}]", i.1⟩, ?_, ?_⟩
    · rw [Cursor.items, hvalue]
      rfl
    · -- The index of an item goes into its path only.
      rw [List.forall₂_map_left_iff]
      rwa [← List.zipIdx_map_fst 0 items, List.forall₂_map_left_iff] at hpaired

/-- The items of a list are read one by one, wherever they stand. -/
theorem items_mapM_eq_ok_iff {out : List α} (hread : ∀ path v x, read ⟨path, v⟩ = .ok x ↔ R v x) :
    (c.items >>= fun items => items.mapM read) = .ok out ↔
      ∃ items, c.value = .list items ∧ List.Forall₂ R items out := by
  rw [bind_eq_ok_iff, ← items_forall₂_iff]
  exact exists_congr fun _ => and_congr_right fun _ =>
    mapM_eq_ok_iff_forall₂ fun d x => hread d.path d.value x

/-- Strings are read from one string or from a list of strings. -/
theorem asStrings_eq_ok_iff {names : List String} :
    c.asStrings = .ok names ↔
      (∃ s, c.value = .string s ∧ names = [s]) ∨ c.value = .list (names.map .string) := by
  -- A list of strings is written in one way.
  have hpaired (items : List Tree) :
      List.Forall₂ (fun v s => v = Tree.string s) items names ↔ items = names.map .string := by
    rw [← List.forall₂_map_right_iff (R := Eq), List.forall₂_eq_eq_eq]
  have hitems : (c.items >>= fun items => items.mapM asString) = .ok names ↔
      c.value = .list (names.map .string) := by
    rw [items_mapM_eq_ok_iff (R := fun v s => v = Tree.string s) fun _ _ _ => asString_eq_ok_iff]
    simp only [hpaired, exists_eq_right]
  unfold asStrings
  cases hstring : c.value.asString? with
  | none =>
    have hnone : ∀ s, c.value ≠ .string s := fun s h => by
      rw [h] at hstring
      contradiction
    simpa [hnone] using hitems
  | some s =>
    rw [Tree.asString?_eq_some_iff.1 hstring]
    simp [eq_comm]

/-- The entries of a map are read one by one, key and value. -/
theorem entries_mapM_eq_ok_iff {read : String × Cursor → Except Error α}
    {R : String × Tree → α → Prop} {out : List α}
    (hread : ∀ key path v x, read (key, ⟨path, v⟩) = .ok x ↔ R (key, v) x) :
    (c.entries >>= fun entries => entries.mapM read) = .ok out ↔
      ∃ entries, c.value = .map entries ∧ List.Forall₂ R entries out := by
  unfold entries
  cases hentries : c.value.entries? with
  | none =>
    have hmap : ∀ entries, c.value ≠ .map entries := fun entries h => by
      rw [h] at hentries
      contradiction
    simp [hmap]
  | some entries =>
    -- A key goes into the path of its value, and is read itself.
    have hpaired : (entries.map fun e => (e.1, (⟨c.pathOf e.1, e.2⟩ : Cursor))).mapM read =
        .ok out ↔ List.Forall₂ R entries out := by
      rw [mapM_eq_ok_iff_forall₂ fun e x => hread e.1 e.2.path e.2.value x,
        List.forall₂_map_left_iff]
    rw [Tree.entries?_eq_some_iff.1 hentries]
    simpa using hpaired

end Parts

end Cursor

end ObsExport
