import ObsExport.Attempts
import ObsExport.Config.Cursor
import Mathlib.Data.List.Nodup

/-!
# Maps made of fields

A block of a document is written as fields: keys with values, some of which may be missing
(`Tree.ofFields`). Fields suit a section if their keys differ and each key of the section has what
the section wants there (`Section.SuitedBy`). A map of such fields passes the check of its section
(`SuitedBy.check`), and each of its keys is found with what was written under it
(`SuitedBy.get?_of_mem`); from there on the readers of cursors find what they look for.

Lists read back item by item (`Cursor.items_mapM`), and maps that are written from a dictionary
entry by entry (`Cursor.entries_mapM`).
-/

namespace ObsExport

/-! ### Fields of a map -/

namespace Tree

/-- The map of some fields, without those that have no value. -/
def ofFields (fields : List (String × Option Tree)) : Tree :=
  .ofEntries (fields.filterMap fun f => f.2.map (f.1, ·))

variable {fields : List (String × Option Tree)} {key : String}

/-- Fields that are left out leave the order of the others alone. -/
theorem sublist_keys_filterMap (fields : List (String × Option Tree)) :
    ((fields.filterMap fun f => f.2.map (f.1, ·)).map Prod.fst).Sublist (fields.map Prod.fst) := by
  induction fields with
  | nil => exact List.Sublist.refl _
  | cons f fields ih =>
    obtain ⟨key, v⟩ := f
    cases v with
    | none => exact ih.cons key
    | some v => exact ih.cons_cons key

/-- In a block of different keys each of them finds what was written for it. -/
theorem find?_ofFields (hkeys : (fields.map Prod.fst).Nodup) (key : String) :
    (ofFields fields).find? key = (Dict.lookup key fields).join := by
  -- Keys differ before and after the missing values go, so both look-ups are memberships.
  have hwritten := hkeys.sublist (sublist_keys_filterMap fields)
  show (Dict.ofList _).find? key = _
  refine Option.ext fun v => ?_
  rw [Dict.find?_ofList, Dict.lookup_reverse hwritten, Dict.lookup_eq_some_iff_mem hwritten,
    Option.join_eq_some_iff, Dict.lookup_eq_some_iff_mem hkeys, List.mem_filterMap]
  constructor
  · rintro ⟨⟨key', v'⟩, hmem, hv⟩
    obtain ⟨w, rfl, heq⟩ := Option.map_eq_some_iff.1 hv
    obtain ⟨rfl, rfl⟩ := Prod.mk.inj heq
    exact hmem
  · exact fun hmem => ⟨(key, some v), hmem, rfl⟩

/-- What was written for a key is read, unless it is null. -/
theorem get?_ofFields_of_mem {v : Option Tree} (hkeys : (fields.map Prod.fst).Nodup)
    (hmem : (key, v) ∈ fields) (hnull : ∀ t ∈ v, t.isNull = false) :
    (ofFields fields).get? key = v := by
  rw [get?, find?_ofFields hkeys, (Dict.lookup_eq_some_iff_mem hkeys).2 hmem, Option.join_some]
  cases v with
  | none => rfl
  | some t => exact Option.filter_some_pos (by simp [hnull t rfl])

/-- A key for which nothing was written reads nothing. -/
theorem get?_ofFields_of_not_mem (hkeys : (fields.map Prod.fst).Nodup)
    (hmem : key ∉ fields.map Prod.fst) : (ofFields fields).get? key = none := by
  rw [get?, find?_ofFields hkeys, Dict.lookup_eq_none_iff.2 hmem]
  rfl

/-- The only key of a block reads what was written for it. -/
theorem get?_single {t : Tree} (h : t.isNull = false) :
    (ofFields [(key, some t)]).get? key = some t :=
  get?_ofFields_of_mem (by simp) (by simp) fun u hu => Option.some.inj hu ▸ h

@[simp] theorem isSome_entries?_ofEntries (entries : List (String × Tree)) :
    (ofEntries entries).entries?.isSome = true := rfl

@[simp] theorem isSome_entries?_ofFields (fields : List (String × Option Tree)) :
    (ofFields fields).entries?.isSome = true := rfl

end Tree

/-- No kind of value admits null. -/
theorem ValueKind.isNull_of_admits {kind : ValueKind} {t : Tree} (h : kind.admits t = true) :
    t.isNull = false := by
  cases t with
  | null => cases kind <;> contradiction
  | _ => rfl

/-- A value under a key, or none, is what a section wants there. -/
def KeySpec.Suits (spec : KeySpec) (v : Option Tree) : Prop :=
  (∀ t ∈ v, spec.kind.admits t = true) ∧ (spec.presence = .required → v.isSome = true)

namespace Section

/-- Fields under different keys, with what a section wants under each of its own. -/
structure SuitedBy (s : Section) (fields : List (String × Option Tree)) : Prop where
  keys : (fields.map Prod.fst).Nodup
  suits : ∀ spec ∈ s, spec.Suits (Dict.lookup spec.key fields).join

namespace SuitedBy

variable {s : Section} {fields : List (String × Option Tree)} {path key : String}

/-- A key of the section reads what the block has for it. -/
theorem get?_key (h : s.SuitedBy fields) {spec : KeySpec} (hspec : spec ∈ s) :
    (Tree.ofFields fields).get? spec.key = (Dict.lookup spec.key fields).join := by
  cases hlookup : Dict.lookup spec.key fields with
  | none => exact Tree.get?_ofFields_of_not_mem h.keys (Dict.lookup_eq_none_iff.1 hlookup)
  | some v =>
    have hkind := (h.suits spec hspec).1
    rw [hlookup] at hkind
    exact Tree.get?_ofFields_of_mem h.keys (Dict.mem_of_lookup hlookup) fun t ht =>
      ValueKind.isNull_of_admits (hkind t ht)

/-- What a block has for a key of its section is read. -/
theorem get?_of_mem (h : s.SuitedBy fields) {v : Option Tree} (hmem : (key, v) ∈ fields)
    (hknown : key ∈ s.map KeySpec.key) : (Tree.ofFields fields).get? key = v := by
  obtain ⟨spec, hspec, rfl⟩ := List.mem_map.1 hknown
  rw [h.get?_key hspec, (Dict.lookup_eq_some_iff_mem h.keys).2 hmem, Option.join_some]

/-- A key that a block does not have reads nothing. -/
theorem get?_of_not_mem (h : s.SuitedBy fields) (hmem : key ∉ fields.map Prod.fst) :
    (Tree.ofFields fields).get? key = none :=
  Tree.get?_ofFields_of_not_mem h.keys hmem

/-- A map with suitable fields passes the check of its section. -/
theorem check (h : s.SuitedBy fields) (path : String) :
    ((⟨path, .ofFields fields⟩ : Cursor).check s).outcome = .ok () := by
  refine Cursor.outcome_check_eq_ok_iff.2 ⟨rfl, fun spec hspec => ?_⟩
  rw [h.get?_key hspec]
  exact h.suits spec hspec

end SuitedBy

end Section

/-! ### Looking keys up -/

namespace Cursor

variable {t v : Tree} {path key : String}

theorem get?_eq_none (h : t.get? key = none) : (⟨path, t⟩ : Cursor).get? key = none := by
  rw [get?, h, Option.map_none]

theorem get?_eq_some (h : t.get? key = some v) :
    (⟨path, t⟩ : Cursor).get? key = some ⟨pathOf ⟨path, t⟩ key, v⟩ := by
  rw [get?, h, Option.map_some]

theorem child_eq_ok (h : t.get? key = some v) :
    (⟨path, t⟩ : Cursor).child key = .ok ⟨pathOf ⟨path, t⟩ key, v⟩ := by
  rw [child, get?_eq_some h]

theorem string_eq_ok {s : String} (h : t.get? key = some (.string s)) :
    (⟨path, t⟩ : Cursor).string key = .ok s := by
  rw [string, child_eq_ok h]
  rfl

/-- A value that may be missing is read back if its reader reads what is written for it. -/
theorem optional_eq_ok {α : Type} {read : Cursor → Except Error α} {write : α → Tree}
    {a : Option α} (h : t.get? key = a.map write)
    (hread : ∀ x ∈ a, ∀ path, read ⟨path, write x⟩ = .ok x) :
    (⟨path, t⟩ : Cursor).optional key read = .ok a := by
  unfold optional
  cases a with
  | none => rw [get?_eq_none h]
  | some x =>
    rw [get?_eq_some h]
    show (read ⟨pathOf ⟨path, t⟩ key, write x⟩).map some = _
    rw [hread x rfl]
    rfl

theorem string?_eq_ok {a : Option String} (h : t.get? key = a.map .string) :
    (⟨path, t⟩ : Cursor).string? key = .ok a :=
  optional_eq_ok h fun _ _ _ => rfl

/-- The items of a list read back one by one, wherever they stand. -/
theorem items_mapM {α : Type} {write : α → Tree} {l : List α} {read : Cursor → Except Error α}
    (hread : ∀ a ∈ l, ∀ path, read ⟨path, write a⟩ = .ok a) :
    ((⟨path, .list (l.map write)⟩ : Cursor).items >>= fun items => items.mapM read) = .ok l := by
  show List.mapM read (((l.map write).zipIdx).map _) = _
  refine mapM_eq_ok_iff.2 ⟨by simp, fun i item hitem => ?_⟩
  simp only [List.getElem?_map, List.getElem?_zipIdx, Option.map_map,
    Option.map_eq_some_iff] at hitem
  obtain ⟨a, ha, rfl⟩ := hitem
  exact ⟨a, ha, hread a (List.mem_of_getElem? ha) _⟩

/-- The entries of a map that is written from a dictionary read back one by one. -/
theorem entries_mapM {α : Type} {write : String × α → Tree} {d : Dict String α}
    (read : Cursor → Except Error α)
    (hread : ∀ e ∈ d.entries, ∀ path, read ⟨path, write e⟩ = .ok e.2) :
    ((⟨path, .ofEntries (d.entries.map fun e => (e.1, write e))⟩ : Cursor).entries >>=
      fun entries => entries.mapM fun e => do return (e.1, ← read e.2)) = .ok d.entries := by
  -- The keys were ascending before, so the map lists them as the dictionary does.
  show List.mapM _ ((Dict.ofList _).entries.map _) = _
  rw [Dict.entries_ofList_map, List.map_map]
  refine mapM_eq_ok_iff.2 ⟨by simp, fun i entry hentry => ?_⟩
  rw [List.getElem?_map, Option.map_eq_some_iff] at hentry
  obtain ⟨e, he, rfl⟩ := hentry
  refine ⟨e, he, ?_⟩
  show (read ⟨_, write e⟩ >>= fun a => .ok (e.1, a)) = .ok e
  rw [hread e (List.mem_of_getElem? he)]
  rfl

end Cursor

end ObsExport
