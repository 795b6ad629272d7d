import ObsExport.Proofs.Config.Readers
import ObsExport.Split

/-!
# Names of categories

The table of a category block is a map from keys to names. A key denotes a code, and it is not the
only one to do so: `1`, `_1`, `+1` and `01` are one code. So the entries of a table may give a code
several names (`Split.Unambiguous` says that they do not), and then the last of them in key order
stays and the others are dropped, although a table that gives two codes one name is refused.

What a block that was read does with its names is one statement (`Split.names_kept_iff`): the last
name of every code is kept, and all names are kept exactly if no code has two.
-/

namespace ObsExport

namespace Split

/-! ### Tables -/

/-- The entries of the table of a category block. A block without a table has none. -/
def tableOf (block : Tree) : List (String × Tree) :=
  ((block.get? "map").bind Tree.entries?).getD []

/-- An entry of a table gives a code a name. -/
def Gives (e : String × Tree) (code : Int) (name : String) : Prop :=
  code? e.1 = some code ∧ e.2.asString? = some name

/-- A table whose entries for one code agree. -/
def Unambiguous (table : List (String × Tree)) : Prop :=
  ∀ e ∈ table, ∀ e' ∈ table, code? e.1 = code? e'.1 → e.2.asString? = e'.2.asString?

instance (e : String × Tree) (code : Int) (name : String) : Decidable (Gives e code name) :=
  inferInstanceAs (Decidable (_ ∧ _))

instance (table : List (String × Tree)) : Decidable (Unambiguous table) :=
  inferInstanceAs (Decidable (∀ e ∈ table, ∀ e' ∈ table, _))

variable {c : Cursor} {s : Split}

/-- An entry of the map is read as a code and a name exactly if it gives the code the name. -/
theorem nameOfConfig_eq_ok_iff (key path : String) (v : Tree) (p : Int × String) :
    nameOfConfig (key, ⟨path, v⟩) = .ok p ↔ Gives (key, v) p.1 p.2 := by
  obtain ⟨code, name⟩ := p
  simp only [nameOfConfig, bind_eq_ok_iff, Cursor.expect_eq_ok_iff, Cursor.asString, Gives]
  constructor
  · rintro ⟨_, hcode, _, hname, hp⟩
    obtain ⟨rfl, rfl⟩ := Prod.mk.inj (Except.ok.inj hp)
    exact ⟨hcode, hname⟩
  · rintro ⟨hcode, hname⟩
    exact ⟨code, hcode, name, hname, rfl⟩

/-- A split that is made has the names it was made with. -/
theorem make_eq_ok {mnemonic : String} {names : Dict Int String}
    (h : (make mnemonic names).outcome = .ok s) : s.names = names := by
  unfold make at h
  split at h
  · contradiction
  · exact congrArg Split.names (Except.ok.inj h).symm

/-- A category block that was read has a table of codes and names, entry by entry, and of several
names for one code the split has the last. -/
theorem ofCategory_eq_ok (h : (ofCategory c).outcome = .ok s) :
    ∃ names, List.Forall₂ (fun e p => Gives e p.1 p.2) (tableOf c.value) names ∧
      s.names = Dict.ofList names := by
  simp only [ofCategory, Logged.outcome_bind, bind_eq_ok_iff] at h
  obtain ⟨-, -, h⟩ := h
  split at h
  next table htable =>
    simp only [Logged.outcome_bind, Logged.outcome_monadLift, bind_eq_ok_iff] at h
    obtain ⟨names, hnames, mnemonic, -, hmake⟩ := h
    obtain ⟨v, hv, rfl⟩ := Cursor.get?_eq_some_iff.1 htable
    obtain ⟨entries, rfl, hpaired⟩ :=
      (Cursor.entries_mapM_eq_ok_iff (R := fun e p => Gives e p.1 p.2) nameOfConfig_eq_ok_iff).1
        (bind_eq_ok_iff.2 hnames)
    refine ⟨names, ?_, make_eq_ok hmake⟩
    rw [tableOf, hv]
    exact hpaired
  -- A block without a table has the empty one.
  next hnone =>
    simp only [Logged.outcome_bind, Logged.outcome_monadLift, Logged.outcome_pure, ok_bind,
      bind_eq_ok_iff] at h
    obtain ⟨mnemonic, -, hmake⟩ := h
    refine ⟨[], ?_, make_eq_ok hmake⟩
    rw [tableOf, Cursor.get?_eq_none_iff.1 hnone]
    exact .nil

/-! ### Names that are kept -/

section Kept

variable {table : List (String × Tree)} {names : List (Int × String)} {code : Int} {name : String}

/-- The name of a code is the last one that the map gives it. -/
theorem nameOf_eq_of_lookup (hs : s.names = Dict.ofList names)
    (h : Dict.lookup code names.reverse = some name) : s.nameOf code = name := by
  rw [nameOf, hs, Dict.find?_ofList, h, Option.getD_some]

/-- An entry gives one name to one code. -/
theorem Gives.unique {e : String × Tree} {p : Int × String} (hp : Gives e p.1 p.2)
    (h : Gives e code name) : p = (code, name) :=
  Prod.ext (Option.some.inj (hp.1.symm.trans h.1)) (Option.some.inj (hp.2.symm.trans h.2))

/-- Among the names of a table the last one for a code is found first from behind. -/
theorem lookup_reverse_of_last {before after : List (String × Tree)} {e : String × Tree}
    (hpaired : List.Forall₂ (fun e p => Gives e p.1 p.2) (before ++ e :: after) names)
    (h : Gives e code name) (hlast : ∀ e' ∈ after, code? e'.1 ≠ some code) :
    Dict.lookup code names.reverse = some name := by
  -- The induction is on the entries before, which come last when the names are reversed.
  induction before generalizing names with
  | nil =>
    obtain ⟨p, rest, hp, hrest, rfl⟩ := List.forall₂_cons_left_iff.1 hpaired
    have hnone : Dict.lookup code rest.reverse = none := by
      refine Dict.lookup_eq_none_iff.2 fun hmem => ?_
      obtain ⟨q, hq, rfl⟩ := List.mem_map.1 hmem
      obtain ⟨e', he', hgives⟩ := exists_of_forall₂ hrest (List.mem_reverse.1 hq)
      exact hlast e' he' hgives.1
    rw [hp.unique h, List.reverse_cons, Dict.lookup_append, hnone]
    simp [Dict.lookup]
  | cons first before ih =>
    obtain ⟨p, rest, -, hrest, rfl⟩ := List.forall₂_cons_left_iff.1 hpaired
    rw [List.reverse_cons, Dict.lookup_append, ih hrest, Option.some_or]

/-- A code in a table is named by one of the entries for it. -/
theorem exists_gives_nameOf {e : String × Tree}
    (hpaired : List.Forall₂ (fun e p => Gives e p.1 p.2) table names)
    (hs : s.names = Dict.ofList names) (he : e ∈ table) (h : Gives e code name) :
    ∃ e' ∈ table, Gives e' code (s.nameOf code) := by
  obtain ⟨p, hp, hgives⟩ := exists_of_forall₂ hpaired.flip he
  obtain rfl := Gives.unique hgives h
  -- The code is among those that were read, so looking it up does not fail.
  cases hlookup : Dict.lookup code names.reverse with
  | none =>
    refine absurd ?_ (Dict.lookup_eq_none_iff.1 hlookup)
    exact List.mem_map.2 ⟨_, List.mem_reverse.2 hp, rfl⟩
  | some found =>
    have hfound := List.mem_reverse.1 (Dict.mem_of_lookup hlookup)
    rw [nameOf_eq_of_lookup hs hlookup]
    exact exists_of_forall₂ hpaired hfound

end Kept

/-- **The last name of a code is kept, and all names are kept if no code has two.** Of a category
block that was read every entry gives a code a name. Each code is named by the last entry for it, so
that every entry names its code exactly if the entries for one code agree. -/
theorem names_kept_iff (h : (ofCategory c).outcome = .ok s) :
    (∀ e ∈ tableOf c.value, ∃ code name, Gives e code name) ∧
      (∀ before e after code name, tableOf c.value = before ++ e :: after → Gives e code name →
        (∀ e' ∈ after, code? e'.1 ≠ some code) → s.nameOf code = name) ∧
      ((∀ e ∈ tableOf c.value, ∀ code name, Gives e code name → s.nameOf code = name) ↔
        Unambiguous (tableOf c.value)) := by
  obtain ⟨names, hpaired, hs⟩ := ofCategory_eq_ok h
  refine ⟨?_, ?_, ?_, ?_⟩
  · intro e he
    obtain ⟨p, -, hgives⟩ := exists_of_forall₂ hpaired.flip he
    exact ⟨p.1, p.2, hgives⟩
  · intro before e after code name htable hgives hlast
    rw [htable] at hpaired
    exact nameOf_eq_of_lookup hs (lookup_reverse_of_last hpaired hgives hlast)
  · intro hkept e he e' he' hcodes
    -- Both entries name the code as the split does.
    obtain ⟨p, -, hgives⟩ := exists_of_forall₂ hpaired.flip he
    obtain ⟨q, -, hgives'⟩ := exists_of_forall₂ hpaired.flip he'
    have hcode : q.1 = p.1 := Option.some.inj (hgives'.1.symm.trans (hcodes.symm.trans hgives.1))
    rw [hgives.2, hgives'.2, ← hkept e he _ _ hgives, ← hkept e' he' _ _ hgives', hcode]
  · intro hagree e he code name hgives
    -- The entry that names the code agrees with this one.
    obtain ⟨e', he', hgives'⟩ := exists_gives_nameOf hpaired hs he hgives
    have hname := hagree e' he' e he (hgives'.1.trans hgives.1.symm)
    exact Option.some.inj (hgives'.2.symm.trans (hname.trans hgives.2))

/-- A table with several spellings of codes, and with one code twice under one name. -/
def sensorNames : List (String × Tree) := [
  ("+2", .string "visible"), ("-07", .string "broken"), ("2", .string "visible"),
  ("_1", .string "infrared")]

/-- A split that keeps the names of `sensorNames`. -/
def sensors : Split :=
  ⟨"SENSOR", Dict.ofList [(-7, "broken"), (1, "infrared"), (2, "visible")], by decide⟩

/-- The codes of `sensorNames` have their names, whichever way they are spelled. -/
theorem names_kept_iff_sensors :
    (ofCategory ⟨"category", .map [("map", .map sensorNames), ("mnemonic", .string "SENSOR")]⟩).outcome
        = .ok sensors ∧
      sensors.nameOf 2 = "visible" ∧ sensors.nameOf (-7) = "broken" ∧
      sensors.nameOf 1 = "infrared" := by
  have hread : (ofCategory ⟨"category",
      .map [("map", .map sensorNames), ("mnemonic", .string "SENSOR")]⟩).outcome = .ok sensors := rfl
  obtain ⟨-, -, hkept⟩ := names_kept_iff hread
  have hagree : Unambiguous sensorNames := by decide
  have hnamed : ∀ e ∈ sensorNames, ∀ code name, Gives e code name → sensors.nameOf code = name :=
    hkept.2 hagree
  refine ⟨hread, ?_, ?_, ?_⟩
  · exact hnamed ("+2", .string "visible") (by simp [sensorNames]) 2 "visible" (by decide)
  · exact hnamed ("-07", .string "broken") (by simp [sensorNames]) (-7) "broken" (by decide)
  · exact hnamed ("_1", .string "infrared") (by simp [sensorNames]) 1 "infrared" (by decide)

/-- A table that gives one code two names. -/
def renamed : List (String × Tree) := [("1", .string "infrared"), ("_1", .string "visible")]

/-- A block with the table `renamed` is read, and the first name of its code is dropped. -/
theorem name_dropped_renamed :
    ∃ s, (ofCategory ⟨"category",
        .map [("map", .map renamed), ("mnemonic", .string "SENSOR")]⟩).outcome = .ok s ∧
      ("1", Tree.string "infrared") ∈ renamed ∧ Gives ("1", .string "infrared") 1 "infrared" ∧
      s.nameOf 1 = "visible" := by
  refine ⟨⟨"SENSOR", Dict.ofList [(1, "visible")], by decide⟩, rfl, ?_, by decide, rfl⟩
  simp [renamed]

end Split

end ObsExport
