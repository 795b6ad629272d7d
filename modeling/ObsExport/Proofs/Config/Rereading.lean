import ObsExport.Proofs.Config.Spelling

/-!
# Reading what was written

Every block of an export reads back as what it was written from, wherever in a document it stands.
For each kind of block there is a lemma that its fields suit its section, and one for its reader.

The table of a split is the one map that is not listed in the order in which it was written, since
keys are ordered as texts and codes as numbers. A code is found behind its key
(`Split.code?_codeKey`), so different codes have different keys and no name is lost
(`Split.entries_mapM_nameOfConfig`).

Together: an export that can be written is read back, by itself or as a part of a document
(`Export.ofTree_toTree`).
-/

namespace ObsExport

/-! ### Category codes -/

namespace Number

/-- A natural number is written with digits. -/
theorem isDigit_of_mem_toDigits {n : Nat} {c : Char} (h : c ∈ Nat.toDigits 10 n) :
    c.isDigit = true :=
  Nat.isDigit_of_mem_toDigits (by decide) (by decide) h

/-- A natural number has a first digit. -/
theorem exists_toDigits (n : Nat) : ∃ c cs, Nat.toDigits 10 n = c :: cs ∧ c.isDigit = true := by
  cases h : Nat.toDigits 10 n with
  | nil => exact absurd h Nat.toDigits_ne_nil
  | cons c cs => exact ⟨c, cs, rfl, isDigit_of_mem_toDigits (h ▸ List.mem_cons_self)⟩

/-- The digits of a number are read as the number. -/
theorem digitsValue_toDigits (n : Nat) : digitsValue 0 (Nat.toDigits 10 n) = n := by
  have h := @Nat.ofDigitChars_ten_toDigits n
  rwa [Nat.ofDigitChars_eq_foldl] at h

/-- An integer that is not negative is written as a natural number. -/
theorem toList_toString_ofNat (n : Nat) : (toString (Int.ofNat n)).toList = Nat.toDigits 10 n :=
  Nat.toList_repr

/-- A negative integer is written with a sign in front of its digits. -/
theorem toList_toString_negSucc (n : Nat) :
    (toString (Int.negSucc n)).toList = '-' :: Nat.toDigits 10 (n + 1) := by
  show ("-" ++ Nat.repr (n + 1)).toList = _
  rw [String.toList_append, Nat.toList_repr]
  rfl

/-- An integer is read from its decimal text. -/
theorem signedDigits?_toString (i : Int) : signedDigits? (toString i).toList = some i := by
  cases i with
  | ofNat n =>
    obtain ⟨c, cs, hcs, hc⟩ := exists_toDigits n
    -- The first digit is no sign.
    have hminus : c ≠ '-' := by
      rintro rfl
      contradiction
    have hplus : c ≠ '+' := by
      rintro rfl
      contradiction
    have hdigits : ∀ d ∈ c :: cs, d.isDigit = true :=
      fun d hd => isDigit_of_mem_toDigits (hcs ▸ hd)
    have hvalue : digitsValue 0 (c :: cs) = n := hcs ▸ digitsValue_toDigits n
    rw [toList_toString_ofNat, hcs]
    simpa [signedDigits?, hminus, hplus, hvalue] using hdigits
  | negSucc n =>
    have hdigits : (Nat.toDigits 10 (n + 1)).all Char.isDigit = true :=
      List.all_eq_true.2 fun d hd => isDigit_of_mem_toDigits hd
    rw [toList_toString_negSucc]
    simp [signedDigits?, hdigits, Nat.toDigits_ne_nil, digitsValue_toDigits, Int.negSucc_eq]

/-- The decimal text of an integer does not begin with an underscore. -/
theorem dropWhile_toString (i : Int) :
    (toString i).toList.dropWhile (· = '_') = (toString i).toList := by
  cases i with
  | ofNat n =>
    obtain ⟨c, cs, hcs, hc⟩ := exists_toDigits n
    -- The first digit is no underscore.
    have hunderscore : c ≠ '_' := by
      rintro rfl
      contradiction
    rw [toList_toString_ofNat, hcs, List.dropWhile_cons_of_neg (by simpa using hunderscore)]
  | negSucc n =>
    rw [toList_toString_negSucc]
    rfl

end Number

/-- A code is found behind its key, with an underscore or without. -/
theorem Split.code?_codeKey (w : Spelling) (name : String) {code : Int} (h : InWord code) :
    code? (w.codeKey name code) = some code := by
  have hkey : (w.codeKey name code).toList.dropWhile (· = '_') = (toString code).toList := by
    unfold Spelling.codeKey
    split
    · rw [String.toList_append]
      exact Number.dropWhile_toString code
    · exact Number.dropWhile_toString code
  rw [code?, hkey, Number.signedDigits?_toString]
  exact word?_eq_some_iff.2 ⟨h, rfl⟩

example : Split.code? "_-9223372036854775808" = some leastWord := by decide

/-! ### Blocks -/

section Blocks

variable (w : Spelling)

namespace Spelling

/-- A finite number is read as it was written. -/
theorem asFloat_number {x : Float} (h : Binary.isFinite x = true) (path : String) :
    (⟨path, w.number x⟩ : Cursor).asFloat = .ok x := by
  rw [Cursor.asFloat, w.asFloat?_number x h]
  rfl

/-- A finite number is written as a number. -/
theorem admits_number {x : Float} (h : Binary.isFinite x = true) :
    ValueKind.number.admits (w.number x) = true := by
  rw [ValueKind.admits, w.asFloat?_number x h]
  rfl

/-- A value is written, unless it is the default and is left out. -/
theorem unlessDefault_cases (isDefault : Bool) (t : Tree) :
    w.unlessDefault isDefault t = some t ∨
      isDefault = true ∧ w.unlessDefault isDefault t = none := by
  unfold unlessDefault
  split
  next h => exact .inr ⟨(Bool.and_eq_true_iff.1 h).1, rfl⟩
  next => exact .inl rfl

/-- Whatever is written in the place of a value is the value. -/
theorem eq_of_mem_unlessDefault {isDefault : Bool} {t u : Tree}
    (h : w.unlessDefault isDefault t = some u) : u = t := by
  obtain hw | ⟨-, hw⟩ := w.unlessDefault_cases isDefault t
  · exact (Option.some.inj (hw.symm.trans h)).symm
  · exact absurd (hw.symm.trans h) (by simp)

end Spelling

namespace Filter

variable {f : Filter}

theorem suitedBy_toFields (h : f.Writable) : Section.bounding.SuitedBy (f.toFields w) where
  keys := by simp [toFields]
  suits := by
    have hlower : ∀ x, f.lower = some x → ValueKind.number.admits (w.number x) = true :=
      fun x hx => w.admits_number (h.1 x hx)
    have hupper : ∀ x, f.upper = some x → ValueKind.number.admits (w.number x) = true :=
      fun x hx => w.admits_number (h.2 x hx)
    simpa [Section.bounding, toFields, KeySpec.Suits, Dict.lookup, ValueKind.admits,
      Tree.asString?] using ⟨hlower, hupper⟩

theorem ofConfig_toTree (h : f.Writable) (path : String) :
    (ofConfig ⟨path, f.toTree w⟩).outcome = .ok f := by
  have hsuited := suitedBy_toFields w h
  have hblock : (f.toTree w).get? "bounding" = some (.ofFields (f.toFields w)) :=
    Tree.get?_single rfl
  have hmnemonic : (Tree.ofFields (f.toFields w)).get? "mnemonic" = some (.string f.mnemonic) :=
    hsuited.get?_of_mem (by simp [toFields]) (by decide)
  have hlower : ∀ path,
      (⟨path, .ofFields (f.toFields w)⟩ : Cursor).float? "lowerBound" = .ok f.lower := fun path =>
    Cursor.optional_eq_ok (hsuited.get?_of_mem (by simp [toFields]) (by decide))
      fun x hx => w.asFloat_number (h.1 x hx)
  have hupper : ∀ path,
      (⟨path, .ofFields (f.toFields w)⟩ : Cursor).float? "upperBound" = .ok f.upper := fun path =>
    Cursor.optional_eq_ok (hsuited.get?_of_mem (by simp [toFields]) (by decide))
      fun x hx => w.asFloat_number (h.2 x hx)
  unfold ofConfig
  rw [Cursor.get?_eq_some hblock]
  simp only [Logged.outcome_bind, Logged.outcome_monadLift, hsuited.check,
    Cursor.string_eq_ok hmnemonic, hlower, hupper, ok_bind]
  rfl

end Filter

namespace Split

variable (name : String) {s : Split}

theorem suitedBy_toFields (s : Split) : Section.category.SuitedBy (s.toFields w name) where
  keys := by simp [toFields]
  suits := by
    have htable : ∀ t, w.unlessDefault s.names.entries.isEmpty
        (.ofEntries (s.writtenNames w name)) = some t → t.entries?.isSome = true :=
      fun t ht => w.eq_of_mem_unlessDefault ht ▸ rfl
    simpa [Section.category, toFields, KeySpec.Suits, Dict.lookup, ValueKind.admits,
      Tree.asString?] using htable

/-- The codes of a map are written as different keys. -/
theorem nodup_writtenNames (h : s.Writable) :
    ((s.writtenNames w name).map Prod.fst).Nodup := by
  have hkeys : (s.names.keys.map (w.codeKey name)).Nodup := by
    -- A key gives back its code, so two codes with one key are the same.
    refine List.Nodup.map_on (fun a ha b hb hab => ?_) s.names.nodup_keys
    obtain ⟨p, hp, rfl⟩ := List.mem_map.1 ha
    obtain ⟨q, hq, rfl⟩ := List.mem_map.1 hb
    have hcode := code?_codeKey w name (h p hp)
    rw [hab, code?_codeKey w name (h q hq)] at hcode
    exact (Option.some.inj hcode).symm
  rw [writtenNames, List.map_map]
  rwa [Dict.keys, List.map_map] at hkeys

/-- The table of a split reads back, in whatever order its keys are listed. -/
theorem entries_mapM_nameOfConfig (h : s.Writable) (path : String) :
    ∃ names, ((⟨path, .ofEntries (s.writtenNames w name)⟩ : Cursor).entries >>=
      fun entries => entries.mapM nameOfConfig) = .ok names ∧ Dict.ofList names = s.names := by
  -- What the reader is given for an entry of the map.
  let place : String × Tree → String × Cursor := fun e =>
    (e.1, ⟨Cursor.pathOf ⟨path, .ofEntries (s.writtenNames w name)⟩ e.1, e.2⟩)
  have hlisted : ∀ e, e ∈ (Dict.ofList (s.writtenNames w name)).entries ↔
      ∃ p ∈ s.names.entries, (w.codeKey name p.1, .string p.2) = e := fun e =>
    (Dict.mem_entries_ofList (nodup_writtenNames w name h)).trans List.mem_map
  -- An entry of the map is read as the code and the name that it was written from.
  have hread : ∀ p ∈ s.names.entries,
      nameOfConfig (place (w.codeKey name p.1, .string p.2)) = .ok p := by
    intro p hp
    show nameOfConfig (w.codeKey name p.1, ⟨_, .string p.2⟩) = _
    rw [nameOfConfig, code?_codeKey w name (h p hp)]
    rfl
  have hentry : ∀ e ∈ (Dict.ofList (s.writtenNames w name)).entries.map place,
      ∃ p ∈ s.names.entries, nameOfConfig e = .ok p := by
    intro e he
    obtain ⟨e', he', rfl⟩ := List.mem_map.1 he
    obtain ⟨p, hp, rfl⟩ := (hlisted e').1 he'
    exact ⟨p, hp, hread p hp⟩
  obtain ⟨names, hnames⟩ := exists_mapM_eq_ok fun e he => (hentry e he).imp fun _ => And.right
  refine ⟨names, hnames, Dict.ofList_eq_of_mem_iff fun p => ?_⟩
  rw [mem_iff_of_mapM hnames]
  constructor
  · rintro ⟨e, he, hp⟩
    obtain ⟨p', hp', hread'⟩ := hentry e he
    obtain rfl := Except.ok.inj (hp.symm.trans hread')
    exact hp'
  · exact fun hp => ⟨_, List.mem_map.2 ⟨_, (hlisted _).2 ⟨p, hp, rfl⟩, rfl⟩, hread p hp⟩

/-- A split is made of its mnemonic and its names. -/
theorem make_names (s : Split) : (make s.mnemonic s.names).outcome = .ok s := by
  unfold make
  split
  next clash hclash =>
    -- No two codes of a split share a name.
    have hnone : firstClash? (s.names.entries.map fun e => (e.2, e.1)) = none := by
      refine firstClash?_eq_none_iff.2 fun p hp q hq hpq => ?_
      obtain ⟨p', hp', rfl⟩ := List.mem_map.1 hp
      obtain ⟨q', hq', rfl⟩ := List.mem_map.1 hq
      exact s.distinct p' hp' q' hq' hpq
    rw [hnone] at hclash
    contradiction
  next => rfl

/-- The block of a split is read as the split. -/
theorem ofCategory_toFields (h : s.Writable) (path : String) :
    (ofCategory ⟨path, .ofFields (s.toFields w name)⟩).outcome = .ok s := by
  have hsuited := suitedBy_toFields w name s
  have hmnemonic : (Tree.ofFields (s.toFields w name)).get? "mnemonic" =
      some (.string s.mnemonic) := hsuited.get?_of_mem (by simp [toFields]) (by decide)
  have hmap : (Tree.ofFields (s.toFields w name)).get? "map" =
      w.unlessDefault s.names.entries.isEmpty (.ofEntries (s.writtenNames w name)) :=
    hsuited.get?_of_mem (by simp [toFields]) (by decide)
  unfold ofCategory
  obtain hw | ⟨hempty, hw⟩ :=
    w.unlessDefault_cases s.names.entries.isEmpty (.ofEntries (s.writtenNames w name))
  · -- The table was written and reads back.
    obtain ⟨names, hnames, hdict⟩ := entries_mapM_nameOfConfig w name h
      (Cursor.pathOf ⟨path, .ofFields (s.toFields w name)⟩ "map")
    rw [Cursor.get?_eq_some (hmap.trans hw)]
    simp only [Logged.outcome_bind, Logged.outcome_monadLift, hsuited.check, hnames,
      Cursor.string_eq_ok hmnemonic, ok_bind, hdict, make_names]
  · -- The table is empty, and none was written.
    have hnames : Dict.ofList [] = s.names := Dict.ext (List.isEmpty_iff.1 hempty).symm
    rw [Cursor.get?_eq_none (hmap.trans hw)]
    simp only [Logged.outcome_bind, Logged.outcome_monadLift, Logged.outcome_pure, hsuited.check,
      Cursor.string_eq_ok hmnemonic, ok_bind, hnames, make_names]

theorem ofConfig_toTree (h : s.Writable) (path : String) :
    (ofConfig ⟨path, s.toTree w name⟩).outcome = .ok s := by
  have hblock : (s.toTree w name).get? "category" = some (.ofFields (s.toFields w name)) :=
    Tree.get?_single rfl
  unfold ofConfig
  rw [Cursor.get?_eq_some hblock]
  exact ofCategory_toFields w name h _

end Split

/-- A transform is read as it was written. -/
theorem Transform.ofConfig_toTree {t : Transform} (h : Binary.isFinite t.operand = true)
    (path : String) : ofConfig ⟨path, t.toTree w⟩ = .ok t := by
  -- The reader wants exactly one key.
  have hkeys : ∀ (path key : String) (v : Tree),
      (⟨path, .ofFields [(key, some v)]⟩ : Cursor).keys = [key] := fun _ _ _ => rfl
  cases t with
  | scale factor =>
    have hfactor : ∀ path, (⟨path, w.number factor⟩ : Cursor).asFloat = .ok factor :=
      w.asFloat_number h
    have hscale : (Tree.ofFields [("scale", some (w.number factor))]).get? "scale" =
        some (w.number factor) := Tree.get?_single (ValueKind.isNull_of_admits (w.admits_number h))
    simp only [ofConfig, toTree, hkeys, Cursor.get?_eq_some hscale, hfactor]
    rfl
  | offset amount =>
    have hamount : ∀ path, (⟨path, w.number amount⟩ : Cursor).asFloat = .ok amount :=
      w.asFloat_number h
    have hscale : (Tree.ofFields [("offset", some (w.number amount))]).get? "scale" = none :=
      Tree.get?_ofFields_of_not_mem (by simp) (by simp)
    have hoffset : (Tree.ofFields [("offset", some (w.number amount))]).get? "offset" =
        some (w.number amount) := Tree.get?_single (ValueKind.isNull_of_admits (w.admits_number h))
    simp only [ofConfig, toTree, hkeys, Cursor.get?_eq_none hscale, Cursor.get?_eq_some hoffset,
      hamount]
    rfl

namespace Candidates

variable {c : Candidates}

theorem suitedBy_toFields (c : Candidates) :
    Section.exportVariable.SuitedBy (c.toFields w) where
  keys := by simp [toFields]
  suits := by
    have hlist : ∀ t, w.unlessDefault c.transforms.isEmpty
        (.list (c.transforms.map (Transform.toTree w))) = some t → t.items?.isSome = true :=
      fun t ht => w.eq_of_mem_unlessDefault ht ▸ rfl
    simpa [Section.exportVariable, toFields, KeySpec.Suits, Dict.lookup, ValueKind.admits,
      Tree.asString?, Tree.items?] using hlist

/-- Transforms are read in the order in which they were written. -/
theorem chainOfConfig_toFields (h : ∀ t ∈ c.transforms, Binary.isFinite t.operand = true)
    (path : String) :
    Transform.chainOfConfig ⟨path, .ofFields (c.toFields w)⟩ = .ok c.transforms := by
  have htransforms : (Tree.ofFields (c.toFields w)).get? "transforms" =
      w.unlessDefault c.transforms.isEmpty (.list (c.transforms.map (Transform.toTree w))) :=
    (suitedBy_toFields w c).get?_of_mem (by simp [toFields]) (by decide)
  unfold Transform.chainOfConfig
  obtain hw | ⟨hempty, hw⟩ := w.unlessDefault_cases c.transforms.isEmpty
    (.list (c.transforms.map (Transform.toTree w)))
  · rw [Cursor.get?_eq_some (htransforms.trans hw)]
    exact Cursor.items_mapM fun t ht => Transform.ofConfig_toTree w (h t ht)
  · -- The chain is empty, and none was written.
    rw [Cursor.get?_eq_none (htransforms.trans hw), List.isEmpty_iff.1 hempty]

theorem ofConfig_toFields (h : ∀ t ∈ c.transforms, Binary.isFinite t.operand = true)
    (path : String) : ofConfig ⟨path, .ofFields (c.toFields w)⟩ = .ok c := by
  have hmnemonic : (Tree.ofFields (c.toFields w)).get? "mnemonic" =
      some (.list (c.names.map .string)) :=
    (suitedBy_toFields w c).get?_of_mem (by simp [toFields]) (by decide)
  have hnames : ∀ path, (⟨path, .list (c.names.map .string)⟩ : Cursor).asStrings = .ok c.names :=
    fun path => Cursor.items_mapM fun _ _ _ => rfl
  have hmake : make c.names c.transforms = .ok c := dif_neg c.nonempty
  simp only [ofConfig, Cursor.child_eq_ok hmnemonic, ok_bind, hnames,
    chainOfConfig_toFields w h, List.isEmpty_eq_false_iff.2 c.nonempty, hmake]
  rfl

end Candidates

namespace Timestamp

variable {t : Timestamp}

/-- A day has fewer hours than a word can hold. -/
theorem asInteger?_hours {hours : Int} (h : hours.natAbs ≤ 24) :
    (Tree.integer hours).asInteger? = some hours := by
  have hword : InWord hours := by
    unfold InWord leastWord greatestWord
    omega
  exact word?_eq_some_iff.2 ⟨hword, rfl⟩

theorem suitedBy_toFields (h : t.hoursFromUtc.natAbs ≤ 24) :
    Section.datetime.SuitedBy (t.toFields w) where
  keys := by cases hsource : t.source <;> simp [toFields, TimeSource.toFields, hsource]
  suits := by
    have hhours : ∀ v, w.unlessDefault (t.hoursFromUtc == 0) (.integer t.hoursFromUtc) = some v →
        v.asInteger?.isSome = true := by
      intro v hv
      rw [w.eq_of_mem_unlessDefault hv, asInteger?_hours h]
      rfl
    cases hsource : t.source with
    | components year month day hour minute second =>
      simpa [Section.datetime, toFields, TimeSource.toFields, hsource, KeySpec.Suits, Dict.lookup,
        ValueKind.admits, Tree.asString?] using hhours
    | epoch field =>
      simpa [Section.datetime, toFields, TimeSource.toFields, hsource, KeySpec.Suits, Dict.lookup,
        ValueKind.admits, Tree.asString?] using hhours

/-- The fields of a timestamp are read as they were written. -/
theorem sourceOfConfig_toFields (h : t.hoursFromUtc.natAbs ≤ 24) (path : String) :
    sourceOfConfig ⟨path, .ofFields (t.toFields w)⟩ = .ok t.source := by
  have hsuited := suitedBy_toFields w h
  have hfield : ∀ key v, (key, v) ∈ t.source.toFields → key ∈ Section.datetime.map KeySpec.key →
      (Tree.ofFields (t.toFields w)).get? key = v := fun key v hmem hknown =>
    hsuited.get?_of_mem (List.mem_append_left _ hmem) hknown
  cases hsource : t.source with
  | components year month day hour minute second =>
    rw [hsource] at hfield
    have hepoch : (Tree.ofFields (t.toFields w)).get? "epoch" = none :=
      hsuited.get?_of_not_mem (by simp [toFields, TimeSource.toFields, hsource])
    have hyear := hfield "year" (some (.string year)) (by simp [TimeSource.toFields]) (by decide)
    have hmonth := hfield "month" (some (.string month)) (by simp [TimeSource.toFields]) (by decide)
    have hday := hfield "day" (some (.string day)) (by simp [TimeSource.toFields]) (by decide)
    have hhour := hfield "hour" (some (.string hour)) (by simp [TimeSource.toFields]) (by decide)
    have hminute := hfield "minute" (minute.map .string) (by simp [TimeSource.toFields]) (by decide)
    have hsecond := hfield "second" (second.map .string) (by simp [TimeSource.toFields]) (by decide)
    simp only [sourceOfConfig, Cursor.get?_eq_none hepoch, Cursor.string_eq_ok hyear,
      Cursor.string_eq_ok hmonth, Cursor.string_eq_ok hday, Cursor.string_eq_ok hhour,
      Cursor.string?_eq_ok hminute, Cursor.string?_eq_ok hsecond, ok_bind]
    rfl
  | epoch field =>
    rw [hsource] at hfield
    have hepoch := hfield "epoch" (some (.string field)) (by simp [TimeSource.toFields]) (by decide)
    have hyear : (Tree.ofFields (t.toFields w)).get? "year" = none :=
      hsuited.get?_of_not_mem (by simp [toFields, TimeSource.toFields, hsource])
    simp only [sourceOfConfig, Cursor.get?_eq_some hepoch, Cursor.has, Cursor.get?_eq_none hyear]
    rfl

/-- The shift of a timestamp is read as it was written; no shift may be left out. -/
theorem hoursOfConfig_toFields (h : t.hoursFromUtc.natAbs ≤ 24) (path : String) :
    hoursOfConfig ⟨path, .ofFields (t.toFields w)⟩ = .ok t.hoursFromUtc := by
  have hget : (Tree.ofFields (t.toFields w)).get? "hoursFromUtc" =
      w.unlessDefault (t.hoursFromUtc == 0) (.integer t.hoursFromUtc) :=
    (suitedBy_toFields w h).get?_of_mem (by simp [toFields]) (by decide)
  have hread : (⟨path, .ofFields (t.toFields w)⟩ : Cursor).integerOrDefault .datetime
      "hoursFromUtc" = .ok t.hoursFromUtc := by
    unfold Cursor.integerOrDefault Cursor.orDefault
    obtain hw | ⟨hzero, hw⟩ :=
      w.unlessDefault_cases (t.hoursFromUtc == 0) (.integer t.hoursFromUtc)
    · rw [Cursor.get?_eq_some (hget.trans hw)]
      simp only [Cursor.asInteger, asInteger?_hours h]
      rfl
    · -- No shift was written, and the default of the section is none.
      rw [Cursor.get?_eq_none (hget.trans hw), eq_of_beq hzero]
      rfl
  simp only [hoursOfConfig, hread, ok_bind, Nat.not_lt.2 h, if_false]
  rfl

theorem ofConfig_toFields (h : t.hoursFromUtc.natAbs ≤ 24) (path : String) :
    (ofConfig ⟨path, .ofFields (t.toFields w)⟩).outcome = .ok t := by
  have hsuited := suitedBy_toFields w h
  have hformat : (⟨path, .ofFields (t.toFields w)⟩ : Cursor).optional "format" formatOfConfig =
      .ok (some t.format) := by
    have hget : (Tree.ofFields (t.toFields w)).get? "format" =
        (some t.format).map fun f => .string f.name :=
      hsuited.get?_of_mem (by simp [toFields]) (by decide)
    refine Cursor.optional_eq_ok hget fun format _ path => ?_
    cases format <;> rfl
  simp only [ofConfig, Logged.outcome_bind, Logged.outcome_monadLift, hsuited.check,
    sourceOfConfig_toFields w h, hoursOfConfig_toFields w h, hformat, ok_bind]
  rfl

end Timestamp

namespace Variable

variable {v : Variable}

theorem suitedBy_toFields (v : Variable) : Section.exportVariable.SuitedBy (v.toFields w) := by
  cases v with
  | candidates c => exact Candidates.suitedBy_toFields w c
  | timestamp t =>
    refine ⟨by simp [toFields], ?_⟩
    simp [Section.exportVariable, toFields, KeySpec.Suits, Dict.lookup, ValueKind.admits]

theorem ofConfig_toTree (h : v.Writable) (path : String) :
    (ofConfig ⟨path, v.toTree w⟩).outcome = .ok v := by
  cases v with
  | candidates c =>
    have hsuited := Candidates.suitedBy_toFields w c
    have hdatetime : (Tree.ofFields (c.toFields w)).get? "datetime" = none :=
      hsuited.get?_of_not_mem (by simp [Candidates.toFields])
    have hmnemonic : (Tree.ofFields (c.toFields w)).get? "mnemonic" =
        some (.list (c.names.map .string)) :=
      hsuited.get?_of_mem (by simp [Candidates.toFields]) (by decide)
    simp only [ofConfig, toTree, toFields, Logged.outcome_bind, hsuited.check, ok_bind, Cursor.has,
      Cursor.get?_eq_none hdatetime, Cursor.get?_eq_some hmnemonic]
    simp [Candidates.ofConfig_toFields w h]
  | timestamp t =>
    have hsuited := suitedBy_toFields w (.timestamp t)
    have hdatetime : (Tree.ofFields (toFields w (.timestamp t))).get? "datetime" =
        some (.ofFields (t.toFields w)) := hsuited.get?_of_mem (by simp [toFields]) (by decide)
    have hother : ∀ key, key ≠ "datetime" →
        (Tree.ofFields (toFields w (.timestamp t))).get? key = none :=
      fun key hkey => hsuited.get?_of_not_mem (by simpa [toFields] using hkey)
    simp only [ofConfig, toTree, Logged.outcome_bind, hsuited.check, ok_bind, Cursor.has,
      Cursor.get?_eq_some hdatetime, Cursor.get?_eq_none (hother "mnemonic" (by decide)),
      Cursor.get?_eq_none (hother "transforms" (by decide))]
    simp [Timestamp.ofConfig_toFields w h]

end Variable

end Blocks

/-! ### Exports -/

namespace Export

variable (w : Spelling) {e : Export}

theorem suitedBy_toFields (e : Export) : Section.exports.SuitedBy (e.toFields w) where
  keys := by simp [toFields]
  suits := by
    simp [Section.exports, toFields, KeySpec.Suits, Dict.lookup, ValueKind.admits, Tree.items?]

/-- Entries whose names differ are all collected. -/
theorem unique_eq_ok {α : Type} (family : NameFamily) {entries : List (String × α)}
    (h : (entries.map Prod.fst).Nodup) : unique family entries = .ok (Dict.ofList entries) := by
  -- No name that is still to come was collected before.
  have hgen : ∀ (l : List (String × α)) (d : Dict String α), (l.map Prod.fst).Nodup →
      (∀ e ∈ l, d.contains e.1 = false) →
      l.foldlM (fun d e =>
          if d.contains e.1 then .error (.duplicateName family e.1) else .ok (d.insert e.1 e.2)) d =
        (.ok (l.foldl (fun d e => d.insert e.1 e.2) d) : Except Error (Dict String α)) := by
    intro l
    induction l with
    | nil => exact fun d _ _ => rfl
    | cons e l ih =>
      intro d hnodup hnew
      obtain ⟨he, hl⟩ := List.nodup_cons.1 hnodup
      rw [List.foldlM_cons, List.foldl_cons, hnew e List.mem_cons_self]
      refine ih _ hl fun e' he' => ?_
      have hne : e'.1 ≠ e.1 := fun heq => he (heq ▸ List.mem_map.2 ⟨e', he', rfl⟩)
      have hold := hnew e' (List.mem_cons_of_mem _ he')
      rwa [Dict.contains, Dict.find?_insert, if_neg hne]
  exact hgen entries Dict.empty h fun _ _ => rfl

/-- The entries of a dictionary have different names. -/
theorem unique_entries {α : Type} (family : NameFamily) (d : Dict String α) :
    unique family d.entries = .ok d := by
  rw [unique_eq_ok family d.nodup_keys]
  exact congrArg Except.ok (Dict.ext (Dict.entries_ofList d.sorted))

/-- An export is made of its parts. -/
theorem make_parts (e : Export) : make e.filters e.splits.entries e.vars.entries = .ok e := by
  simp only [make, unique_entries, ok_bind]
  rw [dif_neg e.nonempty]
  rfl

/-- A list with items passes as a list. -/
theorem nonEmptyItems_eq {path : String} {items : List Tree} (h : items ≠ []) :
    nonEmptyItems ⟨path, .list items⟩ = (⟨path, .list items⟩ : Cursor).items := by
  cases items with
  | nil => exact absurd rfl h
  | cons t items => rfl

/-- A map with entries passes as a map. -/
theorem nonEmptyEntries_eq {path : String} {entries : List (String × Tree)} (h : entries ≠ []) :
    nonEmptyEntries ⟨path, .map entries⟩ = (⟨path, .map entries⟩ : Cursor).entries := by
  cases entries with
  | nil => exact absurd rfl h
  | cons t items => rfl

/-- A map that was written value by value is read as the dictionary it came from. -/
theorem readEntries_of_dict {α : Type} {d : Dict String α} {write : String × α → Tree}
    {read : Cursor → Logged α} (hd : d.entries ≠ [])
    (hread : ∀ e ∈ d.entries, ∀ path, (read ⟨path, write e⟩).outcome = .ok e.2) (path : String) :
    (nonEmptyEntries ⟨path, .ofEntries (d.entries.map fun e => (e.1, write e))⟩ >>=
      fun entries => (readEntries read entries).outcome) = .ok d.entries := by
  have hlisted : (Dict.ofList (d.entries.map fun e => (e.1, write e))).entries ≠ [] := by
    rw [Dict.entries_ofList_map]
    simpa using hd
  simp only [readEntries, Logged.outcome_bind, Logged.outcome_mapM, Tree.ofEntries,
    nonEmptyEntries_eq hlisted]
  exact Cursor.entries_mapM (fun c => (read c).outcome) hread

/-- The filters of an export are read in their order; an empty list of them was left out. -/
theorem filtersOfConfig_toFields (h : e.Writable) (path : String) :
    (filtersOfConfig ⟨path, .ofFields (e.toFields w)⟩).outcome = .ok e.filters := by
  have hget : (Tree.ofFields (e.toFields w)).get? "filters" =
      if e.filters = [] then none else some (.list (e.filters.map (Filter.toTree w))) :=
    (suitedBy_toFields w e).get?_of_mem (by simp [toFields]) (by decide)
  unfold filtersOfConfig
  split at hget
  next hnone =>
    -- An empty list would be refused, so none is written.
    rw [Cursor.get?_eq_none hget, hnone]
    rfl
  next hsome =>
    rw [Cursor.get?_eq_some hget]
    simp only [Logged.outcome_bind, Logged.outcome_monadLift, Logged.outcome_mapM]
    rw [nonEmptyItems_eq (by simpa using hsome)]
    exact Cursor.items_mapM fun f hf => Filter.ofConfig_toTree w (h.filters f hf)

/-- The splits of an export are read under their names; an empty map of them was left out. -/
theorem splitsOfConfig_toFields (h : e.Writable) (path : String) :
    (splitsOfConfig ⟨path, .ofFields (e.toFields w)⟩).outcome = .ok e.splits.entries := by
  have hget : (Tree.ofFields (e.toFields w)).get? "splits" =
      if e.splits.entries = [] then none else some (.ofEntries (e.writtenSplits w)) :=
    (suitedBy_toFields w e).get?_of_mem (by simp [toFields]) (by decide)
  unfold splitsOfConfig
  split at hget
  next hnone =>
    rw [Cursor.get?_eq_none hget, hnone]
    rfl
  next hsome =>
    rw [Cursor.get?_eq_some hget]
    simp only [Logged.outcome_bind, Logged.outcome_monadLift]
    exact readEntries_of_dict hsome (fun s hs => Split.ofConfig_toTree w s.1 (h.splits s hs)) _

theorem ofConfig_toTree (h : e.Writable) (path : String) :
    (ofConfig ⟨path, e.toTree w⟩).outcome = .ok e := by
  have hsuited := suitedBy_toFields w e
  have hvariables : (Tree.ofFields (e.toFields w)).get? "variables" =
      some (.ofEntries (e.writtenVars w)) := hsuited.get?_of_mem (by simp [toFields]) (by decide)
  have hread : (nonEmptyEntries ⟨Cursor.pathOf ⟨path, .ofFields (e.toFields w)⟩ "variables",
      .ofEntries (e.writtenVars w)⟩ >>= fun entries =>
        (readEntries Variable.ofConfig entries).outcome) = .ok e.vars.entries :=
    readEntries_of_dict e.nonempty (fun v hv => Variable.ofConfig_toTree w (h.vars v hv)) _
  obtain ⟨entries, hentries, hvars⟩ := bind_eq_ok_iff.1 hread
  simp only [ofConfig, toTree, Logged.outcome_bind, Logged.outcome_monadLift, hsuited.check,
    Cursor.child_eq_ok hvariables, filtersOfConfig_toFields w h, splitsOfConfig_toFields w h,
    hentries, hvars, make_parts, ok_bind]
  rfl

/-- Reading inverts writing. An export that can be written is read back from the tree it is written
as, in any spelling: from the tree itself, and from any document that holds it as its export. -/
theorem ofTree_toTree (h : e.Writable) :
    (ofTree (e.toTree w)).outcome = .ok e ∧
      ∀ document : Tree, document.find? "export" = some (e.toTree w) →
        (ofTree document).outcome = .ok e := by
  -- A section has no key by its own name, so it is not taken for a document.
  have hbare : (e.toTree w).find? "export" = none := by
    rw [toTree, Tree.find?_ofFields (suitedBy_toFields w e).keys]
    simp [toFields, Dict.lookup]
  constructor
  · rw [ofTree, hbare]
    exact ofConfig_toTree w h "export"
  · intro document hdocument
    rw [ofTree, hdocument]
    exact ofConfig_toTree w h "export"

/-- An export with all kinds of parts, and with the least and the greatest code there is. -/
def buoys : Export where
  filters := [⟨"SST", some 271, some 310.5⟩, ⟨"PRES", none, some 1100⟩]
  splits := Dict.ofList [
    ("kind", ⟨"KIND", Dict.ofList [(leastWord, "least"), (-1, "drifting"), (7, "moored"),
      (greatestWord, "greatest")], by decide⟩),
    ("owner", ⟨"OWNER", ∅, by decide⟩)]
  vars := Dict.ofList [
    ("received", .timestamp ⟨.epoch "RECV", 0, .epochSeconds⟩),
    ("temperature", .candidates ⟨["SST", "SST2"], [.scale 0.1, .offset 273], by decide⟩),
    ("time", .timestamp ⟨.components "YEAR" "MON" "DAY" "HOUR" (some "MIN") none, -24, .iso8601⟩)]
  nonempty := by decide

/-- The export of buoys is read from its document, and from one with the section under its name. -/
theorem ofTree_toTree_buoys :
    buoys.Writable ∧ (ofTree (buoys.toTree .elaborate)).outcome = .ok buoys ∧
      (ofTree (.ofFields [("export", some (buoys.toTree .elaborate))])).outcome = .ok buoys := by
  have hwritable : buoys.Writable := ⟨by decide +kernel, by decide +kernel, by decide +kernel⟩
  obtain ⟨hbare, hheld⟩ := ofTree_toTree .elaborate hwritable
  refine ⟨hwritable, hbare, hheld _ ?_⟩
  rw [Tree.find?_ofFields (by simp)]
  rfl

end Export

end ObsExport
