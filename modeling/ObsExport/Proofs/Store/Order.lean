import ObsExport.Proofs.Store.Offers

/-!
# The order of writing does not matter

Whether a store takes a variable depends on what was written before, but whether it takes all of
some variables does not depend on their order: that is so exactly if the store with all of them is
consistent (`foldlM_write_eq_ok_iff`), and consistency is a property of the variables as a
collection (`Consistent.perm`).

What is read from a consistent store does not depend on the order either. A name belongs to one
variable (`Consistent.find?_perm`), the number of records is that of any variable
(`Consistent.rowCount_perm`), and a codec is chosen by looking for the first variable that asks for
one, but refused if another one asks for something else (`codec_cases`). `write_order_irrelevant`
puts these together.
-/

namespace ObsExport

namespace Store

variable {s s' : Store} {v : StoredVariable} {vars vars' : List StoredVariable}

/-! ### Stores that take all variables -/

/-- A store takes a variable with which it would be consistent. -/
theorem refusal?_of_consistent (hvars : s'.vars = s.vars ++ [v]) (hs' : s'.Consistent) :
    s.refusal? v = none := by
  have hnames : s'.names = s.names ++ [v.name] := by rw [names, hvars, List.map_append]; rfl
  have hcolumns : s'.columns = s.columns ++ v.columns := by
    rw [columns, hvars, List.flatMap_append, List.flatMap_singleton]
    rfl
  have hcolumnNames : s'.columnNames = s.columnNames ++ v.columns.map Column.name := by
    rw [columnNames, hcolumns, List.map_append]
    rfl
  have hrow : v.rowCount = s'.rowCount := hs'.rowCounts v (by simp [hvars])
  rw [refusal?_eq_none_iff]
  refine ⟨?name, ?sizes, ?columns, ?rows⟩
  case name =>
    have hnd := hs'.names
    rw [hnames, List.nodup_append] at hnd
    intro hmem
    exact hnd.2.2 _ hmem _ (List.mem_singleton.2 rfl) rfl
  case sizes =>
    intro c hc
    rw [hrow]
    exact hs'.sizes c (by simp [hcolumns, hc])
  case columns =>
    intro c hc hmem
    have hnd := hs'.columnNames
    rw [hcolumnNames, List.nodup_append] at hnd
    exact hnd.2.2 _ hmem _ (List.mem_map.2 ⟨c, hc, rfl⟩) rfl
  case rows =>
    -- The first variable of the store is still there.
    intro rows hrows
    obtain ⟨first, hfirst, rfl⟩ := Option.map_eq_some_iff.1 hrows
    have hmem : first ∈ s'.vars := by
      rw [hvars]
      exact List.mem_append_left _ (List.mem_of_head? hfirst)
    rw [hs'.rowCounts first hmem, hrow]

/-- Without its last variable a consistent store is consistent. -/
theorem Consistent.of_append (hvars : s'.vars = s.vars ++ [v]) (hs' : s'.Consistent) :
    s.Consistent := by
  have hsub : s.vars.Sublist s'.vars := by
    rw [hvars]
    exact List.sublist_append_left ..
  have hcolumns : s.columns.Sublist s'.columns := by
    rw [columns, columns, hvars, List.flatMap_append]
    exact List.sublist_append_left ..
  -- A variable that is left has as many records as both stores.
  have hrows : ∀ w ∈ s.vars, s.rowCount = s'.rowCount := by
    intro w hw
    obtain ⟨first, hfirst⟩ := Option.isSome_iff_exists.1 (List.isSome_head?.2 (List.ne_nil_of_mem hw))
    have hcount : s.rowCount = first.rowCount := by
      rw [rowCount, rows?, hfirst]
      rfl
    rw [hcount, hs'.rowCounts first (hsub.subset (List.mem_of_head? hfirst))]
  refine ⟨hs'.names.sublist (hsub.map _), hs'.columnNames.sublist (hcolumns.map _), ?_, ?_⟩
  · intro w hw
    rw [hrows w hw, hs'.rowCounts w (hsub.subset hw)]
  · intro c hc
    obtain ⟨w, hw, -⟩ := List.mem_flatMap.1 hc
    rw [hrows w hw, hs'.sizes c (hcolumns.subset hc)]

/-- A store takes all of some variables, one after another, exactly if the store of these variables
is consistent. -/
theorem foldlM_write_eq_ok_iff (hregular : ∀ v ∈ vars, v.Regular) :
    (vars.foldlM write empty).outcome = .ok s ↔ s.vars = vars ∧ s.Consistent := by
  -- The induction takes the last variable away.
  induction vars using List.reverseRecOn generalizing s with
  | nil =>
    show Except.ok empty = .ok s ↔ _
    constructor
    · intro h
      obtain rfl := Except.ok.inj h
      exact ⟨rfl, consistent_empty⟩
    · rintro ⟨hvars, -⟩
      obtain ⟨kept⟩ := s
      obtain rfl : kept = [] := hvars
      rfl
  | append_singleton vars v ih =>
    obtain ⟨hvars, hv⟩ := List.forall_mem_append.1 hregular
    -- What comes before the last variable is consistent, and the last one is taken if it keeps it so.
    rw [List.foldlM_append, Logged.outcome_bind, bind_eq_ok_iff]
    constructor
    · rintro ⟨before, hbefore, hwrite⟩
      rw [ih hvars] at hbefore
      obtain ⟨rfl, hconsistent⟩ := hbefore
      rw [List.foldlM_cons, Logged.outcome_bind, bind_eq_ok_iff] at hwrite
      obtain ⟨after, hwrite, hlast⟩ := hwrite
      obtain rfl : after = s := Except.ok.inj hlast
      exact ⟨(write_eq_ok hwrite).2, hconsistent.write (hv v (List.mem_singleton.2 rfl)) hwrite⟩
    · rintro ⟨hs, hconsistent⟩
      refine ⟨⟨vars⟩, (ih hvars).2 ⟨rfl, hconsistent.of_append hs⟩, ?_⟩
      have hnone : refusal? ⟨vars⟩ v = none := refusal?_of_consistent hs hconsistent
      have hstore : s = ⟨vars ++ [v]⟩ := by rw [← hs]
      rw [List.foldlM_cons, Logged.outcome_bind, write, hnone, hstore]
      rfl

/-! ### Consistent stores of the same variables -/

/-- Consistent stores of the same variables have the same number of records. -/
theorem Consistent.rowCount_perm (hs : s.Consistent) (h : s.vars.Perm s'.vars) :
    s'.rowCount = s.rowCount := by
  -- The first variable of one store is somewhere in the other, and any variable has the number.
  cases hvars : s'.vars with
  | nil =>
    have hnil : s.vars = [] := List.perm_nil.1 (hvars ▸ h)
    rw [rowCount, rowCount, rows?, rows?, hvars, hnil]
  | cons first later =>
    have hcount : s'.rowCount = first.rowCount := by
      rw [rowCount, rows?, hvars]
      rfl
    have hmem : first ∈ s.vars := h.mem_iff.2 (by simp [hvars])
    rw [hcount, hs.rowCounts first hmem]

/-- Consistency does not depend on the order of the variables. -/
theorem Consistent.perm (hs : s.Consistent) (h : s.vars.Perm s'.vars) : s'.Consistent := by
  have hcolumns : s.columns.Perm s'.columns := h.flatMap_right _
  have hrows := hs.rowCount_perm h
  refine ⟨(h.map _).nodup_iff.1 hs.names, (hcolumns.map _).nodup_iff.1 hs.columnNames, ?_, ?_⟩
  · intro w hw
    rw [hrows, hs.rowCounts w (h.mem_iff.2 hw)]
  · intro c hc
    rw [hrows, hs.sizes c (hcolumns.mem_iff.2 hc)]

/-- Under a name consistent stores of the same variables find the same. -/
theorem Consistent.find?_perm (hs : s.Consistent) (h : s.vars.Perm s'.vars) (name : String) :
    s'.find? name = s.find? name := by
  ext v
  calc s'.find? name = some v
      ↔ v ∈ s'.vars ∧ v.name = name := find?_eq_some_iff (hs.perm h).names
    _ ↔ v ∈ s.vars ∧ v.name = name := by rw [h.mem_iff]
    _ ↔ s.find? name = some v := (find?_eq_some_iff hs.names).symm

/-! ### Codecs -/

/-- The codecs that variables ask for. -/
def asked (vars : List StoredVariable) : List Codec := vars.filterMap StoredVariable.compression

/-- Choosing a codec ends with the first one that was asked for, unless another one was asked for
as well. -/
theorem chosenCodec?_cases (chosen : Option (String × Codec)) (vars : List StoredVariable) :
    let codecs := (chosen.map Prod.snd).toList ++ asked vars
    (∃ out, chosenCodec? chosen vars = .ok out ∧ out.map Prod.snd = codecs.head? ∧
      ∀ codec ∈ codecs, some codec = codecs.head?) ∨
    ((∃ path expected, chosenCodec? chosen vars = .error (.invalidConfig path expected)) ∧
      ∃ codec ∈ codecs, some codec ≠ codecs.head?) := by
  -- What was chosen before stands in front of what the variables ask for.
  induction vars generalizing chosen with
  | nil =>
    refine .inl ⟨chosen, rfl, ?_, ?_⟩ <;> cases chosen <;> simp [asked]
  | cons v later ih =>
    cases hv : v.compression with
    | none =>
      have hasked : asked (v :: later) = asked later := by simp [asked, hv]
      have hstep : chosenCodec? chosen (v :: later) = chosenCodec? chosen later := by
        simp [chosenCodec?, hv]
      rw [hstep, hasked]
      exact ih chosen
    | some codec =>
      have hasked : asked (v :: later) = codec :: asked later := by simp [asked, hv]
      rw [hasked]
      cases chosen with
      | none =>
        have hstep : chosenCodec? none (v :: later) = chosenCodec? (some (v.name, codec)) later := by
          simp [chosenCodec?, hv]
        rw [hstep]
        exact ih (some (v.name, codec))
      | some first =>
        obtain ⟨name, earlier⟩ := first
        by_cases heq : codec = earlier
        · -- The variable asks for what was chosen, which adds nothing.
          subst heq
          have hstep : chosenCodec? (some (name, codec)) (v :: later) =
              chosenCodec? (some (name, codec)) later := by
            simp [chosenCodec?, hv]
          rw [hstep]
          simpa using ih (some (name, codec))
        · refine .inr ⟨⟨v.name ++ "::compression", .sameCodec earlier name, ?_⟩, codec, by simp, ?_⟩
          · simp [chosenCodec?, hv, heq]
          · simpa using heq

/-- A codec is what all variables ask for that ask for one, and else that of the settings. -/
theorem codec_cases (s : Store) (settings : Settings) :
    (s.codec settings = .ok ((asked s.vars).head?.getD settings.compression) ∧
      ∀ codec ∈ asked s.vars, some codec = (asked s.vars).head?) ∨
    ((∃ path expected, s.codec settings = .error (.invalidConfig path expected)) ∧
      ∃ codec ∈ asked s.vars, some codec ≠ (asked s.vars).head?) := by
  unfold codec
  -- Nothing was chosen at the start, so the codecs are those that are asked for.
  rcases chosenCodec?_cases none s.vars with ⟨out, hout, hhead, hall⟩ | ⟨⟨path, expected, herr⟩, hsome⟩
  · refine .inl ⟨?_, hall⟩
    rw [hout, ← show out.map Prod.snd = (asked s.vars).head? from hhead]
    rfl
  · exact .inr ⟨⟨path, expected, by rw [herr]; rfl⟩, hsome⟩

/-- Members that all are the first one are so in every order, and the first one is the same. -/
theorem head?_perm {α : Type} {l l' : List α} (h : l.Perm l') (hall : ∀ a ∈ l, some a = l.head?) :
    l'.head? = l.head? := by
  cases l' with
  | nil => rw [List.perm_nil.1 h]
  | cons a l' => exact hall a (h.mem_iff.2 (List.mem_cons_self ..))

/-! ### Runs -/

/-- Two stores from which the same is read. -/
structure Agrees (s s' : Store) : Prop where
  rowCount : s'.rowCount = s.rowCount
  read : ∀ name policy, s'.read name policy = s.read name policy
  /-- With any settings both have the same codec, or both have variables that ask for different
  ones. -/
  codec : ∀ settings,
    (∃ codec, s.codec settings = .ok codec ∧ s'.codec settings = .ok codec) ∨
    ((∃ path expected, s.codec settings = .error (.invalidConfig path expected)) ∧
      ∃ path expected, s'.codec settings = .error (.invalidConfig path expected))

/-- From consistent stores of the same variables the same is read. -/
theorem Consistent.agrees_perm (hs : s.Consistent) (h : s.vars.Perm s'.vars) : s.Agrees s' := by
  refine ⟨hs.rowCount_perm h, ?_, ?_⟩
  · intro name policy
    rw [read, read, hs.find?_perm h]
  · intro settings
    have hasked : (asked s.vars).Perm (asked s'.vars) := h.filterMap _
    rcases s.codec_cases settings with ⟨hok, hall⟩ | ⟨herr, codec, hcodec, hne⟩
    · -- All variables ask for one codec, so the first one asks for it in any order.
      have hhead := head?_perm hasked hall
      rcases s'.codec_cases settings with ⟨hok', -⟩ | ⟨-, codec, hcodec, hne⟩
      · exact .inl ⟨_, hok, by rw [hok', hhead]⟩
      · exact absurd ((hall codec (hasked.mem_iff.2 hcodec)).trans hhead.symm) hne
    · rcases s'.codec_cases settings with ⟨-, hall'⟩ | ⟨herr', -⟩
      · have hhead := head?_perm hasked.symm hall'
        exact absurd ((hall' codec (hasked.mem_iff.1 hcodec)).trans hhead.symm) hne
      · exact .inr ⟨herr, herr'⟩

/-- **The order of writing does not matter.** Variables that a store without variables takes one
after another are taken in every other order too, and the same is read from the two stores. -/
theorem write_order_irrelevant (hmaterialized : ∀ v ∈ vars, v.Materialized)
    (hperm : vars.Perm vars') (h : (vars.foldlM write empty).outcome = .ok s) :
    ∃ s', (vars'.foldlM write empty).outcome = .ok s' ∧ s.Agrees s' := by
  have hregular : ∀ v ∈ vars, v.Regular := fun v hv => (hmaterialized v hv).regular
  have hregular' : ∀ v ∈ vars', v.Regular := fun v hv => hregular v (hperm.mem_iff.2 hv)
  obtain ⟨rfl, hconsistent⟩ := (foldlM_write_eq_ok_iff hregular).1 h
  refine ⟨⟨vars'⟩, ?_, hconsistent.agrees_perm hperm⟩
  exact (foldlM_write_eq_ok_iff hregular').2 ⟨rfl, hconsistent.perm hperm⟩

/-- Variables for two records, of which the first and the last ask for different codecs. -/
def mixedVariables : List StoredVariable :=
  [{ radiances with compression := some .zstd }, plainVariable "lat" [8, 9],
    { plainVariable "lon" [4, 5] with compression := some .lz4 }]

/-- Written from the last to the first, the mixed variables have two records, every variable is
read, and no codec is chosen. -/
theorem write_order_irrelevant_mixed :
    (∀ v ∈ mixedVariables, v.Materialized) ∧ mixedVariables.Perm mixedVariables.reverse ∧
      (mixedVariables.foldlM write empty).outcome = .ok ⟨mixedVariables⟩ ∧
      ∃ s', (mixedVariables.reverse.foldlM write empty).outcome = .ok s' ∧ s'.rowCount = 2 ∧
        s'.read "lat" .standard = .ok (.numeric (.ofColumn [8, 9])) ∧
        ∃ path expected, s'.codec .standard = .error (.invalidConfig path expected) := by
  have hmaterialized : ∀ v ∈ mixedVariables, v.Materialized := by
    rw [mixedVariables, List.forall_mem_cons, List.forall_mem_cons, List.forall_mem_singleton]
    refine ⟨?radiances, ?lat, ?lon⟩
    case radiances =>
      exact ⟨.numeric ⟨2, 2, [1, 2, 3, 1e11], rfl⟩, "rad", [⟨"Location", 2⟩, ⟨"Channel", 2⟩],
        { WriteOptions.none with compression := some .zstd }, .standard, rfl⟩
    case lat =>
      exact ⟨.numeric (.ofColumn [8, 9]), "lat", [⟨"Location", 2⟩], .none, .standard, rfl⟩
    case lon =>
      exact ⟨.numeric (.ofColumn [4, 5]), "lon", [⟨"Location", 2⟩],
        { WriteOptions.none with compression := some .lz4 }, .standard, rfl⟩
  have hperm := (List.reverse_perm mixedVariables).symm
  have hwritten : (mixedVariables.foldlM write empty).outcome = .ok ⟨mixedVariables⟩ := by rfl
  obtain ⟨s', hs', hagrees⟩ := write_order_irrelevant hmaterialized hperm hwritten
  refine ⟨hmaterialized, hperm, hwritten, s', hs', hagrees.rowCount, ?_, ?_⟩
  · rw [hagrees.read]
    rfl
  · have hcodec : codec ⟨mixedVariables⟩ .standard =
        .error (.invalidConfig "lon::compression" (.sameCodec .zstd "rad")) := by rfl
    rcases hagrees.codec .standard with ⟨codec, hok, -⟩ | ⟨-, herr⟩
    · rw [hcodec] at hok
      exact absurd hok (by simp)
    · exact herr

end Store

end ObsExport
