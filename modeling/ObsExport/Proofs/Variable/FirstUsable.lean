import ObsExport.Proofs.Transform.Chain
import ObsExport.Variable.Candidates

/-!
# The first usable candidate decides

A candidate is usable (`FieldTable.Usable`) if its field is in the batch and holds an observation,
or has no records that could lack one. Candidates are tried in declared order, and the first usable
one is read; what is made of it (`Candidates.Makes`) is the answer, whether it is an artifact or a
failure. There is no answer exactly if no candidate is usable.

The scan ends at the field that is read. So the fields that only later candidates name can be
changed or taken away, and neither the answer nor what is reported on the way is another one
(`Candidates.first_usable_decides`).
-/

namespace ObsExport

/-! ### Usable fields -/

/-- Values without records, or with an observation among them. -/
def Values.Observed (policy : MissingPolicy) : Values → Prop
  | numeric grid => grid.height = 0 ∨ ∃ x ∈ grid.values, policy.isPresent x = true
  | text entries => entries = [] ∨ ∃ s ∈ entries, s ≠ ""

/-- What is checked of the values. -/
theorem Values.hasObservation_iff {policy : MissingPolicy} {v : Values} :
    v.hasObservation policy = true ↔ v.Observed policy := by
  cases v with
  | numeric grid => simp [hasObservation, Observed, MissingPolicy.anyPresent]
  | text entries => simp [hasObservation, Observed]

/-- A field that is in the batch, and of which the values are observed. -/
def FieldTable.Usable (t : FieldTable) (policy : MissingPolicy) (name : String) : Prop :=
  ∃ values, t.find? name = some values ∧ values.Observed policy

namespace Candidates

/-- What a variable makes of the field that it reads. Texts are taken as they are, but go through no
transform. Numbers go through the whole chain, missing ones as they are, or else the chain is ended
by a step that makes an observation missing. -/
inductive Makes (c : Candidates) (target : String) (policy : MissingPolicy) :
    Values → Except Error Values → Prop
  | texts {entries : List String} (hnone : c.transforms = []) :
    Makes c target policy (.text entries) (.ok (.text entries))
  | untransformable {entries : List String} (hsome : c.transforms ≠ []) :
    Makes c target policy (.text entries) (.error (.type target .transforms))
  | numbers {g g' : Grid} (hclear : Transform.Clear policy c.transforms g)
    (happlied : Transform.Applied policy c.transforms g g') :
    Makes c target policy (.numeric g) (.ok (.numeric g'))
  | crossed {g g' : Grid} {k : Nat} {t : Transform} {x : Float} (hstep : c.transforms[k]? = some t)
    (happlied : Transform.Applied policy (c.transforms.take k) g g')
    (hcross : Transform.FirstCrossing t policy g' x) :
    Makes c target policy (.numeric g) (.error (.transformRange target t x))

variable {c : Candidates} {target name : String} {policy : MissingPolicy} {data data' : FieldTable}
  {before later : List String} {values : Values}

/-! ### Reading one field -/

/-- Finishing a field makes of it what the variable makes of it. -/
theorem makes_finish (c : Candidates) (target : String) (policy : MissingPolicy)
    (values : Values) : c.Makes target policy values (c.finish target policy values) := by
  cases values with
  | text entries =>
    rw [finish_text]
    split
    next hnone => exact .texts (List.isEmpty_iff.1 hnone)
    next hsome => exact .untransformable (mt List.isEmpty_iff.2 hsome)
  | numeric g =>
    rw [finish]
    -- A run goes through all steps or stops at the first that leaves the range.
    rcases Transform.run_eq target policy c.transforms g with
      ⟨hclear, hrun⟩ | ⟨k, t, x, hstep, hclear, hrun, hcross⟩
    · rw [hrun]
      exact .numbers hclear hclear.applied
    · -- The steps before the failing one have been applied, and the failure is the answer.
      rw [hrun]
      exact .crossed hstep hclear.applied hcross

/-- Reading a field does not end as if there were no field. -/
theorem Makes.ne_unresolvable {other : String} {names : List String}
    (h : c.Makes target policy values (.error (.unresolvable other names))) : False := by
  cases h

/-! ### Scanning the candidates -/

/-- Candidates that are not usable are passed over. -/
theorem outcome_resolveFrom_append (h : ∀ earlier ∈ before, ¬ data.Usable policy earlier) :
    (c.resolveFrom target policy data (before ++ later)).outcome =
      (c.resolveFrom target policy data later).outcome := by
  induction before with
  | nil => rfl
  | cons first before ih =>
    rw [List.forall_mem_cons] at h
    rw [List.cons_append, resolveFrom]
    split
    next => exact ih h.2
    next values hfind =>
      have hunobserved : ¬ values.hasObservation policy = true := fun hobserved =>
        h.1 ⟨values, hfind, Values.hasObservation_iff.1 hobserved⟩
      rw [if_neg hunobserved]
      exact ih h.2

/-- The answer is what is made of the first usable candidate. -/
theorem outcome_resolveFrom_of_observed (hfind : data.find? name = some values)
    (hobserved : values.Observed policy) :
    (c.resolveFrom target policy data (name :: later)).outcome = c.finish target policy values := by
  rw [resolveFrom, hfind]
  dsimp only
  rw [if_pos (Values.hasObservation_iff.2 hobserved)]
  rfl

/-- Two batches that agree up to a usable candidate are told apart neither by the answer nor by what
is reported. -/
theorem resolveFrom_congr (husable : data.Usable policy name)
    (hagree : ∀ known ∈ before ++ [name], data'.find? known = data.find? known) :
    c.resolveFrom target policy data' (before ++ name :: later) =
      c.resolveFrom target policy data (before ++ name :: later) := by
  induction before with
  | nil =>
    obtain ⟨values, hfind, hobserved⟩ := husable
    have hfind' : data'.find? name = some values := by rw [hagree name (by simp), hfind]
    simp only [List.nil_append, resolveFrom, hfind, hfind',
      if_pos (Values.hasObservation_iff.2 hobserved)]
  | cons first before ih =>
    rw [List.cons_append, List.forall_mem_cons] at hagree
    rw [List.cons_append, resolveFrom, resolveFrom, hagree.1, ih hagree.2]

/-- Of some candidates there is a first usable one. -/
theorem exists_first_usable {names : List String} (h : ∃ name ∈ names, data.Usable policy name) :
    ∃ before name later, names = before ++ name :: later ∧ data.Usable policy name ∧
      ∀ earlier ∈ before, ¬ data.Usable policy earlier := by
  induction names with
  | nil => simp at h
  | cons first names ih =>
    by_cases hfirst : data.Usable policy first
    · exact ⟨[], first, names, rfl, hfirst, by simp⟩
    · rw [List.exists_mem_cons_iff] at h
      obtain ⟨before, name, later, rfl, husable, hbefore⟩ := ih (h.resolve_left hfirst)
      exact ⟨first :: before, name, later, rfl, husable, List.forall_mem_cons.2 ⟨hfirst, hbefore⟩⟩

/-- **The first usable candidate decides.** A variable is unresolvable exactly if none of its
candidates is usable. If one is, then the answer is what is made of the first of them, also where
that is a failure; and in every batch that has the same fields under the names up to this one, the
answer and the reports are the same, whatever the fields are that only later candidates name. -/
theorem first_usable_decides (c : Candidates) (target : String) (policy : MissingPolicy)
    (data : FieldTable) :
    ((c.resolve target policy data).outcome = .error (.unresolvable target c.names) ↔
        ∀ name ∈ c.names, ¬ data.Usable policy name) ∧
      ∀ before name later, c.names = before ++ name :: later → data.Usable policy name →
        (∀ earlier ∈ before, ¬ data.Usable policy earlier) →
        (∃ values, data.find? name = some values ∧
          c.Makes target policy values (c.resolve target policy data).outcome) ∧
        ∀ data' : FieldTable,
          (∀ known ∈ before ++ [name], data'.find? known = data.find? known) →
          c.resolve target policy data' = c.resolve target policy data := by
  -- Before the field that is read, every candidate is passed over without a failure.
  have hread : ∀ before name later, c.names = before ++ name :: later →
      data.Usable policy name → (∀ earlier ∈ before, ¬ data.Usable policy earlier) →
      ∃ values, data.find? name = some values ∧
        c.Makes target policy values (c.resolve target policy data).outcome := by
    intro before name later hnames ⟨values, hfind, hobserved⟩ hbefore
    refine ⟨values, hfind, ?_⟩
    rw [resolve, hnames, outcome_resolveFrom_append hbefore,
      outcome_resolveFrom_of_observed hfind hobserved]
    exact c.makes_finish target policy values
  refine ⟨⟨fun hnone name hname husable => ?_, fun hnone => ?_⟩, ?_⟩
  · -- The first usable candidate would be read.
    obtain ⟨before, name, later, hnames, husable, hbefore⟩ :=
      exists_first_usable ⟨name, hname, husable⟩
    obtain ⟨values, -, hmakes⟩ := hread before name later hnames husable hbefore
    rw [hnone] at hmakes
    exact hmakes.ne_unresolvable
  · -- With no usable candidate the scan comes to the end of the list.
    have hpassed : (c.resolveFrom target policy data (c.names ++ [])).outcome =
        (c.resolveFrom target policy data []).outcome := outcome_resolveFrom_append hnone
    rw [List.append_nil] at hpassed
    rw [resolve, hpassed]
    rfl
  · intro before name later hnames husable hbefore
    refine ⟨hread before name later hnames husable hbefore, fun data' hagree => ?_⟩
    rw [resolve, resolve, hnames]
    exact resolveFrom_congr husable hagree

/-- A gust of wind, from the first of four fields, doubled. -/
def gust : Candidates := ⟨["GST1", "GST2", "GST3", "GST4"], [.scale 2], by decide⟩

/-- Two records without the first field, with the second fully missing, and with an observation in
the third. -/
def gustRecords : FieldTable := Dict.ofList [
  ("GST2", .numeric (.ofColumn [1e11, 1e11])), ("GST3", .numeric (.ofColumn [3, 1e11])),
  ("GST4", .numeric (.ofColumn [7, 8]))]

/-- The same with texts in the fourth field, which the transform could not be applied to. -/
def relabelledRecords : FieldTable := Dict.ofList [
  ("GST2", .numeric (.ofColumn [1e11, 1e11])), ("GST3", .numeric (.ofColumn [3, 1e11])),
  ("GST4", .text ["calm", "storm"])]

/-- Of `gust` the third field is read, whatever the fourth holds. -/
theorem first_usable_decides_gust :
    gustRecords.Usable .standard "GST3" ∧
      (∀ earlier ∈ ["GST1", "GST2"], ¬ gustRecords.Usable .standard earlier) ∧
      gust.Makes "gust" .standard (.numeric (.ofColumn [3, 1e11]))
        (.ok (.numeric (.ofColumn [6, 1e11]))) ∧
      (gust.resolve "gust" .standard relabelledRecords).outcome =
        .ok (.numeric (.ofColumn [6, 1e11])) := by
  have husable : gustRecords.Usable .standard "GST3" :=
    ⟨.numeric (.ofColumn [3, 1e11]), rfl, Values.hasObservation_iff.1 (by decide +kernel)⟩
  have hbefore : ∀ earlier ∈ ["GST1", "GST2"], ¬ gustRecords.Usable .standard earlier := by
    intro earlier hearlier ⟨values, hfind, hobserved⟩
    rw [List.mem_pair] at hearlier
    obtain rfl | rfl := hearlier
    · contradiction
    · obtain rfl := Option.some.inj hfind
      have : Values.hasObservation .standard (.numeric (.ofColumn [1e11, 1e11])) = true :=
        Values.hasObservation_iff.2 hobserved
      contradiction
  obtain ⟨-, hfirst⟩ := first_usable_decides gust "gust" .standard gustRecords
  obtain ⟨⟨values, hfind, hmakes⟩, hsame⟩ := hfirst _ _ ["GST4"] rfl husable hbefore
  have hagree : ∀ known ∈ ["GST1", "GST2"] ++ ["GST3"],
      relabelledRecords.find? known = gustRecords.find? known := by
    decide +kernel
  have hresolved : (gust.resolve "gust" .standard gustRecords).outcome =
      .ok (.numeric (.ofColumn [6, 1e11])) := by decide +kernel
  obtain rfl := Option.some.inj hfind
  rw [hsame relabelledRecords hagree, hresolved]
  rw [hresolved] at hmakes
  exact ⟨husable, hbefore, hmakes, rfl⟩

end Candidates

end ObsExport
