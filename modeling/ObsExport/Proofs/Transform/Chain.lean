import ObsExport.Proofs.Number.NotNaN
import ObsExport.Transform.Chain

/-!
# What a chain does to a grid

A chain is read slot by slot: `through` is what its steps make of one value, and `Stays` says that
the value is an observation before the first step and after every step. Running a chain on a grid
has two results and no other (`run_applies_or_crosses`). Either every observed value stays an
observation, and then the chain has been `Applied`: missing slots are as they were, observed slots
hold what the steps make of them. Or there is a first step that some observed value does not
survive; then the steps before it have been applied, the step itself has touched nothing, and the
failure names it together with the first value, in row-major order, that it would make missing
(`FirstCrossing`).

Missing is what is not below the threshold, so a result that is NaN counts as missing like one that
is too large (`isMissing_of_isNaN`).
-/

namespace ObsExport

/-- What is no number is missing under every policy. -/
theorem MissingPolicy.isMissing_of_isNaN (p : MissingPolicy) {x : Float} (h : x.isNaN = true) :
    p.isMissing x = true := by
  simp [isMissing, isPresent, Number.not_lt_of_isNaN h]

theorem Grid.map_eq_self {f : Float → Float} {g : Grid} (h : ∀ x ∈ g.values, f x = x) :
    g.map f = g :=
  Grid.ext rfl rfl ((List.map_congr_left h).trans (List.map_id' _))

theorem Grid.map_map {f f' h : Float → Float} {g : Grid} (heq : ∀ x ∈ g.values, f' (f x) = h x) :
    (g.map f).map f' = g.map h := by
  refine Grid.ext rfl rfl ?_
  rw [values_map, values_map, values_map, List.map_map]
  exact List.map_congr_left heq

namespace Transform

variable {target : String} {policy : MissingPolicy} {chain later : List Transform} {t : Transform}
  {g g' : Grid} {x y : Float}

/-! ### One value on its way through a chain -/

/-- What the steps of a chain make of a value, in declared order. -/
def through (chain : List Transform) (x : Float) : Float :=
  chain.foldl (fun y t => t.value y) x

/-- A value is an observation at the start of a chain and after every step of it. -/
def Stays (policy : MissingPolicy) (chain : List Transform) (x : Float) : Prop :=
  ∀ k ≤ chain.length, policy.isPresent (through (chain.take k) x) = true

/-- What becomes of a slot: an observation goes through the chain, all else is left alone. -/
def carried (policy : MissingPolicy) (chain : List Transform) (x : Float) : Float :=
  if policy.isPresent x then through chain x else x

theorem stays_nil_iff : Stays policy [] x ↔ policy.isPresent x = true := by
  simp [Stays, through]

/-- A value stays an observation through a chain if it is one, and what the first step makes of it
stays one through the rest. -/
theorem stays_cons_iff :
    Stays policy (t :: later) x ↔ policy.isPresent x = true ∧ Stays policy later (t.value x) := by
  constructor
  · intro h
    exact ⟨h 0 (Nat.zero_le _), fun k hk => h (k + 1) (Nat.succ_le_succ hk)⟩
  · rintro ⟨hx, h⟩ k hk
    cases k with
    | zero => exact hx
    | succ k => exact h k (Nat.le_of_succ_le_succ hk)

/-- A value that stays an observation ends as one. -/
theorem Stays.isPresent (h : Stays policy chain x) : policy.isPresent (through chain x) = true := by
  simpa using h chain.length (Nat.le_refl _)

theorem carried_nil : carried policy [] x = x := by
  unfold carried
  split <;> rfl

/-- A slot that survives the first step is carried by the rest of the chain from there. -/
theorem carried_slot
    (h : policy.isPresent x = true → policy.isPresent (t.value x) = true) :
    carried policy later (t.slot policy x) = carried policy (t :: later) x := by
  unfold carried slot
  by_cases hx : policy.isPresent x = true
  · simp only [hx, if_true, h hx]
    rfl
  · simp only [hx, if_false, Bool.false_eq_true]

/-! ### A grid on its way through a chain -/

/-- Every observed value of a grid stays an observation. -/
def Clear (policy : MissingPolicy) (chain : List Transform) (g : Grid) : Prop :=
  ∀ x ∈ g.values, policy.isPresent x = true → Stays policy chain x

/-- A value is the first of a grid, in row-major order, that is an observation and that a step
would make missing. -/
def FirstCrossing (t : Transform) (policy : MissingPolicy) (g : Grid) (x : Float) : Prop :=
  ∃ i : Nat, g.values[i]? = some x ∧
    policy.isPresent x = true ∧ policy.isMissing (t.value x) = true ∧
    ∀ j < i, ∀ y, g.values[j]? = some y → policy.isPresent y = true →
      policy.isPresent (t.value y) = true

/-- A grid comes from another by applying all steps of a chain to the observed values. -/
structure Applied (policy : MissingPolicy) (chain : List Transform) (g g' : Grid) : Prop where
  height_eq : g'.height = g.height
  cols_eq : g'.cols = g.cols
  missing_kept : ∀ r c x, g.cell? r c = some x → policy.isMissing x = true →
    g'.cell? r c = some x
  observed : ∀ r c x, g.cell? r c = some x → policy.isPresent x = true →
    g'.cell? r c = some (through chain x)
  missing_iff : ∀ r c x y, g.cell? r c = some x → g'.cell? r c = some y →
    (policy.isMissing y = true ↔ policy.isMissing x = true)

/-- A step without a crossing keeps all observations. -/
theorem crossing?_eq_none_iff :
    t.crossing? policy g = none ↔
      ∀ x ∈ g.values, policy.isPresent x = true → policy.isPresent (t.value x) = true := by
  simp [crossing?, List.find?_eq_none, MissingPolicy.isMissing]

/-- The crossing that is found is the first. -/
theorem firstCrossing_of_crossing? (h : t.crossing? policy g = some x) :
    FirstCrossing t policy g x := by
  obtain ⟨hx, before, after, hvalues, hbefore⟩ := List.find?_eq_some_iff_append.1 h
  rw [Bool.and_eq_true] at hx
  refine ⟨before.length, by simp [hvalues], hx.1, hx.2, fun j hj y hy hpresent => ?_⟩
  rw [hvalues, List.getElem?_append_left hj] at hy
  have := hbefore y (List.mem_of_getElem? hy)
  rw [hpresent, Bool.true_and, Bool.not_eq_true'] at this
  exact MissingPolicy.isMissing_eq_false_iff.1 this

/-- A grid without a crossing is clear of a chain if what the first step leaves is clear of the
rest. -/
theorem clear_cons (hnone : t.crossing? policy g = none)
    (h : Clear policy later (g.map (t.slot policy))) : Clear policy (t :: later) g := by
  intro x hx hpresent
  refine stays_cons_iff.2 ⟨hpresent, h _ ?_ (crossing?_eq_none_iff.1 hnone x hx hpresent)⟩
  rw [Grid.values_map]
  exact List.mem_map.2 ⟨x, hx, by simp [slot, hpresent]⟩

/-- After a step without a crossing, the rest of the chain goes on where the step has stopped. -/
theorem carried_of_crossing? (hnone : t.crossing? policy g = none) :
    (g.map (t.slot policy)).map (carried policy later) = g.map (carried policy (t :: later)) :=
  Grid.map_map fun x hx => carried_slot (crossing?_eq_none_iff.1 hnone x hx)

/-- Where every observation survives, the chain has been applied to all of them. -/
theorem Clear.applied (h : Clear policy chain g) :
    Applied policy chain g (g.map (carried policy chain)) := by
  have hcell : ∀ r c x, g.cell? r c = some x →
      (g.map (carried policy chain)).cell? r c = some (carried policy chain x) := by
    intro r c x hx
    rw [Grid.cell?_map, hx, Option.map_some]
  -- A missing slot is carried as it is, whatever the chain.
  have hmissing : ∀ x, policy.isMissing x = true → carried policy chain x = x := by
    intro x hx
    have : policy.isPresent x ≠ true := by simpa [MissingPolicy.isMissing] using hx
    exact if_neg this
  refine ⟨rfl, rfl, ?_, ?_, ?_⟩
  · intro r c x hx hm
    rw [hcell r c x hx, hmissing x hm]
  · intro r c x hx hp
    rw [hcell r c x hx, carried, if_pos hp]
  · intro r c x y hx hy
    rw [hcell r c x hx, Option.some.injEq] at hy
    subst hy
    cases hm : policy.isMissing x with
    | true => rw [hmissing x hm, hm]
    | false =>
      -- A value of the grid that is observed stays so, since the grid is clear.
      have hp := MissingPolicy.isMissing_eq_false_iff.1 hm
      have hstays : Stays policy chain x := by
        refine h x ?_ hp
        obtain ⟨-, hc⟩ := Grid.cell?_isSome_iff.1 (by rw [hx]; rfl : (g.cell? r c).isSome)
        exact List.mem_of_getElem? ((g.getElem?_values r hc).trans hx)
      rw [carried, if_pos hp, MissingPolicy.isMissing_eq_false_iff.2 hstays.isPresent]

/-! ### Running a chain -/

/-- A run either carries every slot through the whole chain, or stops at a step whose predecessors
have carried every slot. -/
theorem run_eq (target : String) (policy : MissingPolicy) (chain : List Transform) (g : Grid) :
    (Clear policy chain g ∧ run target policy chain g = ⟨g.map (carried policy chain), none⟩) ∨
    ∃ k t x, chain[k]? = some t ∧ Clear policy (chain.take k) g ∧
      run target policy chain g =
        ⟨g.map (carried policy (chain.take k)), some (.transformRange target t x)⟩ ∧
      FirstCrossing t policy (g.map (carried policy (chain.take k))) x := by
  -- The rest of the chain starts from the grid that the first step leaves, so the grid varies.
  induction chain generalizing g with
  | nil =>
    refine .inl ⟨fun x _ hx => stays_nil_iff.2 hx, ?_⟩
    rw [Grid.map_eq_self fun x _ => carried_nil]
    rfl
  | cons t later ih =>
    cases hcross : t.crossing? policy g with
    | some x =>
      -- The first step is the one that fails, and nothing has been applied.
      have hself : g.map (carried policy []) = g := Grid.map_eq_self fun x _ => carried_nil
      refine .inr ⟨0, t, x, rfl, fun x _ hx => stays_nil_iff.2 hx, ?_, ?_⟩
      · simp only [run, apply, hcross, List.take_zero, hself]
      · rw [List.take_zero, hself]
        exact firstCrossing_of_crossing? hcross
    | none =>
      have hrun : run target policy (t :: later) g =
          run target policy later (g.map (t.slot policy)) := by
        simp only [run, apply, hcross]
      rw [hrun]
      rcases ih (g.map (t.slot policy)) with ⟨hclear, hlater⟩ | ⟨k, u, x, hu, hclear, hlater, hx⟩
      · left
        exact ⟨clear_cons hcross hclear, by rw [hlater, carried_of_crossing? hcross]⟩
      · -- The failing step is one further, since one step came before the rest.
        rw [carried_of_crossing? hcross] at hlater hx
        exact .inr ⟨k + 1, u, x, hu, clear_cons hcross hclear, hlater, hx⟩

/-- **A chain is applied as a whole or up to its first failing step.** If it fails, it does so at
the first step that makes some observation missing, with the first such observation, and the grid
is what the steps before have made of it. -/
theorem run_applies_or_crosses (target : String) (policy : MissingPolicy)
    (chain : List Transform) (g : Grid) :
    (∀ y : Float, y.isNaN = true → policy.isMissing y = true) ∧
    ((∃ g', run target policy chain g = ⟨g', none⟩ ∧
        Clear policy chain g ∧ Applied policy chain g g') ∨
      ∃ k t x g', chain[k]? = some t ∧
        run target policy chain g = ⟨g', some (.transformRange target t x)⟩ ∧
        Clear policy (chain.take k) g ∧ Applied policy (chain.take k) g g' ∧
        FirstCrossing t policy g' x) := by
  refine ⟨fun y => policy.isMissing_of_isNaN, ?_⟩
  rcases run_eq target policy chain g with ⟨hclear, hrun⟩ | ⟨k, t, x, ht, hclear, hrun, hx⟩
  · exact .inl ⟨_, hrun, hclear, hclear.applied⟩
  · exact .inr ⟨k, t, x, _, ht, hrun, hclear, hclear.applied, hx⟩

/-- The second step fails on the second value as the first step has left it. -/
example :
    (run "wind" .standard [.offset 1, .scale 10] (Grid.ofColumn [5, 5e10, 1e11])).grid.values =
        [6, 50000000001, 1e11] ∧
      (run "wind" .standard [.offset 1, .scale 10] (Grid.ofColumn [5, 5e10, 1e11])).failure =
        some (.transformRange "wind" (.scale 10) 50000000001) := by
  decide +kernel

end Transform

end ObsExport
