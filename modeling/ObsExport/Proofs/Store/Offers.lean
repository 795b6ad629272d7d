import ObsExport.Proofs.Store.Cells
import Mathlib.Data.List.Induction

/-!
# Stores over whole runs

A store is reached by offering variables one after another, of which the refused ones leave it as it
was (`Store.offer`, `Store.ofOffers`). If the variables were materialized, the store is consistent
after every offer (`consistent_ofOffers`). Cells to which the same variables are offered hold that
store all the time (`Cells.holds_ofOffers`).

`offers_keep_consistent` is everything a user of a store can rely on: names and columns never
collide, a variable is found under its name and under no other, an offer either changes nothing or
adds one variable behind the others without touching what was there, and all columns can be had as
one frame at any time.
-/

namespace ObsExport

/-- An artifact in columns, whatever the artifact and the dimensions, options and policy it was put
into columns with. -/
def StoredVariable.Materialized (v : StoredVariable) : Prop :=
  ∃ (values : Values) (name : String) (dimensions : List Dimension) (options : WriteOptions)
    (policy : MissingPolicy), values.materialize name dimensions options policy = .ok v

theorem StoredVariable.Materialized.regular {v : StoredVariable} (h : v.Materialized) :
    v.Regular := by
  obtain ⟨values, name, dimensions, options, policy, h⟩ := h
  exact regular_of_materialize h

namespace Store

/-- The store after a variable was offered to it. -/
def offer (s : Store) (v : StoredVariable) : Store :=
  match (s.write v).outcome with
  | .ok s' => s'
  | .error _ => s

/-- The store after some variables were offered to one without variables. -/
def ofOffers (offered : List StoredVariable) : Store := offered.foldl offer empty

/-- A store with one more variable behind the others, in which all others are read as before. -/
structure Extends (s s' : Store) (v : StoredVariable) : Prop where
  vars : s'.vars = s.vars ++ [v]
  read : ∀ name ∈ s.names, ∀ policy, s'.read name policy = s.read name policy

theorem ofOffers_append (offered : List StoredVariable) (v : StoredVariable) :
    ofOffers (offered ++ [v]) = (ofOffers offered).offer v := by
  rw [ofOffers, List.foldl_append]
  rfl

/-- An offer is refused and changes nothing, or it adds a variable. -/
theorem offer_cases (s : Store) (v : StoredVariable) :
    ((∃ e, (s.write v).outcome = .error e) ∧ s.offer v = s) ∨
      ((s.write v).outcome = .ok (s.offer v) ∧ s.Extends (s.offer v) v) := by
  unfold offer
  cases h : (s.write v).outcome with
  | error e => exact .inl ⟨⟨e, rfl⟩, rfl⟩
  | ok s' =>
    obtain ⟨-, hvars⟩ := write_eq_ok h
    exact .inr ⟨rfl, hvars, fun name hname policy => read_append hname hvars⟩

/-- Offering a regular variable keeps a store consistent, whether it is taken or not. -/
theorem Consistent.offer {s : Store} {v : StoredVariable} (hs : s.Consistent) (hv : v.Regular) :
    (s.offer v).Consistent := by
  rcases s.offer_cases v with ⟨-, hsame⟩ | ⟨htaken, -⟩
  · rw [hsame]
    exact hs
  · exact hs.write hv htaken

/-- A store is consistent after any number of offers. -/
theorem consistent_ofOffers {offered : List StoredVariable}
    (h : ∀ v ∈ offered, v.Materialized) : (ofOffers offered).Consistent := by
  -- The induction takes the last offer away.
  induction offered using List.reverseRecOn with
  | nil => exact consistent_empty
  | append_singleton offered v ih =>
    obtain ⟨hoffered, hv⟩ := List.forall_mem_append.1 h
    rw [ofOffers_append]
    exact (ih hoffered).offer (hv v (List.mem_singleton.2 rfl)).regular

/-! ### Cells -/

namespace Cells

theorem ofOffers_append (offered : List StoredVariable) (v : StoredVariable) :
    Cells.ofOffers (offered ++ [v]) = ((Cells.ofOffers offered).offer v).2 := by
  rw [Cells.ofOffers, List.foldl_append]
  rfl

/-- Cells answer as their store. They are as they were if the variable is refused, and hold the
store with that variable otherwise. -/
theorem Holds.offer_cases {c : Cells} {s : Store} (h : c.Holds s) (v : StoredVariable) :
    ((∃ e, (s.write v).outcome = .error e ∧ c.offer v = (.error e, c)) ∧ s.offer v = s) ∨
      ((s.write v).outcome = .ok (s.offer v) ∧ s.Extends (s.offer v) v ∧
        (c.offer v).1 = .ok () ∧ (c.offer v).2.Holds (s.offer v)) := by
  -- The store decides which case it is, and the cells follow.
  have hoffer := h.offer_eq v
  rcases s.offer_cases v with ⟨⟨e, he⟩, hsame⟩ | ⟨htaken, hextends⟩
  · rw [write_eq_error he] at hoffer
    exact .inl ⟨⟨e, he, hoffer⟩, hsame⟩
  · have hnone := (write_eq_ok htaken).1
    have hstore : s.offer v = ⟨s.vars ++ [v]⟩ := by rw [← hextends.vars]
    rw [hnone] at hoffer
    refine .inr ⟨htaken, hextends, ?_, ?_⟩
    · rw [hoffer]
    · rw [hoffer, hstore]
      exact h.grown hnone

/-- Cells hold the store to which the same variables were offered. -/
theorem holds_ofOffers (offered : List StoredVariable) :
    (Cells.ofOffers offered).Holds (Store.ofOffers offered) := by
  induction offered using List.reverseRecOn with
  | nil => exact holds_empty
  | append_singleton offered v ih =>
    rw [ofOffers_append, Store.ofOffers_append]
    rcases ih.offer_cases v with ⟨⟨e, -, hrefused⟩, hsame⟩ | ⟨-, -, -, hholds⟩
    · rw [hrefused, hsame]
      exact ih
    · exact hholds

end Cells

/-! ### Runs -/

/-- **Stores stay consistent.** After any number of offers of materialized variables the names of
the variables differ, the names of all columns differ, all columns are as long as the store has
records, and every variable is found under its name. The next offer either fails, and then the store
and its cells are the same, or adds one variable and leaves what is read of the others. There always
is a frame of all columns, and the cells always hold the store. -/
theorem offers_keep_consistent {offered : List StoredVariable}
    (h : ∀ v ∈ offered, v.Materialized) :
    (ofOffers offered).Consistent ∧
      (∀ name v, (ofOffers offered).find? name = some v ↔
        v ∈ (ofOffers offered).vars ∧ v.name = name) ∧
      (∀ v, ((∃ e, ((ofOffers offered).write v).outcome = .error e ∧
            (Cells.ofOffers offered).offer v = (.error e, Cells.ofOffers offered)) ∧
          ofOffers (offered ++ [v]) = ofOffers offered) ∨
        (((ofOffers offered).write v).outcome = .ok (ofOffers (offered ++ [v])) ∧
          (ofOffers offered).Extends (ofOffers (offered ++ [v])) v ∧
          (Cells.ofOffers offered).offer v = (.ok (), Cells.ofOffers (offered ++ [v])))) ∧
      (∃ f, (ofOffers offered).frame = .ok f ∧ f.columns = (ofOffers offered).columns ∧
        ((ofOffers offered).columns ≠ [] → f.height = (ofOffers offered).rowCount)) ∧
      (Cells.ofOffers offered).Holds (ofOffers offered) ∧
      ∀ name, (Cells.ofOffers offered).find? name = (ofOffers offered).find? name := by
  have hs := consistent_ofOffers h
  have hcells := Cells.holds_ofOffers offered
  refine ⟨hs, fun name v => find?_eq_some_iff hs.names, fun v => ?_, hs.frame_eq_ok, hcells,
    hcells.find?_eq⟩
  -- The next offer is one more step of both runs.
  rw [ofOffers_append, Cells.ofOffers_append]
  rcases hcells.offer_cases v with hrefused | ⟨htaken, hextends, hanswer, -⟩
  · exact .inl hrefused
  · exact .inr ⟨htaken, hextends, Prod.ext hanswer rfl⟩

/-- Radiances in two channels, with a column for each, the last of them missing. -/
def radiances : StoredVariable :=
  ⟨"rad", ["Location", "Channel"], [2, 2], [2, 2], none, none, none, none, false,
    [⟨"rad_1", .numeric [some 1, some 3]⟩, ⟨"rad_2", .numeric [some 2, none]⟩]⟩

/-- A numeric variable of one column. -/
def plainVariable (name : String) (values : List Float) : StoredVariable :=
  ⟨name, ["Location"], [values.length], [values.length], none, none, none, none, false,
    [⟨name, .numeric (values.map some)⟩]⟩

/-- Variables of which the second has the name of a column, the third another height than the store,
and the last a name that is taken. -/
def crowdedOffers : List StoredVariable :=
  [radiances, plainVariable "rad_1" [5, 6], plainVariable "lat" [7], plainVariable "lat" [8, 9],
    plainVariable "lat" [4, 4]]

/-- Of the crowded offers two are taken. -/
theorem offers_keep_consistent_crowded :
    (∀ v ∈ crowdedOffers, v.Materialized) ∧
      ofOffers crowdedOffers = ⟨[radiances, plainVariable "lat" [8, 9]]⟩ ∧
      (ofOffers crowdedOffers).Consistent ∧
      (ofOffers crowdedOffers).find? "lat" = some (plainVariable "lat" [8, 9]) ∧
      (∃ f, (ofOffers crowdedOffers).frame = .ok f ∧
        f.columns.map Column.name = ["rad_1", "rad_2", "lat"] ∧ f.height = 2) ∧
      (Cells.ofOffers crowdedOffers).find? "lat" = some (plainVariable "lat" [8, 9]) := by
  -- Each of the five is a column that was put into columns, but for the radiances.
  have hmaterialized : ∀ v ∈ crowdedOffers, v.Materialized := by
    have hplain : ∀ name xs, Values.materialize (.numeric (.ofColumn xs)) name
          [⟨"Location", xs.length⟩] .none .standard = .ok (plainVariable name xs) →
        (plainVariable name xs).Materialized :=
      fun name xs h => ⟨_, name, _, _, _, h⟩
    rw [crowdedOffers, List.forall_mem_cons, List.forall_mem_cons, List.forall_mem_cons,
      List.forall_mem_cons, List.forall_mem_singleton]
    refine ⟨?_, hplain _ _ rfl, hplain _ _ rfl, hplain _ _ rfl, hplain _ _ rfl⟩
    exact ⟨.numeric ⟨2, 2, [1, 2, 3, 1e11], rfl⟩, "rad", [⟨"Location", 2⟩, ⟨"Channel", 2⟩], .none,
      .standard, rfl⟩
  have hstore : ofOffers crowdedOffers = ⟨[radiances, plainVariable "lat" [8, 9]]⟩ := by rfl
  obtain ⟨hs, hfind, -, ⟨f, hf, hcolumns, hheight⟩, -, hcells⟩ :=
    offers_keep_consistent hmaterialized
  have hlat : (ofOffers crowdedOffers).find? "lat" = some (plainVariable "lat" [8, 9]) := by
    rw [hfind, hstore]
    exact ⟨by simp, rfl⟩
  refine ⟨hmaterialized, hstore, hs, hlat, ⟨f, hf, ?_, ?_⟩, (hcells "lat").trans hlat⟩
  · rw [hcolumns, hstore]
    rfl
  · rw [hheight (by rw [hstore]; decide), hstore]
    rfl

end Store

end ObsExport
