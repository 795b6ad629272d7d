import ObsExport.Error

/-!
# Steps that may fail, along a list

`l.mapM f` tries a step on every element in order and stops at the first failure. It succeeds
exactly if every single step does (`mapM_eq_ok_iff`), and then answers them in order; it fails with
the failure of the first element that fails (`mapM_eq_error_iff`).
-/

namespace ObsExport

variable {ε α β : Type}

@[simp] theorem ok_bind (a : α) (f : α → Except ε β) : (Except.ok a >>= f) = f a := rfl

@[simp] theorem error_bind (e : ε) (f : α → Except ε β) :
    ((.error e : Except ε α) >>= f) = .error e := rfl

/-- One step after another succeeds exactly if both do. -/
theorem bind_eq_ok_iff {x : Except ε α} {f : α → Except ε β} {b : β} :
    (x >>= f) = .ok b ↔ ∃ a, x = .ok a ∧ f a = .ok b := by
  cases x with
  | error e => simp [bind, Except.bind]
  | ok a => simp [bind, Except.bind]

/-- One step after another fails with the first, or with the second after the first succeeded. -/
theorem bind_eq_error_iff {x : Except ε α} {f : α → Except ε β} {e : ε} :
    (x >>= f) = .error e ↔ x = .error e ∨ ∃ a, x = .ok a ∧ f a = .error e := by
  cases x with
  | error e' => simp [bind, Except.bind]
  | ok a => simp [bind, Except.bind]

/-- What holds of every failure of the first step, and of the second step after every success of the
first, holds of one after the other. -/
theorem bind_cases {P : Except ε β → Prop} {x : Except ε α} {f : α → Except ε β}
    (herror : ∀ e, x = .error e → P (.error e)) (hok : ∀ a, x = .ok a → P (f a)) : P (x >>= f) := by
  cases x with
  | error e => exact herror e rfl
  | ok a => exact hok a rfl

/-- Changing the answer of a step does not change whether it succeeds. -/
theorem map_eq_ok_iff {x : Except ε α} {f : α → β} {b : β} :
    x.map f = .ok b ↔ ∃ a, x = .ok a ∧ f a = b := by
  cases x with
  | error e => simp [Except.map]
  | ok a => simp [Except.map]

/-- A step whose answer is changed fails as the step does. -/
theorem map_eq_error_iff {x : Except ε α} {f : α → β} {e : ε} : x.map f = .error e ↔ x = .error e := by
  cases x <;> simp [Except.map]

/-- A traversal of a longer list takes one step more, in front of the others. -/
theorem mapM_cons_eq_ok {f : α → Except ε β} {a : α} {l : List α} {out : List β} :
    (a :: l).mapM f = .ok out ↔ ∃ b bs, f a = .ok b ∧ l.mapM f = .ok bs ∧ out = b :: bs := by
  rw [List.mapM_cons]
  cases f a with
  | error e => simp [bind, Except.bind]
  | ok b =>
    cases l.mapM f with
    | error e => simp [bind, Except.bind]
    | ok bs => simp [bind, Except.bind, pure, Except.pure, eq_comm]

/-- A traversal that succeeds answers once for every element. -/
theorem length_of_mapM {f : α → Except ε β} {l : List α} {out : List β}
    (h : l.mapM f = .ok out) : out.length = l.length := by
  induction l generalizing out with
  | nil => simp_all [pure, Except.pure]
  | cons a l ih =>
    obtain ⟨b, bs, _, hbs, rfl⟩ := mapM_cons_eq_ok.1 h
    simp [ih hbs]

/-- A traversal succeeds exactly if every step does, and answers the steps in order. -/
theorem mapM_eq_ok_iff {f : α → Except ε β} {l : List α} {out : List β} :
    l.mapM f = .ok out ↔
      out.length = l.length ∧
        ∀ (i : Nat) (a : α), l[i]? = some a → ∃ b, out[i]? = some b ∧ f a = .ok b := by
  induction l generalizing out with
  | nil =>
    rw [List.mapM_nil]
    cases out <;> simp [pure, Except.pure]
  | cons a l ih =>
    -- Place zero is the answer of the first step, and place `i + 1` is place `i` of the rest.
    rw [mapM_cons_eq_ok]
    constructor
    · rintro ⟨b, bs, hb, hbs, rfl⟩
      refine ⟨by simp [length_of_mapM hbs], fun i x hx => ?_⟩
      cases i with
      | zero =>
        simp only [List.getElem?_cons_zero, Option.some.injEq] at hx
        exact ⟨b, rfl, hx ▸ hb⟩
      | succ i =>
        simp only [List.getElem?_cons_succ] at hx
        exact (ih.1 hbs).2 i x hx
    · rintro ⟨hlen, hall⟩
      cases out with
      | nil => simp at hlen
      | cons b bs =>
        obtain ⟨b', hb', hfb⟩ := hall 0 a rfl
        simp only [List.getElem?_cons_zero, Option.some.injEq] at hb'
        refine ⟨b, bs, hb' ▸ hfb, ih.2 ⟨by simpa using hlen, fun i x hx => ?_⟩, rfl⟩
        simpa using hall (i + 1) x (by simpa using hx)

/-- A traversal of steps that all succeed. -/
theorem mapM_eq_ok_map {f : α → Except ε β} {g : α → β} {l : List α}
    (h : ∀ a ∈ l, f a = .ok (g a)) : l.mapM f = .ok (l.map g) := by
  refine mapM_eq_ok_iff.2 ⟨List.length_map _, fun i a ha => ⟨g a, ?_, ?_⟩⟩
  · rw [List.getElem?_map, ha]
    rfl
  · exact h a (List.mem_iff_getElem?.2 ⟨i, ha⟩)

/-- A traversal of steps that have one answer each, if any. -/
theorem eq_map_of_mapM {f : α → Except ε β} {g : α → β} {l : List α} {out : List β}
    (hstep : ∀ a b, f a = .ok b → b = g a) (h : l.mapM f = .ok out) : out = l.map g := by
  induction l generalizing out with
  | nil => exact (Except.ok.inj h).symm
  | cons a l ih =>
    obtain ⟨b, bs, hb, hbs, rfl⟩ := mapM_cons_eq_ok.1 h
    rw [hstep a b hb, ih hbs, List.map_cons]

/-- Every answer of a successful traversal comes from an element of the list. -/
theorem exists_of_mem_mapM {f : α → Except ε β} {l : List α} {out : List β}
    (h : l.mapM f = .ok out) {b : β} (hb : b ∈ out) : ∃ a ∈ l, f a = .ok b := by
  induction l generalizing out with
  | nil => simp_all [pure, Except.pure]
  | cons a l ih =>
    obtain ⟨b', bs, hfb, hbs, rfl⟩ := mapM_cons_eq_ok.1 h
    rcases List.mem_cons.1 hb with rfl | hb
    · exact ⟨a, by simp, hfb⟩
    · obtain ⟨a', ha', hf⟩ := ih hbs hb
      exact ⟨a', List.mem_cons_of_mem _ ha', hf⟩

/-- The answers of a traversal are those of its steps. -/
theorem mem_iff_of_mapM {f : α → Except ε β} {l : List α} {out : List β}
    (h : l.mapM f = .ok out) {b : β} : b ∈ out ↔ ∃ a ∈ l, f a = .ok b := by
  refine ⟨exists_of_mem_mapM h, fun ⟨a, ha, hb⟩ => ?_⟩
  obtain ⟨i, hi⟩ := List.mem_iff_getElem?.1 ha
  obtain ⟨b', hb', hf⟩ := (mapM_eq_ok_iff.1 h).2 i a hi
  obtain rfl := Except.ok.inj (hb.symm.trans hf)
  exact List.mem_iff_getElem?.2 ⟨i, hb'⟩

/-- A traversal fails with the failure of the first element that fails. -/
theorem mapM_eq_error_iff {f : α → Except ε β} {l : List α} {e : ε} :
    l.mapM f = .error e ↔
      ∃ before a after, l = before ++ a :: after ∧ f a = .error e ∧
        ∀ x ∈ before, ∃ b, f x = .ok b := by
  induction l with
  | nil => simp [pure, Except.pure]
  | cons a l ih =>
    rw [List.mapM_cons]
    cases ha : f a with
    | error e' =>
      simp only [bind, Except.bind, Except.error.injEq]
      constructor
      · rintro rfl
        exact ⟨[], a, l, rfl, ha, by simp⟩
      · rintro ⟨before, a', after, heq, hfa, hok⟩
        -- A first element that succeeds or fails tells whether there is anything before the
        -- failure.
        cases before with
        | nil =>
          simp only [List.nil_append, List.cons.injEq] at heq
          rw [← heq.1, ha] at hfa
          simpa using hfa
        | cons x before =>
          simp only [List.cons_append, List.cons.injEq] at heq
          obtain ⟨b, hb⟩ := hok x (by simp)
          rw [← heq.1, ha] at hb
          simp at hb
    | ok b =>
      have hgoal : ((do let bs ← l.mapM f; pure (b :: bs) : Except ε (List β)) = .error e ↔
          l.mapM f = .error e) := by
        cases l.mapM f <;> simp [bind, Except.bind, pure, Except.pure]
      simp only [bind, Except.bind] at hgoal ⊢
      -- The first element succeeds, so the failure is one of the rest.
      rw [hgoal, ih]
      constructor
      · rintro ⟨before, a', after, rfl, hfa, hok⟩
        exact ⟨a :: before, a', after, rfl, hfa, by simpa [ha] using hok⟩
      · rintro ⟨before, a', after, heq, hfa, hok⟩
        cases before with
        | nil =>
          simp only [List.nil_append, List.cons.injEq] at heq
          rw [← heq.1, ha] at hfa
          simp at hfa
        | cons x before =>
          simp only [List.cons_append, List.cons.injEq] at heq
          exact ⟨before, a', after, heq.2, hfa, fun y hy => hok y (by simp [hy])⟩

/-- The failure of a traversal is that of some element. -/
theorem exists_of_mapM_eq_error {f : α → Except ε β} {l : List α} {e : ε}
    (h : l.mapM f = .error e) : ∃ a ∈ l, f a = .error e := by
  obtain ⟨before, a, after, rfl, ha, -⟩ := mapM_eq_error_iff.1 h
  exact ⟨a, by simp, ha⟩

/-- A traversal succeeds if every step does. -/
theorem exists_mapM_eq_ok {f : α → Except ε β} {l : List α} (h : ∀ a ∈ l, ∃ b, f a = .ok b) :
    ∃ out, l.mapM f = .ok out := by
  -- A failure would be that of some step.
  cases hl : l.mapM f with
  | ok out => exact ⟨out, rfl⟩
  | error e =>
    obtain ⟨before, a, after, rfl, ha, -⟩ := mapM_eq_error_iff.1 hl
    obtain ⟨b, hb⟩ := h a (by simp)
    rw [ha] at hb
    contradiction

/-- What holds before the first step and is kept by every step that succeeds holds in the end. -/
theorem foldlM_invariant {P : β → Prop} {f : β → α → Except ε β} {l : List α} {b out : β}
    (hstart : P b) (hstep : ∀ b, ∀ a ∈ l, ∀ b', P b → f b a = .ok b' → P b')
    (h : l.foldlM f b = .ok out) : P out := by
  induction l generalizing b with
  | nil => exact Except.ok.inj h ▸ hstart
  | cons a l ih =>
    rw [List.foldlM_cons] at h
    obtain ⟨b', hb', h⟩ := bind_eq_ok_iff.1 h
    exact ih (hstep b a (by simp) b' hstart hb')
      (fun b a ha => hstep b a (List.mem_cons_of_mem _ ha)) h

/-- A run of steps that fails has run some first steps with success, and fails with the next. -/
theorem foldlM_eq_error {f : β → α → Except ε β} {l : List α} {b : β} {e : ε}
    (h : l.foldlM f b = .error e) :
    ∃ before a after b', l = before ++ a :: after ∧ before.foldlM f b = .ok b' ∧
      f b' a = .error e := by
  induction l generalizing b with
  | nil => contradiction
  | cons a l ih =>
    rw [List.foldlM_cons] at h
    rcases bind_eq_error_iff.1 h with ha | ⟨b', hb', h⟩
    · exact ⟨[], a, l, b, rfl, rfl, ha⟩
    · obtain ⟨before, a', after, b'', rfl, hbefore, ha'⟩ := ih h
      exact ⟨a :: before, a', after, b'', rfl, by rw [List.foldlM_cons, hb', ok_bind, hbefore], ha'⟩

/-- What must be there is answered exactly if it is there. -/
theorem required_eq_ok_iff {o : Option α} {a : α} : required o = .ok a ↔ o = some a := by
  cases o <;> simp [required]

end ObsExport
