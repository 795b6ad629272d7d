import ObsExport.Attempts
import Mathlib.Data.List.Forall2
import Mathlib.Data.List.Nodup

/-!
# Lists paired with what is made of them

A traversal that succeeds pairs every element with its answer, and pairs of elements and answers are
all that it takes for it to succeed (`mapM_eq_ok_iff_forall₂`). A fold that collects its answers
under new names pairs them likewise, and the names differ (`foldlM_collect_eq_ok_iff`).
-/

namespace ObsExport

variable {ε α β γ : Type}

/-- A traversal answers exactly the list that is paired with its own, element by element. -/
theorem mapM_eq_ok_iff_forall₂ {f : α → Except ε β} {R : α → β → Prop} {l : List α} {out : List β}
    (h : ∀ a b, f a = .ok b ↔ R a b) : l.mapM f = .ok out ↔ List.Forall₂ R l out := by
  induction l generalizing out with
  | nil =>
    rw [List.mapM_nil, List.forall₂_nil_left_iff]
    exact ⟨fun h => (Except.ok.inj h).symm, fun h => congrArg Except.ok h.symm⟩
  | cons a l ih => simp only [mapM_cons_eq_ok, List.forall₂_cons_left_iff, h, ih]

/-- A traversal succeeds if every element is as it must be and the changed elements are read. -/
theorem mapM_eq_ok_iff_map {f : α → Except ε β} {g : α → α} {P : α → Prop}
    {l : List α} {out : List β} (h : ∀ a b, f a = .ok b ↔ P a ∧ f (g a) = .ok b) :
    l.mapM f = .ok out ↔ (∀ a ∈ l, P a) ∧ (l.map g).mapM f = .ok out := by
  rw [mapM_eq_ok_iff_forall₂ h, List.forall₂_and_left,
    mapM_eq_ok_iff_forall₂ (R := fun a b => f a = .ok b) fun _ _ => Iff.rfl,
    List.forall₂_map_left_iff]

/-- Elements that are paired with what can be made of something are paired with it, and it is
something that they are paired with. -/
theorem forall₂_exists_map_iff {R : α → β → Prop} {g : β → γ} {Q : γ → Prop} {l : List α}
    {out : List γ} : List.Forall₂ (fun a c => ∃ b, R a b ∧ g b = c ∧ Q c) l out ↔
      ∃ l', List.Forall₂ R l l' ∧ l'.map g = out ∧ ∀ c ∈ out, Q c := by
  -- The witnesses are collected from the front, so the outputs vary with the list.
  induction l generalizing out with
  | nil =>
    rw [List.forall₂_nil_left_iff]
    constructor
    · rintro rfl
      exact ⟨[], .nil, rfl, by simp⟩
    · rintro ⟨_, ⟨⟩, rfl, -⟩
      rfl
  | cons a l ih =>
    rw [List.forall₂_cons_left_iff]
    constructor
    · rintro ⟨_, out, ⟨b, hb, rfl, hq⟩, hrest, rfl⟩
      obtain ⟨l', hl', rfl, hall⟩ := ih.1 hrest
      exact ⟨b :: l', .cons hb hl', rfl, List.forall_mem_cons.2 ⟨hq, hall⟩⟩
    · rintro ⟨_, _ | @⟨_, b, _, l', hb, hl'⟩, rfl, hall⟩
      obtain ⟨hq, hall⟩ := List.forall_mem_cons.1 hall
      exact ⟨g b, l'.map g, ⟨b, hb, rfl, hq⟩, ih.2 ⟨l', hl', rfl, hall⟩, rfl⟩

/-- Elements that are read one after another, each under a new name, are read one by one under
different names. -/
theorem foldlM_collect_eq_ok_iff {f : List β → α → Except ε (List β)}
    {R : α → β → Prop} {name : β → String} {taken : List String}
    (hstep : ∀ read a read', f read a = .ok read' ↔
      ∃ b, R a b ∧ name b ∉ taken ++ read.map name ∧ read' = read ++ [b])
    {l : List α} {read out : List β} (hread : (taken ++ read.map name).Nodup) :
    l.foldlM f read = .ok out ↔ ∃ added, List.Forall₂ R l added ∧ out = read ++ added ∧
      (taken ++ out.map name).Nodup := by
  have hgrow (read : List β) (b : β) : (taken ++ (read ++ [b]).map name).Nodup ↔
      name b ∉ taken ++ read.map name ∧ (taken ++ read.map name).Nodup := by
    rw [List.map_append, ← List.append_assoc, List.map_singleton, ← List.concat_eq_append,
      List.nodup_concat]
  -- The induction keeps that the names taken so far differ.
  induction l generalizing read with
  | nil =>
    rw [List.foldlM_nil]
    constructor
    · intro h
      obtain rfl := Except.ok.inj h
      exact ⟨[], .nil, (List.append_nil _).symm, hread⟩
    · rintro ⟨_, ⟨⟩, rfl, -⟩
      rw [List.append_nil]
      rfl
  | cons a l ih =>
    rw [List.foldlM_cons, bind_eq_ok_iff]
    constructor
    · rintro ⟨read', hadd, h⟩
      obtain ⟨b, hb, hnew, rfl⟩ := (hstep _ _ _).1 hadd
      obtain ⟨added, hadded, rfl, hnames⟩ := (ih ((hgrow read b).2 ⟨hnew, hread⟩)).1 h
      exact ⟨b :: added, .cons hb hadded, (List.append_cons _ _ _).symm, hnames⟩
    · rintro ⟨_, _ | @⟨_, b, _, added, hb, hadded⟩, rfl, hnames⟩
      have hsplit : read ++ b :: added = read ++ [b] ++ added := List.append_cons _ _ _
      -- The names that are taken after this element begin those that differ in the end.
      have hread' : (taken ++ (read ++ [b]).map name).Nodup := by
        rw [hsplit, List.map_append, ← List.append_assoc] at hnames
        exact hnames.of_append_left
      exact ⟨read ++ [b], (hstep _ _ _).2 ⟨b, hb, ((hgrow read b).1 hread').1, rfl⟩,
        (ih hread').2 ⟨added, hadded, hsplit, hnames⟩⟩

/-- Of two lists that are paired, every element of the second has a partner in the first. -/
theorem exists_of_forall₂ {R : α → β → Prop} {l : List α} {l' : List β} (h : List.Forall₂ R l l')
    {b : β} (hb : b ∈ l') : ∃ a ∈ l, R a b := by
  obtain ⟨i, hi, rfl⟩ := List.getElem_of_mem hb
  obtain ⟨hlen, hall⟩ := List.forall₂_iff_get.1 h
  have hi' : i < l.length := hlen ▸ hi
  exact ⟨l[i], List.getElem_mem hi', hall i hi' hi⟩

end ObsExport
