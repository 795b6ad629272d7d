/-!
# Names that stand for two things

Partitions are told apart by name, so a name must not stand for two keys. `firstClash?` goes
through names with their keys and stops at the first name that stood for another key before. There
is none exactly if equal names always come with equal keys (`firstClash?_eq_none_iff`).
-/

namespace ObsExport

/-- A name, the key it stood for first, and the other key it stands for. -/
structure Clash (κ : Type) where
  name : String
  earlier : κ
  later : κ
deriving DecidableEq, Repr

variable {κ : Type}

/-- The key a name stood for first. -/
def owner? (name : String) : List (String × κ) → Option κ
  | [] => none
  | (n, k) :: rest => if name = n then some k else owner? name rest

/-- The owner of a name came with the name. -/
theorem owner?_eq_some {name : String} {key : κ} {l : List (String × κ)}
    (h : owner? name l = some key) : (name, key) ∈ l := by
  induction l with
  | nil => simp [owner?] at h
  | cons p rest ih =>
    obtain ⟨n, k⟩ := p
    by_cases hn : name = n
    · simp only [owner?, hn, if_true, Option.some.injEq] at h
      simp [hn, h]
    · simp only [owner?, hn, if_false] at h
      exact List.mem_cons_of_mem _ (ih h)

/-- A name without an owner came with nothing. -/
theorem owner?_eq_none {name : String} {l : List (String × κ)} (h : owner? name l = none) (k : κ) :
    (name, k) ∉ l := by
  induction l with
  | nil => simp
  | cons p rest ih =>
    obtain ⟨n, k'⟩ := p
    by_cases hn : name = n
    · simp [owner?, hn] at h
    · simp only [owner?, hn, if_false] at h
      simp [hn, ih h]

variable [DecidableEq κ]

/-- The first clash after some names that are taken already. -/
def firstClashAfter? (taken : List (String × κ)) : List (String × κ) → Option (Clash κ)
  | [] => none
  | (name, key) :: rest =>
    match owner? name taken with
    | some owner =>
      if owner = key then firstClashAfter? taken rest else some ⟨name, owner, key⟩
    | none => firstClashAfter? ((name, key) :: taken) rest

/-- The first name that stands for two keys. -/
def firstClash? (pairs : List (String × κ)) : Option (Clash κ) := firstClashAfter? [] pairs

/-- If the pairs that were taken give no name to two keys, then no clash is found exactly if the
later ones, together with them, do not either. -/
theorem firstClashAfter?_eq_none_iff {taken pairs : List (String × κ)}
    (htaken : ∀ p ∈ taken, ∀ q ∈ taken, p.1 = q.1 → p.2 = q.2) :
    firstClashAfter? taken pairs = none ↔
      ∀ p ∈ taken ++ pairs, ∀ q ∈ taken ++ pairs, p.1 = q.1 → p.2 = q.2 := by
  induction pairs generalizing taken with
  | nil => simpa [firstClashAfter?] using htaken
  | cons e rest ih =>
    obtain ⟨name, key⟩ := e
    rw [firstClashAfter?]
    cases ho : owner? name taken with
    | some owner =>
      have hmem := owner?_eq_some ho
      by_cases hk : owner = key
      · -- The entry is among those that are taken, so it adds nothing.
        have hiff : ∀ p, p ∈ taken ++ rest ↔ p ∈ taken ++ (name, key) :: rest := by
          intro p
          simp only [List.mem_append, List.mem_cons]
          constructor
          · rintro (hp | hp)
            · exact .inl hp
            · exact .inr (.inr hp)
          · rintro (hp | rfl | hp)
            · exact .inl hp
            · exact .inl (hk ▸ hmem)
            · exact .inr hp
        simp only [hk, if_true, ih htaken, hiff]
      · -- The owner and the entry have one name and different keys.
        simp only [hk, if_false, reduceCtorEq, false_iff]
        intro h
        exact hk (h (name, owner) (List.mem_append.2 (.inl hmem)) (name, key) (by simp) rfl)
    | none =>
      -- The name is new, so the entry agrees with everything that is taken.
      have hnew : ∀ p ∈ (name, key) :: taken, ∀ q ∈ (name, key) :: taken,
          p.1 = q.1 → p.2 = q.2 := by
        intro p hp q hq hpq
        rcases List.mem_cons.1 hp with rfl | hp' <;> rcases List.mem_cons.1 hq with rfl | hq'
        · rfl
        · obtain ⟨n, k⟩ := q
          obtain rfl : name = n := hpq
          exact absurd hq' (owner?_eq_none ho k)
        · obtain ⟨n, k⟩ := p
          obtain rfl : n = name := hpq
          exact absurd hp' (owner?_eq_none ho k)
        · exact htaken p hp' q hq' hpq
      have hiff : ∀ p, p ∈ (name, key) :: taken ++ rest ↔ p ∈ taken ++ (name, key) :: rest := by
        intro p
        simp only [List.cons_append, List.mem_cons, List.mem_append]
        exact or_left_comm
      simp only [ih hnew, hiff]

/-- No name stands for two keys exactly if equal names always come with equal keys. -/
theorem firstClash?_eq_none_iff {pairs : List (String × κ)} :
    firstClash? pairs = none ↔ ∀ p ∈ pairs, ∀ q ∈ pairs, p.1 = q.1 → p.2 = q.2 := by
  have h := @firstClashAfter?_eq_none_iff κ _ [] pairs (by simp)
  simpa only [firstClash?, List.nil_append] using h

end ObsExport
