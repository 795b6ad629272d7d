import ObsExport.Proofs.Config.Readers

/-!
# Pruning a configuration tree

To prune a block is to delete its known keys that hold null (`Tree.mapKept`), and to prune the parts
that stand under some of the others (`Pruning.ofParts`). A map is pruned block by block down to the
blocks that hold no other blocks, and the result is what an export may be read from as well
(`Tree.pruned`).

A `Pruning` turns no value into one of another kind, and it carries the proof of this. So every
look-up goes through it (`Cursor.get?_prune`) and no check of a section sees it
(`Cursor.check_prune`).
-/

namespace ObsExport

/-! ### Changes of a tree -/

namespace Tree

/-- The keys that blocks of a document know. -/
def knownKeys : List String :=
  [Section.document, .exports, .exportVariable, .datetime, .category, .bounding, .output,
      .outputDimension, .outputVariable].flatten.map KeySpec.key ++
    ["bounding", "category", "scale", "offset"]

/-- Whether a key is known and holds null. -/
def holdsNull (t : Tree) (key : String) : Bool := knownKeys.contains key && (t.find? key).any isNull

/-- No known key holds null. -/
def NullFree (t : Tree) : Prop := ∀ key ∈ knownKeys, (t.find? key).any isNull = false

instance (t : Tree) : Decidable t.NullFree := inferInstanceAs (Decidable (∀ key ∈ knownKeys, _))

/-- Changes the items of a list. -/
def mapItems (f : Tree → Tree) : Tree → Tree
  | list items => list (items.map f)
  | t => t

/-- Changes the values of a map. -/
def mapValues (f : Tree → Tree) : Tree → Tree
  | map entries => map (entries.map fun e => (e.1, f e.2))
  | t => t

/-- Deletes the known keys of a map that hold null, and changes what the other keys hold. -/
def mapKept (f : String → Tree → Tree) (t : Tree) : Tree :=
  match t with
  | map entries => map ((entries.filter fun e => !t.holdsNull e.1).map fun e => (e.1, f e.1 e.2))
  | _ => t

end Tree

/-- A change that turns no value into one of another kind. -/
structure Pruning where
  apply : Tree → Tree
  isNull_apply : ∀ t, (apply t).isNull = t.isNull
  admits_apply : ∀ (kind : ValueKind) t, kind.admits (apply t) = kind.admits t

namespace Pruning

instance : CoeFun Pruning fun _ => Tree → Tree := ⟨apply⟩

/-- No change. -/
def idle : Pruning := ⟨id, fun _ => rfl, fun _ _ => rfl⟩

/-- Prunes the items of a list. -/
def items (p : Pruning) : Pruning where
  apply := Tree.mapItems p
  isNull_apply t := by cases t <;> rfl
  admits_apply kind t := by
    cases t with
    | list items =>
      cases kind with
      | stringOrList =>
        -- A list of strings stays one, since strings stay strings.
        show (items.map p).all (fun i => i.asString?.isSome) = items.all fun i => i.asString?.isSome
        rw [List.all_map]
        exact congrArg items.all (funext fun i => p.admits_apply .string i)
      | _ => rfl
    | _ => rfl

/-- Prunes the values of a map, whatever its keys. -/
def values (p : Pruning) : Pruning where
  apply := Tree.mapValues p
  isNull_apply t := by cases t <;> rfl
  admits_apply kind t := by
    cases t with
    | map entries => cases kind <;> rfl
    | _ => rfl

/-- What is to be done with what a key holds. -/
def partOf (parts : List (String × Pruning)) (key : String) : Pruning :=
  (Dict.lookup key parts).getD idle

/-- Prunes a block, and the parts that stand under some of its keys. -/
def ofParts (parts : List (String × Pruning)) : Pruning where
  apply := Tree.mapKept fun key => partOf parts key
  isNull_apply t := by cases t <;> rfl
  admits_apply kind t := by
    cases t with
    | map entries => cases kind <;> rfl
    | _ => rfl

/-- Prunes a block that holds no other blocks. -/
def ofBlock : Pruning := ofParts []

/-- Prunes an item of the list of filters. -/
def ofFilter : Pruning := ofParts [("bounding", ofBlock)]

/-- Prunes an entry of the map of splits. -/
def ofSplit : Pruning := ofParts [("category", ofBlock)]

/-- Prunes an entry of the map of variables. -/
def ofVariable : Pruning := ofParts [("datetime", ofBlock), ("transforms", ofBlock.items)]

/-- Prunes the section of an export. -/
def ofExport : Pruning :=
  ofParts [("filters", ofFilter.items), ("splits", ofSplit.values), ("variables", ofVariable.values)]

end Pruning

namespace Tree

variable {t : Tree}

/-- Prunes what an export is read from, which holds the section of the export or is that section. -/
def pruned (t : Tree) : Tree :=
  match t.get? "export" with
  | some _ => Pruning.ofParts [("export", .ofExport)] t
  | none => Pruning.ofExport t

/-- What is kept of a block is changed key by key, and nulls of known keys are not kept. -/
theorem find?_mapKept (f : String → Tree → Tree) (t : Tree) (key : String) :
    (t.mapKept f).find? key = if t.holdsNull key then none else (t.find? key).map (f key) := by
  cases t with
  | map entries =>
    show Dict.lookup key (List.map _ _) = _
    -- What goes is decided by the key, so the look-up goes through the filter.
    rw [Dict.lookup_map, Dict.lookup_filter fun key => !holdsNull (map entries) key]
    cases holdsNull (map entries) key <;> rfl
  | _ => exact (ite_self none).symm

/-- A block of one entry finds this entry under its key and nothing under any other. -/
theorem find?_single {only key : String} {v w : Tree} :
    (map [(only, v)]).find? key = some w ↔ key = only ∧ v = w := by
  simp [find?, entries?, Dict.lookup]

/-- A look-up goes through pruning. -/
theorem get?_ofParts (parts : List (String × Pruning)) (t : Tree) (key : String) :
    (Pruning.ofParts parts t).get? key = (t.get? key).map (Pruning.partOf parts key) := by
  unfold get?
  rw [Pruning.ofParts, find?_mapKept, holdsNull]
  cases t.find? key with
  | none => simp
  | some v =>
    have hnull := (Pruning.partOf parts key).isNull_apply v
    -- A null is not found either way, whether its key is known and deleted or not.
    cases hv : v.isNull with
    | true => cases knownKeys.contains key <;> simp [Option.filter, hv, hnull]
    | false => simp [Option.filter, hv, hnull]

/-- Nothing is deleted from a block without nulls. -/
theorem ofBlock_of_nullFree (h : t.NullFree) : Pruning.ofBlock t = t := by
  cases t with
  | map entries =>
    -- A key that is not known is kept whatever it holds.
    have hkept : ∀ e ∈ entries, (!holdsNull (map entries) e.1) = true := by
      intro e he
      by_cases hknown : e.1 ∈ knownKeys
      · simp [holdsNull, h e.1 hknown]
      · simp [holdsNull, hknown]
    show map (List.map id _) = _
    rw [List.filter_eq_self.2 hkept, List.map_id]
  | _ => rfl

end Tree

/-! ### Walking through pruned trees -/

namespace Cursor

variable {c : Cursor} {key : String} {p : Pruning} {parts : List (String × Pruning)}

/-- Prunes the value and stays at its place. -/
def prune (p : Pruning) (c : Cursor) : Cursor := ⟨c.path, p c.value⟩

@[simp] theorem path_prune : (c.prune p).path = c.path := rfl

@[simp] theorem pathOf_prune : (c.prune p).pathOf key = c.pathOf key := rfl

/-- A key of a block that is pruned reads what it read before, pruned in its turn. -/
theorem get?_prune :
    (c.prune (.ofParts parts)).get? key = (c.get? key).map (prune (Pruning.partOf parts key)) := by
  show ((Pruning.ofParts parts c.value).get? key).map _ = _
  rw [Tree.get?_ofParts, get?, Option.map_map, Option.map_map]
  rfl

/-- A key at which nothing is pruned holds what it held. -/
theorem get?_prune_idle (hkey : Pruning.partOf parts key = .idle) :
    (c.prune (.ofParts parts)).get? key = c.get? key := by
  rw [get?_prune, hkey]
  exact congrFun Option.map_id _

/-- A block that is pruned has the keys that it had, since nulls did not count. -/
@[simp] theorem has_prune : (c.prune (.ofParts parts)).has key = c.has key := by
  rw [has, get?_prune, Option.isSome_map, has]

/-- What a section complains about is the same after pruning, which keeps the kinds of values. -/
theorem keyFault?_prune : (c.prune (.ofParts parts)).keyFault? = c.keyFault? := by
  funext spec
  have hget : (c.prune (.ofParts parts)).value.get? spec.key =
      (c.value.get? spec.key).map (Pruning.partOf parts spec.key) := Tree.get?_ofParts ..
  unfold keyFault?
  rw [hget]
  cases c.value.get? spec.key with
  | none => rfl
  | some v => simp [Pruning.admits_apply]

/-- A check does not see pruning. -/
@[simp] theorem check_prune (s : Section) :
    ((c.prune (.ofParts parts)).check s).outcome = (c.check s).outcome := by
  have hmap : (c.prune (.ofParts parts)).value.entries?.isSome = c.value.entries?.isSome :=
    (Pruning.ofParts parts).admits_apply .map c.value
  unfold check
  rw [keyFault?_prune]
  -- Only whether the value is a map matters, and pruning keeps that.
  cases hentries : c.value.entries? with
  | none =>
    rw [hentries, Option.isSome_none, Option.isSome_eq_false_iff, Option.isNone_iff_eq_none] at hmap
    simp [hmap]
  | some entries =>
    rw [hentries, Option.isSome_some, Option.isSome_iff_exists] at hmap
    obtain ⟨entries', hentries'⟩ := hmap
    rw [hentries']
    cases s.findSome? c.keyFault? <;> rfl

/-- The value of a map with one key. -/
theorem value_eq_of_keys {only : String} (h : c.keys = [only]) : ∃ v, c.value = .map [(only, v)] := by
  unfold keys at h
  cases hentries : c.value.entries? with
  | none => simp [hentries] at h
  | some entries =>
    rw [hentries, Option.getD_some] at h
    obtain ⟨⟨key, v⟩, rfl, rfl⟩ := List.map_eq_singleton_iff.1 h
    exact ⟨v, Tree.entries?_eq_some_iff.1 hentries⟩

/-- The items of a list are pruned one by one. -/
theorem items_prune : (c.prune p.items).items = c.items.map (List.map (prune p)) := by
  obtain ⟨path, value⟩ := c
  cases value with
  | list items =>
    show Except.ok _ = Except.ok _
    rw [List.zipIdx_map, List.map_map, List.map_map]
    rfl
  | _ => rfl

/-- The values of a map are pruned one by one. -/
theorem entries_prune :
    (c.prune p.values).entries = c.entries.map (List.map fun e => (e.1, e.2.prune p)) := by
  obtain ⟨path, value⟩ := c
  cases value with
  | map entries =>
    show Except.ok _ = Except.ok _
    rw [List.map_map, List.map_map]
    rfl
  | _ => rfl

/-! ### Blocks that hold no other blocks -/

@[simp] theorem get?_prune_ofBlock : (c.prune .ofBlock).get? key = c.get? key := get?_prune_idle rfl

@[simp] theorem has_prune_ofBlock : (c.prune .ofBlock).has key = c.has key := has_prune

@[simp] theorem check_prune_ofBlock (s : Section) :
    ((c.prune .ofBlock).check s).outcome = (c.check s).outcome := check_prune s

@[simp] theorem string_prune_ofBlock : (c.prune .ofBlock).string key = c.string key := by
  rw [string, child, get?_prune_ofBlock, string, child, pathOf_prune]

@[simp] theorem optional_prune_ofBlock {α : Type} {read : Cursor → Except Error α} :
    (c.prune .ofBlock).optional key read = c.optional key read := by
  rw [optional, get?_prune_ofBlock, optional]

@[simp] theorem orDefault_prune_ofBlock {α : Type} {read : Cursor → Except Error α} {s : Section}
    {make : Int → α} :
    (c.prune .ofBlock).orDefault s key read make = c.orDefault s key read make := by
  rw [orDefault, get?_prune_ofBlock, orDefault, pathOf_prune]

end Cursor

/-- A section accepts a block exactly if it accepts the pruned one. -/
theorem Section.accepts_prune {c : Cursor} {s : Section} {parts : List (String × Pruning)} :
    s.Accepts (c.prune (.ofParts parts)).value ↔ s.Accepts c.value := by
  rw [← Cursor.outcome_check_eq_ok_iff, Cursor.check_prune, Cursor.outcome_check_eq_ok_iff]

end ObsExport
