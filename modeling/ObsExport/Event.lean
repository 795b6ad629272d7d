import ObsExport.Error
import ObsExport.Tally

/-!
# Events

Besides its answer a computation reports events: keys it did not recognise, candidates it passed
over, partitions it wrote. An event is data; its level and wording are functions of it.

A `Logged α` is an outcome with the events that led to it. Events survive a failure: what was
reported before it stays reported. Since `Logged.outcome` commutes with sequencing
(`outcome_pure`, `outcome_bind`, `outcome_mapM`), a statement about answers may forget the events
altogether. Where they matter, what goes on alike behind an answer reports alike
(`bind_congr_of_ok`).
-/

namespace ObsExport

/-- How much an event matters. -/
inductive Level where
  | warn
  | info
  | debug
  | trace
deriving DecidableEq, Repr

/-- Something worth reporting. -/
inductive Event where
  | unrecognisedKey (path : String)
  | transformsIgnored (path : String)
  | exportConfigured (vars splits filters : Nat)
  | pipelineLoaded (outputs : Nat)
  | codesShareName (mnemonic name : String) (earlier later : Int)
  | filterApplied (mnemonic : String) (kept total : Nat)
  | splitApplied (split mnemonic : String) (partitions : Nat)
  | batchPartitioned (splits partitions : Nat)
  | candidateAbsent (target candidate : String)
  | candidateMissing (target candidate : String)
  | candidateChosen (target candidate : String)
  | timestampsUnusable (target : String) (records : Nat)
  | fieldPadded (field : String) (records width : Nat)
  | fieldGrouped (field group : String) (rows width : Nat)
  | variableStored (target : String) (dimensions : List String)
  | partitionSkipped (partition : String)
  | partitionOpened (partition : String)
  | partitionEncoded (partition : String) (records : Nat)
  | batchEncoded (tally : Tally)
deriving DecidableEq, Repr

/-- Ignored input is a warning, a finished stage is worth knowing, the rest is detail. -/
def Event.level : Event → Level
  | unrecognisedKey _ | transformsIgnored _ | partitionSkipped _ => .warn
  | exportConfigured .. | batchEncoded _ => .info
  | partitionOpened _ => .trace
  | _ => .debug

/-- The event in words. -/
def Event.message : Event → String
  | unrecognisedKey path => s!"Ignoring unrecognised configuration key '{path}'"
  | transformsIgnored path => s!"Ignoring transforms on datetime variable '{path}'"
  | exportConfigured vars splits filters =>
    s!"Export configured with {vars} variables, {splits} splits, {filters} filters"
  | pipelineLoaded outputs => s!"Loaded pipeline configuration: {outputs} output variables"
  | codesShareName mnemonic name earlier later =>
    s!"Category codes {earlier} and {later} of '{mnemonic}' both map to '{name}'"
  | filterApplied mnemonic kept total => s!"Filter on '{mnemonic}' keeps {kept} of {total} records"
  | splitApplied split mnemonic partitions =>
    s!"Split '{split}' on '{mnemonic}' produced {partitions} partitions"
  | batchPartitioned splits partitions => s!"{splits} splits produced {partitions} partitions"
  | candidateAbsent target candidate => s!"Variable '{target}': candidate '{candidate}' absent"
  | candidateMissing target candidate =>
    s!"Variable '{target}': candidate '{candidate}' fully missing"
  | candidateChosen target candidate => s!"Variable '{target}' resolved from '{candidate}'"
  | timestampsUnusable target records =>
    s!"Variable '{target}': {records} records without a usable timestamp"
  | fieldPadded field records width =>
    s!"Field '{field}': {records} records padded to width {width}"
  | fieldGrouped field group rows width =>
    s!"Field '{field}' grouped by '{group}': {rows} rows of width {width}"
  | variableStored target dimensions =>
    let listed := joined ", " dimensions
    s!"Stored '{target}' over [{listed}]"
  | partitionSkipped partition => s!"Skipping empty partition '{partition}'"
  | partitionOpened partition => s!"Opening partition '{partition}'"
  | partitionEncoded partition records =>
    s!"Partition '{partition}' encoded with {records} records"
  | batchEncoded tally => s!"Encoded batch: {tally.text}"

/-! ### Computations that report events -/

/-- An outcome and the events that led to it, in the order in which they arose. -/
structure Logged (α : Type) where
  events : List Event
  outcome : Except Error α

namespace Logged

variable {α β : Type}

/-- Runs a computation and goes on with its answer; a failure ends the run. -/
def andThen (x : Logged α) (f : α → Logged β) : Logged β :=
  match x.outcome with
  | .ok a => ⟨x.events ++ (f a).events, (f a).outcome⟩
  | .error e => ⟨x.events, .error e⟩

instance : Monad Logged where
  pure a := ⟨[], .ok a⟩
  bind := andThen

/-- Reports an event. -/
def report (event : Event) : Logged Unit := ⟨[event], .ok ()⟩

/-- A computation that reports nothing. -/
def ofExcept (x : Except Error α) : Logged α := ⟨[], x⟩

instance : MonadLift (Except Error) Logged := ⟨ofExcept⟩

/-- Fails without a report. -/
def fail (e : Error) : Logged α := ⟨[], .error e⟩

instance : LawfulMonad Logged := LawfulMonad.mk' Logged
  (fun x => by
    show andThen x (fun a => pure a) = x
    unfold andThen
    cases x with
    | mk events outcome => cases outcome <;> simp [pure])
  (fun a f => by
    show andThen (pure a) f = f a
    simp [andThen, pure])
  (fun x f g => by
    show andThen (andThen x f) g = andThen x fun a => andThen (f a) g
    cases x with
    | mk events outcome =>
      cases outcome with
      | error e => rfl
      | ok a => cases h : (f a).outcome <;> simp [andThen, h])

/-! ### Outcomes forget the events -/

@[simp] theorem outcome_pure (a : α) : (pure a : Logged α).outcome = .ok a := rfl

@[simp] theorem outcome_monadLift (x : Except Error α) : (monadLift x : Logged α).outcome = x := rfl

@[simp] theorem outcome_report (event : Event) : (report event).outcome = .ok () := rfl

@[simp] theorem outcome_fail (e : Error) : (fail e : Logged α).outcome = .error e := rfl

/-- What a computation reports has no influence on what comes out in the end. -/
@[simp] theorem outcome_bind (x : Logged α) (f : α → Logged β) :
    (x >>= f).outcome = x.outcome >>= fun a => (f a).outcome := by
  show (andThen x f).outcome = _
  unfold andThen
  cases x.outcome <;> rfl

/-- Changing an answer changes the outcome alike, whatever was reported. -/
@[simp] theorem outcome_map (f : α → β) (x : Logged α) :
    (f <$> x).outcome = f <$> x.outcome := by
  show (x >>= fun a => pure (f a)).outcome = _
  rw [outcome_bind]
  cases x.outcome <;> rfl

/-- A traversal has the outcome of the steps without their reports. -/
@[simp] theorem outcome_mapM (f : α → Logged β) (l : List α) :
    (l.mapM f).outcome = l.mapM fun a => (f a).outcome := by
  induction l with
  | nil => rfl
  | cons a l ih => simp [List.mapM_cons, ih]

/-- A fold has the outcome of the steps without their reports. -/
@[simp] theorem outcome_foldlM (f : β → α → Logged β) (b : β) (l : List α) :
    (l.foldlM f b).outcome = l.foldlM (fun b a => (f b a).outcome) b := by
  induction l generalizing b with
  | nil => rfl
  | cons a l ih => simp [List.foldlM_cons, ih]

/-- An answer that is at hand reports nothing. -/
@[simp] theorem liftM_ok_bind (a : α) (f : α → Logged β) :
    ((liftM (Except.ok a : Except Error α) : Logged α) >>= f) = f a := rfl

/-- What goes on alike with the answer of a computation goes on alike behind it. -/
theorem bind_congr_of_ok {x : Logged α} {f g : α → Logged β}
    (h : ∀ a, x.outcome = .ok a → f a = g a) : x >>= f = x >>= g := by
  show andThen x f = andThen x g
  unfold andThen
  -- Behind a failure nothing goes on, so only an answer matters.
  cases hx : x.outcome with
  | error e => rfl
  | ok a =>
    dsimp only
    rw [h a hx]

end Logged

end ObsExport
