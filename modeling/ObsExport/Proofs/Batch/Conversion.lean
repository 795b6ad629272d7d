import ObsExport.Batch.Assembly

/-!
# Arrays as field values

Nothing holds the parts of an array together: its sizes may be empty or contain zeros, and they may
disagree with its leaves. What becomes of it shows when it is made into field values
(`FieldArray.toValues`). Numbers are counted, since they become a grid (`toValues_eq_numeric_iff`).
Of texts only the width is looked at (`toValues_eq_text_iff`), so they are taken however many they
are, and also if the rows of the array hold none.

`shaped_iff_texts_counted` puts this together: the values of an array have the shape that the array
states, unless they are texts whose number is not that of the rows or whose rows are not one wide.
The arrays of a batch are filled as they are padded, so that their texts are one to a row
(`Batch.Padded.shapedAs`).
-/

namespace ObsExport

/-- What is there to be listed, row after row. -/
def Values.leaves : Values → Leaves
  | numeric grid => .numeric grid.values
  | text entries => .text entries

namespace FieldArray

variable {a : FieldArray} {grid : Grid} {texts : List String} {values : Values} {e : Error}

/-- Values with the number of rows and the width of an array. -/
def ShapedAs (a : FieldArray) (values : Values) : Prop :=
  values.height = a.height ∧ a.width = .ok values.width

/-- What is asked of the leaves where the rows of an array have a width: numbers fill the rows, and
can be counted; texts are no more than one to a row. -/
def Takes (a : FieldArray) (width : Nat) : Prop :=
  match a.leaves with
  | .numeric numbers => a.height * width < Size.limit ∧ numbers.length = a.height * width
  | .text _ => width ≤ 1

/-- Whether the sizes that are asked for are words. -/
def Countable (a : FieldArray) : Prop :=
  ∃ width, a.width = .ok width ∧ (a.leaves.isText = false → a.height * width < Size.limit)

/-- What is reported of leaves that do not suit rows of a width. -/
def mismatch (a : FieldArray) (width : Nat) : Error :=
  match a.leaves with
  | .numeric numbers => .shape "array" (.unfillable numbers.length a.height width)
  | .text _ => .shape a.field (.wideText width)

/-! ### Both kinds of leaves -/

/-- Once the width is known, numbers must fill the shape and texts must be one wide. -/
theorem toValues_of_width {width : Nat} (h : a.width = .ok width) :
    a.toValues = match a.leaves with
      | .numeric numbers => (Grid.ofValues? a.height width numbers).map .numeric
      | .text texts =>
        if 1 < width then .error (.shape a.field (.wideText width)) else .ok (.text texts) := by
  rw [toValues, h, ok_bind]
  cases a.leaves with
  | numeric numbers => cases Grid.ofValues? a.height width numbers <;> rfl
  | text texts => rfl

/-- Numbers come out as they are laid out, as a grid of the height and width of the array. -/
theorem toValues_eq_numeric_iff :
    a.toValues = .ok (.numeric grid) ↔ a.leaves = .numeric grid.values ∧ a.height = grid.height ∧
      a.width = .ok grid.cols ∧ grid.height * grid.cols < Size.limit := by
  cases hwidth : a.width with
  | error e => simp [toValues, hwidth, bind, Except.bind]
  | ok width =>
    rw [toValues_of_width hwidth]
    cases a.leaves with
    | text texts => dsimp only; split <;> simp
    | numeric numbers =>
      simp only [map_eq_ok_iff, Values.numeric.injEq, Grid.ofValues?_eq_ok_iff,
        Leaves.numeric.injEq, Except.ok.injEq]
      constructor
      · rintro ⟨grid, ⟨hlimit, hheight, rfl, rfl⟩, rfl⟩
        exact ⟨rfl, hheight.symm, rfl, hheight ▸ hlimit⟩
      · rintro ⟨rfl, hheight, rfl, hlimit⟩
        exact ⟨grid, ⟨hheight ▸ hlimit, hheight.symm, rfl, rfl⟩, rfl⟩

/-- Texts come out as they are, if the array is at most one wide; nobody counts them. -/
theorem toValues_eq_text_iff :
    a.toValues = .ok (.text texts) ↔
      a.leaves = .text texts ∧ ∃ width, a.width = .ok width ∧ width ≤ 1 := by
  cases hwidth : a.width with
  | error e => simp [toValues, hwidth, bind, Except.bind]
  | ok width =>
    rw [toValues_of_width hwidth]
    cases a.leaves with
    | numeric numbers => simp [map_eq_ok_iff]
    | text texts' =>
      dsimp only
      split <;> simp <;> omega

/-- Sizes that are no words are too large; else leaves that do not suit are a mismatch. -/
theorem toValues_eq_error (h : a.toValues = .error e) :
    (¬ a.Countable ∧ e = .tooLarge) ∨
      a.Countable ∧ ∃ width, a.width = .ok width ∧ e = a.mismatch width := by
  cases hwidth : a.width with
  | error e' =>
    obtain rfl := Size.product_eq_error hwidth
    rw [toValues, hwidth, error_bind] at h
    exact .inl ⟨by simp [Countable, hwidth], (Except.error.inj h).symm⟩
  | ok width =>
    rw [toValues_of_width hwidth] at h
    cases hleaves : a.leaves with
    | numeric numbers =>
      rw [hleaves] at h
      rcases Grid.ofValues?_eq_error_iff.1 (map_eq_error_iff.1 h) with
        ⟨hlarge, rfl⟩ | ⟨hsize, -, rfl⟩
      · refine .inl ⟨?_, rfl⟩
        simpa [Countable, hwidth, hleaves, Leaves.isText] using hlarge
      · exact .inr ⟨⟨width, hwidth, fun _ => hsize⟩, width, rfl, by simp [mismatch, hleaves]⟩
    | text texts =>
      -- Texts are not counted, so no size but the width can be too large.
      rw [hleaves] at h
      dsimp only at h
      split at h
      · refine .inr ⟨⟨width, hwidth, by simp [hleaves, Leaves.isText]⟩, width, rfl, ?_⟩
        simpa [mismatch, hleaves] using (Except.error.inj h).symm
      · contradiction

/-- An array is converted exactly if there is a width that its leaves suit. -/
theorem exists_toValues_iff :
    (∃ values, a.toValues = .ok values) ↔ ∃ width, a.width = .ok width ∧ a.Takes width := by
  constructor
  · rintro ⟨values, h⟩
    cases values with
    | numeric grid =>
      obtain ⟨hleaves, hheight, hwidth, hlimit⟩ := toValues_eq_numeric_iff.1 h
      refine ⟨grid.cols, hwidth, ?_⟩
      rw [Takes, hleaves, hheight]
      exact ⟨hlimit, grid.length_values⟩
    | text texts =>
      obtain ⟨hleaves, width, hwidth, hnarrow⟩ := toValues_eq_text_iff.1 h
      exact ⟨width, hwidth, by rwa [Takes, hleaves]⟩
  · rintro ⟨width, hwidth, htakes⟩
    rw [Takes] at htakes
    cases hleaves : a.leaves with
    | numeric numbers =>
      rw [hleaves] at htakes
      -- The grid is there already: it is the shape with the leaves.
      let grid : Grid := ⟨a.height, width, numbers, htakes.2⟩
      exact ⟨.numeric grid, toValues_eq_numeric_iff.2 ⟨hleaves, rfl, hwidth, htakes.1⟩⟩
    | text texts =>
      rw [hleaves] at htakes
      exact ⟨_, toValues_eq_text_iff.2 ⟨hleaves, width, hwidth, htakes⟩⟩

/-- Whatever is stated of the shape, the leaves stay what they are. -/
theorem leaves_of_toValues (h : a.toValues = .ok values) : values.leaves = a.leaves := by
  cases values with
  | numeric grid => exact (toValues_eq_numeric_iff.1 h).1.symm
  | text texts => exact (toValues_eq_text_iff.1 h).1.symm

/-- Numbers get the shape that is stated, texts a row for each and one column. -/
theorem shapedAs_iff (h : a.toValues = .ok values) : a.ShapedAs values ↔
    (a.leaves.isText = true → a.leaves.size = a.height ∧ a.width = .ok 1) := by
  cases values with
  | numeric grid =>
    obtain ⟨hleaves, hheight, hwidth, -⟩ := toValues_eq_numeric_iff.1 h
    refine ⟨fun _ htext => ?_, fun _ => ⟨hheight.symm, hwidth⟩⟩
    simp [hleaves, Leaves.isText] at htext
  | text texts =>
    obtain ⟨hleaves, -⟩ := toValues_eq_text_iff.1 h
    rw [ShapedAs, hleaves]
    simp [Values.height, Values.width, Leaves.isText, Leaves.size]

/-- **Shapes of converted arrays.** An array is converted exactly if its width is a word and its
leaves suit it, and then keeps its leaves. Numbers have the rows and the width that the array
states. Texts have them exactly if there are as many texts as rows and the rows are one wide, while
all that is asked is that the rows are no wider. An array that is not converted has a size that is
too large, or else there is a mismatch of shapes. -/
theorem shaped_iff_texts_counted (a : FieldArray) :
    ((∃ values, a.toValues = .ok values) ↔ ∃ width, a.width = .ok width ∧ a.Takes width) ∧
    (∀ values, a.toValues = .ok values → values.leaves = a.leaves ∧
      (a.ShapedAs values ↔
        (a.leaves.isText = true → a.leaves.size = a.height ∧ a.width = .ok 1))) ∧
    ∀ e, a.toValues = .error e → (¬ a.Countable ∧ e = .tooLarge) ∨
      a.Countable ∧ ∃ width, a.width = .ok width ∧ e = a.mismatch width :=
  ⟨exists_toValues_iff, fun _ h => ⟨leaves_of_toValues h, shapedAs_iff h⟩,
    fun _ => toValues_eq_error⟩

/-- Two rows of three numbers. -/
def twoByThree : FieldArray :=
  ⟨"temperature", none, [2, 3], ["level"], .numeric [281, 279, 276, 290, 288, 285]⟩

/-- Six numbers of two rows are a grid of three columns. -/
theorem shaped_iff_texts_counted_twoByThree :
    ∃ values, twoByThree.toValues = .ok values ∧ twoByThree.ShapedAs values := by
  obtain ⟨hmade, hshaped, -⟩ := shaped_iff_texts_counted twoByThree
  obtain ⟨values, h⟩ := hmade.2 ⟨3, rfl, by decide, rfl⟩
  exact ⟨values, h, (hshaped values h).2.2 fun htext => absurd htext (by decide)⟩

/-- Two texts for three records. -/
def shortStations : FieldArray := ⟨"station", none, [3], [], .text ["EDDM", "KSFO"]⟩

/-- Texts that are fewer than the rows are taken as they are. -/
theorem misshapen_shortStations :
    ∃ values, shortStations.toValues = .ok values ∧ ¬ shortStations.ShapedAs values :=
  ⟨.text ["EDDM", "KSFO"], rfl, fun h => absurd h.1 (by decide)⟩

end FieldArray

end ObsExport
