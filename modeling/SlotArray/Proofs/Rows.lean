import Mathlib.Data.List.TakeWhile
import SlotArray.Text.Lines

/-! Rows: lines without their line feeds. Text that ends every line is its rows written one
under another, so a change of one line, such as its indentation, is a change of one row. -/
namespace SlotArray.Text

/-- Rows written one under another, each with a line feed behind it. -/
def unlines (rows : List (List Char)) : List Char :=
  rows.flatMap (· ++ ['\n'])

/-- A row holds no line feed of its own. -/
def IsRow (row : List Char) : Prop := '\n' ∉ row

instance (row : List Char) : Decidable (IsRow row) := inferInstanceAs (Decidable (¬ _))

/-- One row at a given depth. -/
def indentRow (depth : Nat) (row : List Char) : List Char :=
  if isBlankText row then row.dropWhile fun c => c == ' ' || c == '\t'
  else List.replicate (4 * depth) ' ' ++ row

theorem unlines_append (rows more : List (List Char)) :
    unlines (rows ++ more) = unlines rows ++ unlines more :=
  List.flatMap_append

theorem unlines_singleton (row : List Char) : unlines [row] = row ++ ['\n'] := by
  simp [unlines]

theorem isRow_append {row more : List Char} (clean : IsRow row) (cleanMore : IsRow more) :
    IsRow (row ++ more) := by
  intro feed
  rcases List.mem_append.mp feed with feed | feed
  · exact clean feed
  · exact cleanMore feed

/-- A row and its line feed are one line, whatever text follows. -/
theorem lines_row {row : List Char} (clean : IsRow row) (more : List Char) :
    lines (row ++ '\n' :: more) = (row ++ ['\n']) :: lines more := by
  induction row with
  | nil => rfl
  | cons c rest ih =>
    have ordinary : c ≠ '\n' := fun same => clean (same ▸ List.mem_cons_self)
    have cleanRest : IsRow rest := fun feed => clean (List.mem_cons_of_mem c feed)
    have step : lines (c :: rest ++ '\n' :: more) = consLine c (lines (rest ++ '\n' :: more)) := rfl
    rw [step, ih cleanRest, consLine, if_neg ordinary]
    rfl

/-- Rows that are written one under another are cut off a text again. -/
theorem lines_unlines_append {rows : List (List Char)} (clean : ∀ row ∈ rows, IsRow row) (more : List Char) :
    lines (unlines rows ++ more) = rows.map (· ++ ['\n']) ++ lines more := by
  induction rows with
  | nil => rfl
  | cons row rest ih =>
    have cleanRest : ∀ row ∈ rest, IsRow row := fun row mem => clean row (List.mem_cons_of_mem _ mem)
    have split : unlines (row :: rest) ++ more = row ++ '\n' :: (unlines rest ++ more) := by simp [unlines]
    rw [split, lines_row (clean row List.mem_cons_self), ih cleanRest]
    rfl

/-- So cutting gives back the rows. -/
theorem lines_unlines {rows : List (List Char)} (clean : ∀ row ∈ rows, IsRow row) :
    lines (unlines rows) = rows.map (· ++ ['\n']) := by
  have cut := lines_unlines_append clean []
  rwa [List.append_nil, show lines [] = [] from rfl, List.append_nil] at cut

/-- A row is what stands in front of its line feed. -/
theorem takeWhile_row {row : List Char} (clean : IsRow row) :
    (row ++ ['\n']).takeWhile (· ≠ '\n') = row := by
  have ordinary : ∀ c ∈ row, decide (c ≠ '\n') = true := by
    intro c mem
    exact decide_eq_true fun feed => clean (feed ▸ mem)
  rw [List.takeWhile_append_of_pos ordinary]
  exact List.append_nil row

/-- Lines written one under another, each with its line feed. -/
def textOf (rows : List String) : String := String.join (rows.map (· ++ "\n"))

/-- The lines of a text, without their line feeds. -/
def rowsOf (text : String) : List String :=
  (lines text.toList).map fun line => String.ofList (line.takeWhile (· ≠ '\n'))

theorem toList_textOf (rows : List String) : (textOf rows).toList = unlines (rows.map String.toList) := by
  rw [textOf, String.toList_join, unlines, List.flatMap_map, List.flatMap_map]
  simp only [String.toList_append]
  rfl

/-- A text begins with the lines it was made of. -/
theorem rowsOf_of_unlines {rows : List String} (clean : ∀ row ∈ rows, IsRow row.toList) {text more : String}
    (same : text.toList = unlines (rows.map String.toList) ++ more.toList) :
    rowsOf text = rows ++ rowsOf more := by
  have cleanLists : ∀ row ∈ rows.map String.toList, IsRow row := List.forall_mem_map.mpr clean
  rw [rowsOf, same, lines_unlines_append cleanLists, List.map_append, List.map_map, List.map_map]
  refine congrArg (· ++ rowsOf more) (Eq.trans (List.map_congr_left fun row mem => ?_) (List.map_id rows))
  have whole := takeWhile_row (clean row mem)
  rw [Function.comp_apply, Function.comp_apply, whole, String.ofList_toList]
  rfl

theorem rowsOf_textOf {rows : List String} (clean : ∀ row ∈ rows, IsRow row.toList) :
    rowsOf (textOf rows) = rows := by
  have cut := @rowsOf_of_unlines rows clean (textOf rows) "" (by rw [toList_textOf]; exact (List.append_nil _).symm)
  exact cut.trans (List.append_nil rows)

/-- Text in one row stays in it with other such text behind. -/
theorem isRow_append_text {text more : String} (clean : IsRow text.toList) (cleanMore : IsRow more.toList) :
    IsRow (text ++ more).toList := by
  rw [String.toList_append]
  exact isRow_append clean cleanMore

theorem isRow_intercalate {separator : String} (clean : IsRow separator.toList) {items : List String}
    (cleanItems : ∀ item ∈ items, IsRow item.toList) : IsRow (separator.intercalate items).toList := by
  induction items with
  | nil => exact List.not_mem_nil
  | cons item items ih =>
    have later := ih fun item mem => cleanItems item (List.mem_cons_of_mem _ mem)
    cases items with
    | nil =>
      rw [String.intercalate_singleton]
      exact cleanItems item List.mem_cons_self
    | cons next rest =>
      rw [String.intercalate_cons_cons]
      exact isRow_append_text (isRow_append_text (cleanItems item List.mem_cons_self) clean) later

/-! ## Indentation -/

theorem indentLine_row (depth : Nat) (row : List Char) :
    indentLine depth (row ++ ['\n']) = indentRow depth row ++ ['\n'] := by
  have feedBlank : isBlank '\n' = true := by decide
  have blankAlike : isBlankText (row ++ ['\n']) = isBlankText row := by
    simp [isBlankText, feedBlank]
  unfold indentLine indentRow
  rw [blankAlike]
  split
  · rw [List.dropWhile_append]
    split
    · rename_i dropped
      rw [List.isEmpty_iff.mp dropped]
      rfl
    · rfl
  · exact (List.append_assoc _ _ _).symm

/-- Indentation works on every row by itself. -/
theorem indent_unlines (depth : Nat) {rows : List (List Char)} (clean : ∀ row ∈ rows, IsRow row) :
    indent depth (unlines rows) = unlines (rows.map (indentRow depth)) := by
  rw [indent, lines_unlines clean, unlines, List.flatMap_map, List.flatMap_map]
  exact congrArg (List.flatMap · rows) (funext (indentLine_row depth))

theorem isRow_indentRow (depth : Nat) {row : List Char} (clean : IsRow row) :
    IsRow (indentRow depth row) := by
  unfold indentRow
  split
  · exact fun feed => clean ((List.dropWhile_sublist _).subset feed)
  · refine isRow_append ?_ clean
    intro feed
    exact absurd (List.eq_of_mem_replicate feed) (by decide)

/-- Indentation is nothing but blanks in front of what a row begins with. -/
theorem trimStart_indentRow (depth : Nat) (row : List Char) :
    trimStart (indentRow depth row) = trimStart row := by
  unfold indentRow
  split
  · rename_i blank
    have nothing : ∀ text : List Char, isBlankText text = true → trimStart text = [] := by
      intro text allBlank
      exact List.dropWhile_eq_nil_iff.2 (List.all_eq_true.mp allBlank)
    have droppedBlank : isBlankText (row.dropWhile fun c => c == ' ' || c == '\t') = true :=
      List.all_eq_true.mpr fun c mem =>
        List.all_eq_true.mp blank c ((List.dropWhile_sublist _).subset mem)
    rw [nothing _ droppedBlank, nothing _ blank]
  · have spaceBlank : isBlank ' ' = true := by decide
    induction 4 * depth with
    | zero => rfl
    | succ n ih =>
      rw [List.replicate_succ, List.cons_append, trimStart, List.dropWhile_cons_of_pos spaceBlank]
      exact ih

/-! ## Numbers in a row -/

/-- The digits of a number end where something else follows. -/
theorem takeWhile_toDigits_append (number : Nat) {rest : List Char}
    (ends : rest.takeWhile Char.isDigit = []) :
    (Nat.toDigits 10 number ++ rest).takeWhile Char.isDigit = Nat.toDigits 10 number := by
  have digits : ∀ c ∈ Nat.toDigits 10 number, c.isDigit = true :=
    fun _ mem => Nat.isDigit_of_mem_toDigits (by decide) (by decide) mem
  rw [List.takeWhile_append_of_pos digits, ends, List.append_nil]

/-- So a number is known from a text that begins with it. -/
theorem toDigits_append_inj {number other : Nat} {rest more : List Char}
    (ends : rest.takeWhile Char.isDigit = []) (endsToo : more.takeWhile Char.isDigit = [])
    (same : Nat.toDigits 10 number ++ rest = Nat.toDigits 10 other ++ more) : number = other := by
  have digits : Nat.toDigits 10 number = Nat.toDigits 10 other := by
    rw [← takeWhile_toDigits_append number ends, same, takeWhile_toDigits_append other endsToo]
  calc number = Nat.ofDigitChars 10 (Nat.toDigits 10 number) 0 := Nat.ofDigitChars_ten_toDigits.symm
    _ = Nat.ofDigitChars 10 (Nat.toDigits 10 other) 0 := by rw [digits]
    _ = other := Nat.ofDigitChars_ten_toDigits

end SlotArray.Text
