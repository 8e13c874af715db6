import Mathlib.Data.List.Basic
import SlotArray.Definition.SlotLines
import SlotArray.Proofs.Outline
import SlotArray.Proofs.Splits

/-! The lines that come once per slot, read back. The readers know the shapes of the lines, but not
how the lines belong together: which fields there are, in which order and under which indices, is
what they find out. -/
namespace SlotArray.Definition
open SlotArray.Text Outline

/-! ## Readers -/

/-- The field that a line of the type declares. -/
def field? (element line : String) : Option String :=
  Frame.name? ⟨"    ".toList, (": " ++ element ++ ",").toList⟩ line.toList

/-- What stands in front of a line inside a function's block. -/
def inset : List Char := "            ".toList

/-- The field that a line fills from a call, and the argument of the call. -/
def call? (line : String) : Option (String × Nat) :=
  (behind? inset line.toList).bind fun text =>
    (Frame.number? ⟨": f(".toList, "),".toList⟩ (text.dropWhile (· ≠ ':'))).map fun argument =>
      (String.ofList (text.takeWhile (· ≠ ':')), argument)

/-- The index that an arm is for, and the field it gets at. -/
def arm? (frame : Frame) (line : String) : Option (Nat × String) :=
  (behind? inset line.toList).bind fun text =>
    let digits := text.takeWhile Char.isDigit
    if digits = [] then none
    else (frame.name? (text.dropWhile Char.isDigit)).map fun field =>
      (Nat.ofDigitChars 10 digits 0, field)

/-- The arms of a `match`, and the line behind them. -/
def arms? (frame : Frame) (lines : List String) : Option (List (Nat × String) × String) :=
  lines.getLast?.bind fun last => (lines.dropLast.mapM (arm? frame)).map fun arms => (arms, last)

/-- How an arm answers a shared reference. -/
def sharedFrame : Frame := ⟨" => ::core::option::Option::Some(&self.".toList, "),".toList⟩

/-- How an arm answers a mutable reference. -/
def lentFrame : Frame := ⟨" => ::core::option::Option::Some(&mut self.".toList, "),".toList⟩

/-- How an arm stores a value and answers the one before. -/
def replacedFrame : Frame :=
  ⟨" => ::core::result::Result::Ok(::core::mem::replace(&mut self.".toList, ", value)),".toList⟩

/-- The line for all the other indices where they answer nothing. -/
def nothingLine : String := "            _ => ::core::option::Option::None,"

/-- The line for all the other indices where they answer an error, which reports a length. -/
def errorFrame : Frame :=
  ⟨"            _ => ::core::result::Result::Err(::struct_array::IndexOutOfRange::new(index, ".toList,
    ")),".toList⟩

/-- The fields that are listed, each with something behind it. -/
def listed? (after : String) (text : List Char) : Option (List String) :=
  if text = [] then some []
  else (splitWhere (· == ',') text).mapM
    (Frame.name? ⟨"self.".toList, after.toList⟩ ∘ trimStart)

/-! ## What they read -/

/-- Lines that come once per slot are read one by one. -/
theorem mapM_map_range {β γ : Type} {line : Nat → β} {read : β → Option γ} {found : Nat → γ}
    (reads : ∀ i, read (line i) = some (found i)) (size : Nat) :
    ((List.range size).map line).mapM read = some ((List.range size).map found) := by
  rw [List.mapM_map, show read ∘ line = fun i => pure (found i) from funext reads, List.mapM_pure]
  rfl

theorem toList_slotField (i : Nat) :
    (slotField i).toList = "_value".toList ++ Nat.toDigits 10 i := by
  rw [slotField, String.toList_append, Nat.toString_eq_repr, Nat.toList_repr]

theorem slotField_injective : Function.Injective slotField := by
  intro i j same
  have texts := congrArg String.toList same
  rw [toList_slotField, toList_slotField, List.append_cancel_left_eq] at texts
  have ends : ([] : List Char).takeWhile Char.isDigit = [] := rfl
  exact toDigits_append_inj ends ends (by rw [texts])

/-- No field's name holds a character that is neither a digit nor one of `_value`. -/
theorem not_mem_slotField {c : Char} (noDigit : c.isDigit = false) (foreign : c ∉ "_value".toList)
    (i : Nat) : c ∉ (slotField i).toList := by
  intro mem
  rw [toList_slotField, List.mem_append] at mem
  rcases mem with mem | mem
  · exact foreign mem
  · have digit := Nat.isDigit_of_mem_toDigits (by decide) (by decide) mem
    rw [noDigit] at digit
    cases digit

/-- The fields of the slots, in order. -/
def slotFields (size : Nat) : List String := (List.range size).map slotField

/-- Each slot's index with the slot's field, in order. -/
def slotArms (size : Nat) : List (Nat × String) := (List.range size).map fun i => (i, slotField i)

theorem fieldLines_mapM (size : Nat) (element : String) :
    (fieldLines size element).mapM (field? element) = some (slotFields size) := by
  refine mapM_map_range (fun i => ?_) size
  rw [field?, name?_eq_some_iff]
  simp only [String.toList_append, List.append_assoc]

/-- Digits are told from what follows them, if it does not begin with a digit. -/
theorem dropWhile_toDigits_append (number : Nat) {rest : List Char}
    (ends : rest.takeWhile Char.isDigit = []) :
    (Nat.toDigits 10 number ++ rest).dropWhile Char.isDigit = rest := by
  have whole := @List.takeWhile_append_dropWhile _ Char.isDigit (Nat.toDigits 10 number ++ rest)
  rw [takeWhile_toDigits_append number ends] at whole
  exact List.append_cancel_left whole

theorem fromFnLines_mapM (size : Nat) :
    (fromFnLines size).mapM call? = some ((List.range size).map fun i => (slotField i, i)) := by
  refine mapM_map_range (fun i => ?_) size
  have ordinary : ∀ c ∈ (slotField i).toList, decide (c ≠ ':') = true := by
    intro c mem
    refine decide_eq_true fun same => ?_
    exact not_mem_slotField (by decide) (by decide) i (same ▸ mem)
  have text : ("            " ++ slotField i ++ ": f(" ++ toString i ++ "),").toList =
      inset ++ ((slotField i).toList ++ (": f(".toList ++ (Nat.toDigits 10 i ++ "),".toList))) := by
    simp only [String.toList_append, List.append_assoc, Nat.toString_eq_repr, Nat.toList_repr]
    rfl
  have number : Frame.number? ⟨": f(".toList, "),".toList⟩
      (": f(".toList ++ (Nat.toDigits 10 i ++ "),".toList)) = some i :=
    number?_digits i (by decide)
  have colon : ": f(".toList = ':' :: " f(".toList := by decide
  have before (more : List Char) : (':' :: more).takeWhile (· ≠ ':') = [] := rfl
  have behind (more : List Char) : (':' :: more).dropWhile (· ≠ ':') = ':' :: more := rfl
  rw [colon, List.cons_append] at text number
  rw [call?, text, behind?_eq_some_iff.mpr rfl, Option.bind_some,
    List.takeWhile_append_of_pos ordinary, List.dropWhile_append_of_pos ordinary,
    before, behind, colon, number, List.append_nil, String.ofList_toList]
  rfl

/-- An arm that is written in a frame is read in it. -/
theorem arm?_eq_some (frame : Frame) (i : Nat) {line : String}
    (ends : frame.front.head?.any Char.isDigit = false) (begun : frame.front ≠ [])
    (written : line.toList =
      inset ++ (Nat.toDigits 10 i ++ (frame.front ++ ((slotField i).toList ++ frame.back)))) :
    arm? frame line = some (i, slotField i) := by
  have stop : (frame.front ++ ((slotField i).toList ++ frame.back)).takeWhile Char.isDigit = [] := by
    cases front : frame.front with
    | nil => exact absurd front begun
    | cons c rest =>
      have noDigit : ¬ c.isDigit = true := by simpa [front] using ends
      exact List.takeWhile_cons_of_neg noDigit
  rw [arm?, written, behind?_eq_some_iff.mpr rfl, Option.bind_some, takeWhile_toDigits_append i stop,
    dropWhile_toDigits_append i stop, if_neg Nat.toDigits_ne_nil, name?_eq_some_iff.mpr rfl,
    Nat.ofDigitChars_ten_toDigits]
  rfl

/-- A table as it is written: an arm for each slot in a frame, and one more line. -/
def IsTable (frame : Frame) (size : Nat) (last : String) (rows : List String) : Prop :=
  ∃ arm : Nat → String, rows = (List.range size).map arm ++ [last] ∧ ∀ i, (arm i).toList =
    inset ++ (Nat.toDigits 10 i ++ (frame.front ++ ((slotField i).toList ++ frame.back)))

/-- It is read as its arms and the last line. -/
theorem IsTable.arms? {frame : Frame} {size : Nat} {last : String} {rows : List String}
    (table : IsTable frame size last rows) (ends : frame.front.head?.any Char.isDigit = false)
    (begun : frame.front ≠ []) :
    Definition.arms? frame rows = some (slotArms size, last) := by
  obtain ⟨arm, rfl, written⟩ := table
  have reads (i : Nat) : arm? frame (arm i) = some (i, slotField i) :=
    arm?_eq_some frame i ends begun (written i)
  rw [Definition.arms?, List.getLast?_concat, List.dropLast_concat, mapM_map_range reads]
  rfl

theorem isTable_getArms (size : Nat) : IsTable sharedFrame size nothingLine (getArms size) := by
  refine ⟨_, rfl, fun i => ?_⟩
  simp only [String.toList_append, List.append_assoc, Nat.toString_eq_repr, Nat.toList_repr]
  rfl

theorem isTable_getMutArms (size : Nat) : IsTable lentFrame size nothingLine (getMutArms size) := by
  refine ⟨_, rfl, fun i => ?_⟩
  simp only [String.toList_append, List.append_assoc, Nat.toString_eq_repr, Nat.toList_repr]
  rfl

/-- The line for all the other indices where they answer an error. -/
def errorLine (size : Nat) : String :=
  "            _ => ::core::result::Result::Err(::struct_array::IndexOutOfRange::new(index, " ++
    toString size ++ ")),"

theorem isTable_setArms (size : Nat) :
    IsTable replacedFrame size (errorLine size) (setArms size) := by
  refine ⟨_, rfl, fun i => ?_⟩
  simp only [String.toList_append, List.append_assoc, Nat.toString_eq_repr, Nat.toList_repr]
  rfl

theorem toList_errorLine (size : Nat) : (errorLine size).toList =
    errorFrame.front ++ (Nat.toDigits 10 size ++ errorFrame.back) := by
  unfold errorLine errorFrame
  simp only [String.toList_append, List.append_assoc, Nat.toString_eq_repr, Nat.toList_repr]

theorem errorLine_number? (size : Nat) : errorFrame.number? (errorLine size).toList = some size := by
  rw [toList_errorLine]
  exact number?_digits size (by decide)

theorem getArms_arms? (size : Nat) :
    arms? sharedFrame (getArms size) = some (slotArms size, nothingLine) :=
  (isTable_getArms size).arms? (by decide) (by decide)

theorem getMutArms_arms? (size : Nat) :
    arms? lentFrame (getMutArms size) = some (slotArms size, nothingLine) :=
  (isTable_getMutArms size).arms? (by decide) (by decide)

theorem setArms_arms? (size : Nat) :
    arms? replacedFrame (setArms size) = some (slotArms size, errorLine size) :=
  (isTable_setArms size).arms? (by decide) (by decide)

/-! ### Lists -/

/-- The items of a list are read, each but the first behind a blank. -/
theorem slotList_listed? (size : Nat) {after : String} (clean : ',' ∉ after.toList) :
    listed? after (slotList size after).toList = some (slotFields size) := by
  obtain ⟨item, written⟩ : ∃ item : Nat → String, ∀ i, "self." ++ slotField i ++ after = item i := ⟨_, fun _ => rfl⟩
  have text (i : Nat) : (item i).toList = "self.".toList ++ ((slotField i).toList ++ after.toList) := by
    simp only [← written, String.toList_append, List.append_assoc]
  have plain (i : Nat) : ',' ∉ (item i).toList := by
    rw [text, List.mem_append, List.mem_append]
    rintro (mem | mem | mem)
    · exact absurd mem (by decide)
    · exact not_mem_slotField (by decide) (by decide) i mem
    · exact clean mem
  have reads (i : Nat) : (Frame.name? ⟨"self.".toList, after.toList⟩ ∘ trimStart) (item i).toList =
      some (slotField i) := by
    rw [Function.comp_apply, text, trimStart_append (by decide), name?_eq_some_iff]
    rfl
  have readsBehind (i : Nat) : (Frame.name? ⟨"self.".toList, after.toList⟩ ∘ trimStart)
      (' ' :: (item i).toList) = some (slotField i) := reads i
  cases size with
  | zero => rfl
  | succ size =>
    have items : slotList (size + 1) after =
        ", ".intercalate (item 0 :: (List.range size).map fun i => item (i + 1)) := by
      simp [slotList, List.range_succ_eq_map, written, Function.comp_def]
    have cut : splitWhere (· == ',') (slotList (size + 1) after).toList =
        (item 0).toList :: (List.range size).map fun i => ' ' :: (item (i + 1)).toList := by
      rw [items, splitWhere_intercalate, List.map_map]
      · rfl
      · simp [plain]
    have filled : (slotList (size + 1) after).toList ≠ [] := by
      intro empty
      rw [empty] at cut
      rw [text, splitWhere] at cut
      cases (List.cons.inj cut).1
    have later : ((List.range size).map fun i => ' ' :: (item (i + 1)).toList).mapM
        (Frame.name? ⟨"self.".toList, after.toList⟩ ∘ trimStart) =
          some ((List.range size).map fun i => slotField (i + 1)) :=
      mapM_map_range (fun i => readsBehind (i + 1)) size
    rw [listed?, if_neg filled, cut, List.mapM_cons, reads, later, slotFields, List.range_succ_eq_map,
      List.map_cons, List.map_map]
    rfl

end SlotArray.Definition
