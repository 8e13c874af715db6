import Mathlib.Data.List.Nodup
import SlotArray.Proofs.SlotTables

/-! The texts of the lines that come once per slot. Cut at their line feeds they are read back as the
lines were, so every text gets at the same fields in the same order; and none of them names a field
behind the last one, however the digits of the indices begin alike. -/
namespace SlotArray.Text

/-! ## Where a piece of a text stands -/

variable {piece front rest : List Char} {c : Char}

/-- A piece that begins with a character stands behind what lacks the character. -/
theorem infix_behind (lacks : c ∉ front) (within : c :: piece <:+: front ++ rest) :
    c :: piece <:+: rest := by
  induction front with
  | nil => exact within
  | cons d front ih =>
    have other : c ≠ d := fun same => lacks (same ▸ List.mem_cons_self)
    rw [List.cons_append, List.infix_cons_iff] at within
    rcases within with here | later
    · exact absurd (List.cons_prefix_cons.mp here).1 other
    · exact ih (fun mem => lacks (List.mem_cons_of_mem d mem)) later

/-- A piece stands on one side of a character that it lacks. -/
theorem infix_beside (lacks : c ∉ piece) (within : piece <:+: front ++ c :: rest) :
    piece <:+: front ∨ piece <:+: rest := by
  have nothing {start : List Char} (begun : start <+: c :: rest) (inside : start ⊆ piece) :
      start = [] := by
    cases start with
    | nil => rfl
    | cons d start =>
      obtain ⟨rfl, -⟩ := List.cons_prefix_cons.mp begun
      exact absurd (inside List.mem_cons_self) lacks
  rcases List.infix_append_iff.mp within with left | right | ⟨before, after, rfl, ends, begins⟩
  · exact .inl left
  · rcases List.infix_cons_iff.mp right with begins | right
    · rw [nothing begins (List.Subset.refl piece)]
      exact .inl (List.nil_infix)
    · exact .inr right
  · rw [nothing begins (List.subset_append_right before after), List.append_nil]
    exact .inl ends.isInfix

/-- A piece stands on one side of a border, if it lacks the last character in front of the border. -/
theorem infix_beside_border {last : Char} (ends : front.getLast? = some last) (lacks : last ∉ piece)
    (within : piece <:+: front ++ rest) : piece <:+: front ∨ piece <:+: rest := by
  obtain ⟨before, rfl⟩ := List.getLast?_eq_some_iff.mp ends
  rw [List.append_assoc, List.singleton_append] at within
  rcases infix_beside lacks within with inside | behind
  · exact .inl (inside.trans (List.prefix_append before [last]).isInfix)
  · exact .inr behind

/-- A piece of a row's own kind stands in one of the rows. -/
theorem exists_infix_of_unlines (oneRow : IsRow piece) (proper : piece ≠ []) {rows : List (List Char)}
    (within : piece <:+: unlines rows) : ∃ row ∈ rows, piece <:+: row := by
  induction rows with
  | nil => exact absurd (List.infix_nil.mp within) proper
  | cons row rows ih =>
    have split : unlines (row :: rows) = row ++ '\n' :: unlines rows := by simp [unlines]
    rw [split] at within
    rcases infix_beside oneRow within with here | later
    · exact ⟨row, List.mem_cons_self, here⟩
    · obtain ⟨other, mem, inside⟩ := ih later
      exact ⟨other, List.mem_cons_of_mem row mem, inside⟩

/-- More digits make no smaller number. -/
theorem le_ofDigitChars (digits : List Char) (number : Nat) :
    number ≤ Nat.ofDigitChars 10 digits number := by
  induction digits generalizing number with
  | nil => exact Nat.le_refl number
  | cons c digits ih =>
    calc number ≤ 10 * number + (c.toNat - '0'.toNat) := by omega
      _ ≤ Nat.ofDigitChars 10 digits (10 * number + (c.toNat - '0'.toNat)) := ih _

/-- A number whose digits begin another one's is no greater. -/
theorem le_of_toDigits_begins {number other : Nat} (ends : rest.takeWhile Char.isDigit = [])
    (begins : Nat.toDigits 10 number <+: Nat.toDigits 10 other ++ rest) : number ≤ other := by
  obtain ⟨more, same⟩ := begins
  have all := congrArg (List.takeWhile Char.isDigit) same
  have digits : ∀ c ∈ Nat.toDigits 10 number, c.isDigit = true :=
    fun _ mem => Nat.isDigit_of_mem_toDigits (by decide) (by decide) mem
  rw [takeWhile_toDigits_append other ends, List.takeWhile_append_of_pos digits] at all
  calc number = Nat.ofDigitChars 10 (Nat.toDigits 10 number) 0 := Nat.ofDigitChars_ten_toDigits.symm
    _ ≤ Nat.ofDigitChars 10 (more.takeWhile Char.isDigit)
        (Nat.ofDigitChars 10 (Nat.toDigits 10 number) 0) := le_ofDigitChars _ _
    _ = Nat.ofDigitChars 10 (Nat.toDigits 10 other) 0 := by rw [← Nat.ofDigitChars_append, all]
    _ = other := Nat.ofDigitChars_ten_toDigits

end SlotArray.Text

namespace SlotArray.Definition
open SlotArray.Text Outline

/-- No number's digits hold a character that is no digit. -/
theorem not_mem_toDigits {c : Char} (noDigit : c.isDigit = false) (i : Nat) :
    c ∉ Nat.toDigits 10 i := by
  intro mem
  rw [Nat.isDigit_of_mem_toDigits (by decide) (by decide) mem] at noDigit
  cases noDigit

/-! ## Fields behind the last one -/

/-- Text that names a field holds a low line. -/
theorem not_infix_of_not_mem {text : List Char} (plain : '_' ∉ text) : ¬ "_value".toList <:+: text :=
  fun within => plain (within.subset List.mem_cons_self)

/-- Where the field of a slot stands, no field behind it does. -/
theorem not_infix_field {size i : Nat} (below : i < size) {front rest : List Char}
    (noMark : '_' ∉ front) (ends : rest.takeWhile Char.isDigit = [])
    (foreign : ¬ "_value".toList <:+: rest) :
    ¬ (slotField size).toList <:+: front ++ ((slotField i).toList ++ rest) := by
  intro within
  have shape (k : Nat) : (slotField k).toList = '_' :: ("value".toList ++ Nat.toDigits 10 k) :=
    toList_slotField k
  rw [shape size] at within
  have behind := infix_behind noMark within
  rw [shape i, List.cons_append, List.infix_cons_iff] at behind
  rcases behind with here | later
  · -- Both begin at one place, so the one's digits begin with the other's.
    have digits := (List.cons_prefix_cons.mp here).2
    rw [List.append_assoc, List.prefix_append_right_inj] at digits
    exact absurd (le_of_toDigits_begins ends digits) (by omega)
  · have plain : '_' ∉ "value".toList ++ Nat.toDigits 10 i := by
      rw [List.mem_append]
      rintro (mem | mem)
      · exact absurd mem (by decide)
      · exact not_mem_toDigits (by decide) i mem
    have begins : "_value".toList <:+: '_' :: ("value".toList ++ Nat.toDigits 10 size) :=
      (List.prefix_append "_value".toList _).isInfix
    exact foreign (begins.trans (infix_behind plain later))

/-- Where no field is named, none behind the slots is. -/
theorem not_infix_foreign (size : Nat) {text : List Char} (foreign : ¬ "_value".toList <:+: text) :
    ¬ (slotField size).toList <:+: text := by
  intro within
  rw [toList_slotField] at within
  exact foreign ((List.prefix_append _ _).isInfix.trans within)

/-- What no line names is not in their text. -/
theorem not_infix_textOf {size : Nat} {rows : List String}
    (each : ∀ row ∈ rows, ¬ (slotField size).toList <:+: row.toList) :
    ¬ (slotField size).toList <:+: (textOf rows).toList := by
  intro within
  rw [toList_textOf] at within
  have oneRow : IsRow (slotField size).toList := not_mem_slotField (by decide) (by decide) size
  have proper : (slotField size).toList ≠ [] := by
    rw [toList_slotField]
    exact List.cons_ne_nil _ _
  obtain ⟨_, mem, inside⟩ := exists_infix_of_unlines oneRow proper within
  obtain ⟨row, inRows, rfl⟩ := List.mem_map.mp mem
  exact each row inRows inside

/-! ## Lines with one field -/

/-- A line in which the field of a slot is named, and no other. -/
def IsSlotLine (i : Nat) (line : String) : Prop :=
  ∃ front rest, line.toList = front ++ ((slotField i).toList ++ rest) ∧
    (IsRow front ∧ '_' ∉ front) ∧
    (IsRow rest ∧ rest.takeWhile Char.isDigit = [] ∧ ¬ "_value".toList <:+: rest)

namespace IsSlotLine
variable {size i : Nat}

theorem isRow {line : String} (slot : IsSlotLine i line) : IsRow line.toList := by
  obtain ⟨front, rest, text, ⟨rowFront, -⟩, rowRest, -⟩ := slot
  have rowField : IsRow (slotField i).toList := not_mem_slotField (by decide) (by decide) i
  rw [text]
  exact isRow_append rowFront (isRow_append rowField rowRest)

theorem lacks_behind {line : String} (slot : IsSlotLine i line) (below : i < size) :
    ¬ (slotField size).toList <:+: line.toList := by
  obtain ⟨front, rest, text, ⟨-, noMark⟩, -, ends, foreign⟩ := slot
  rw [text]
  exact not_infix_field below noMark ends foreign

variable {line : Nat → String} {others : List String}

/-- Lines that come once per slot, with others behind them, are cut as they are, -/
theorem rowsOf_textOf (slots : ∀ i, IsSlotLine i (line i))
    (clean : ∀ row ∈ others, IsRow row.toList) :
    rowsOf (textOf ((List.range size).map line ++ others)) = (List.range size).map line ++ others := by
  refine Text.rowsOf_textOf fun row mem => ?_
  rcases List.mem_append.mp mem with mem | mem
  · obtain ⟨i, -, rfl⟩ := List.mem_map.mp mem
    exact (slots i).isRow
  · exact clean row mem

/-- and name no field behind those of the slots, if the others do not. -/
theorem not_infix_textOf (slots : ∀ i, IsSlotLine i (line i))
    (foreign : ∀ row ∈ others, ¬ "_value".toList <:+: row.toList) :
    ¬ (slotField size).toList <:+: (textOf ((List.range size).map line ++ others)).toList := by
  refine Definition.not_infix_textOf fun row mem => ?_
  rcases List.mem_append.mp mem with mem | mem
  · obtain ⟨i, inRange, rfl⟩ := List.mem_map.mp mem
    exact (slots i).lacks_behind (List.mem_range.mp inRange)
  · exact not_infix_foreign size (foreign row mem)

theorem rowsOf_textOf_map (slots : ∀ i, IsSlotLine i (line i)) :
    rowsOf (textOf ((List.range size).map line)) = (List.range size).map line := by
  have cut := @IsSlotLine.rowsOf_textOf size line [] slots (List.forall_mem_nil _)
  rwa [List.append_nil] at cut

theorem not_infix_textOf_map (slots : ∀ i, IsSlotLine i (line i)) :
    ¬ (slotField size).toList <:+: (textOf ((List.range size).map line)).toList := by
  have lacks := @IsSlotLine.not_infix_textOf size line [] slots (List.forall_mem_nil _)
  rwa [List.append_nil] at lacks

end IsSlotLine

theorem isSlotLine_field {element : String} (oneRow : IsRow element.toList)
    (noField : ¬ "_value".toList <:+: element.toList) (i : Nat) :
    IsSlotLine i ("    " ++ slotField i ++ ": " ++ element ++ ",") := by
  refine ⟨"    ".toList, ": ".toList ++ (element.toList ++ ",".toList), ?_, ⟨by decide, by decide⟩, ?_,
    rfl, ?_⟩
  · simp only [String.toList_append, List.append_assoc]
  · exact isRow_append (by decide) (isRow_append oneRow (by decide))
  · intro within
    rcases infix_beside (by decide) (infix_behind (by decide) within) with here | later
    · exact noField here
    · exact absurd (List.infix_nil.mp later) (by decide)

theorem isSlotLine_call (i : Nat) :
    IsSlotLine i ("            " ++ slotField i ++ ": f(" ++ toString i ++ "),") := by
  have behind {c : Char} (noDigit : c.isDigit = false) (foreign : c ∉ ": f(),".toList) :
      c ∉ ": f(".toList ++ (Nat.toDigits 10 i ++ "),".toList) := by
    have digits := not_mem_toDigits noDigit i
    simp_all
  refine ⟨inset, ": f(".toList ++ (Nat.toDigits 10 i ++ "),".toList), ?_, ⟨by decide, by decide⟩,
    behind (by decide) (by decide), rfl, not_infix_of_not_mem (behind (by decide) (by decide))⟩
  simp only [String.toList_append, List.append_assoc, Nat.toString_eq_repr, Nat.toList_repr]
  rfl

theorem isSlotLine_entry (i : Nat) : IsSlotLine i ("            .entry(&self." ++ slotField i ++ ")") := by
  refine ⟨"            .entry(&self.".toList, ")".toList, ?_, ⟨by decide, by decide⟩, by decide, rfl,
    by decide⟩
  simp only [String.toList_append, List.append_assoc]

/-- An arm of a table, if its frame names no field. -/
theorem isSlotLine_arm {frame : Frame} {i : Nat} {line : String}
    (written : line.toList =
      inset ++ (Nat.toDigits 10 i ++ (frame.front ++ ((slotField i).toList ++ frame.back))))
    (front : IsRow frame.front ∧ '_' ∉ frame.front)
    (back : IsRow frame.back ∧ frame.back.takeWhile Char.isDigit = [] ∧
      ¬ "_value".toList <:+: frame.back) : IsSlotLine i line := by
  have before {c : Char} (noDigit : c.isDigit = false) (noSpace : c ∉ inset) (foreign : c ∉ frame.front) :
      c ∉ inset ++ (Nat.toDigits 10 i ++ frame.front) := by
    have digits := not_mem_toDigits noDigit i
    simp only [List.mem_append]
    tauto
  refine ⟨inset ++ (Nat.toDigits 10 i ++ frame.front), frame.back, ?_,
    ⟨before (by decide) (by decide) front.1, before (by decide) (by decide) front.2⟩, back⟩
  simp only [written, List.append_assoc]

/-! ## Tables -/

/-- What the line of a table for all the other indices begins with. -/
def anyIndex : List Char := inset ++ "_ => ".toList

/-- The text of a `match` over the slots: there is an arm for each of them, in order, and a last line
for all the other indices, so an index below the size has one arm and the others have none. -/
def IsSlotMatch (frame : Frame) (size : Nat) (text : String) : Prop :=
  ∃ arms last, arms? frame (rowsOf text) = some (arms, last) ∧ anyIndex <+: last.toList ∧
    arms = slotArms size ∧
    ∀ index, arms.filter (fun arm => arm.1 = index) =
      if index < size then [(index, slotField index)] else []

theorem slotArms_filter (size index : Nat) :
    (slotArms size).filter (fun arm => arm.1 = index) =
      if index < size then [(index, slotField index)] else [] := by
  induction size with
  | zero => rfl
  | succ size ih =>
    have more : slotArms (size + 1) = slotArms size ++ [(size, slotField size)] := by
      simp [slotArms, List.range_succ]
    rw [more, List.filter_append, ih]
    rcases Nat.lt_trichotomy index size with below | rfl | above
    · have other : size ≠ index := by omega
      simp [below, other, Nat.lt_succ_of_lt below]
    · simp
    · have other : size ≠ index := by omega
      have beyond : ¬ index < size := by omega
      have beyondToo : ¬ index < size + 1 := by omega
      simp [beyond, beyondToo, other]

section Tables
variable {frame : Frame} {size : Nat} {last : String} {rows : List String}

/-- What a frame has to be for arms to be read in it, and to name no field of its own. -/
@[mk_iff] structure IsArmFrame (frame : Frame) : Prop where
  begun : frame.front ≠ []
  noDigit : frame.front.head?.any Char.isDigit = false
  front : IsRow frame.front ∧ '_' ∉ frame.front
  back : IsRow frame.back ∧ frame.back.takeWhile Char.isDigit = [] ∧ ¬ "_value".toList <:+: frame.back

/-- The arms of each table are in such a frame. -/
theorem isArmFrame_tables :
    IsArmFrame sharedFrame ∧ IsArmFrame lentFrame ∧ IsArmFrame replacedFrame := by
  simp only [isArmFrame_iff]
  decide +kernel

/-- What the line for all the other indices has to be: a row that begins as one, and names no field. -/
structure IsLastLine (last : String) : Prop where
  row : IsRow last.toList
  any : anyIndex <+: last.toList
  foreign : ¬ "_value".toList <:+: last.toList

/-- The text of a table is a `match` over the slots, -/
theorem IsTable.isSlotMatch (table : IsTable frame size last rows) (arm : IsArmFrame frame)
    (others : IsLastLine last) : IsSlotMatch frame size (textOf rows) := by
  have read := table.arms? arm.noDigit arm.begun
  obtain ⟨line, rfl, written⟩ := table
  have slots (i : Nat) : IsSlotLine i (line i) := isSlotLine_arm (written i) arm.front arm.back
  have cut : rowsOf (textOf ((List.range size).map line ++ [last])) = _ :=
    IsSlotLine.rowsOf_textOf slots (List.forall_mem_singleton.mpr others.row)
  exact ⟨slotArms size, last, by rw [cut, read], others.any, rfl, slotArms_filter size⟩

/-- and names no field behind theirs. -/
theorem IsTable.lacks_behind (table : IsTable frame size last rows) (arm : IsArmFrame frame)
    (others : IsLastLine last) : ¬ (slotField size).toList <:+: (textOf rows).toList := by
  obtain ⟨line, rfl, written⟩ := table
  have slots (i : Nat) : IsSlotLine i (line i) := isSlotLine_arm (written i) arm.front arm.back
  exact IsSlotLine.not_infix_textOf slots (List.forall_mem_singleton.mpr others.foreign)

end Tables

theorem isLastLine_nothing : IsLastLine nothingLine := by
  obtain ⟨row, any, foreign⟩ : IsRow nothingLine.toList ∧ anyIndex <+: nothingLine.toList ∧
      ¬ "_value".toList <:+: nothingLine.toList := by decide +kernel
  exact ⟨row, any, foreign⟩

theorem isLastLine_error (size : Nat) : IsLastLine (errorLine size) := by
  obtain ⟨⟨row, any, foreign, ends⟩, rowBehind, noMark⟩ :
      (IsRow errorFrame.front ∧ anyIndex <+: errorFrame.front ∧ ¬ "_value".toList <:+: errorFrame.front ∧
        errorFrame.front.getLast? = some ' ') ∧ IsRow errorFrame.back ∧ '_' ∉ errorFrame.back := by decide +kernel
  have digits {c : Char} (noDigit : c.isDigit = false) : c ∉ Nat.toDigits 10 size := not_mem_toDigits noDigit size
  constructor
  · rw [toList_errorLine]
    exact isRow_append row (isRow_append (digits (by decide)) rowBehind)
  · rw [toList_errorLine]
    exact any.trans (List.prefix_append _ _)
  · rw [toList_errorLine]
    intro within
    rcases infix_beside_border ends (by decide) within with front | behind
    · exact foreign front
    · refine not_infix_of_not_mem (fun mem => ?_) behind
      rcases List.mem_append.mp mem with inDigits | inBack
      · exact digits (by decide) inDigits
      · exact noMark inBack

/-! ## Lists -/

/-- What may stand behind the fields of a list without being taken for a part of them. -/
structure IsSuffix (after : String) : Prop where
  noComma : ',' ∉ after.toList
  noDigit : after.toList.takeWhile Char.isDigit = []
  noField : ¬ "_value".toList <:+: after.toList

theorem isSuffix_clone : IsSuffix ".clone()" := ⟨by decide, rfl, by decide +kernel⟩

/-- A piece without the separator's characters stands in one of the items of a list. -/
theorem exists_infix_of_intercalate {c : Char} {piece : List Char} (noComma : ',' ∉ c :: piece)
    (noSpace : c ≠ ' ') {items : List String} (within : c :: piece <:+: (", ".intercalate items).toList) :
    ∃ item ∈ items, c :: piece <:+: item.toList := by
  induction items with
  | nil => exact absurd (List.infix_nil.mp within) (List.cons_ne_nil _ _)
  | cons item items ih =>
    cases items with
    | nil =>
      rw [String.intercalate_singleton] at within
      exact ⟨item, List.mem_singleton.mpr rfl, within⟩
    | cons next rest =>
      have separator : ", ".toList = [',', ' '] := by decide
      rw [String.intercalate_cons_cons, String.toList_append, String.toList_append, separator,
        List.append_assoc, List.cons_append] at within
      rcases infix_beside noComma within with here | later
      · exact ⟨item, List.mem_cons_self, here⟩
      · have space : c ∉ [' '] := by simpa using noSpace
        obtain ⟨found, mem, inside⟩ := ih (infix_behind space later)
        exact ⟨found, List.mem_cons_of_mem item mem, inside⟩

theorem slotList_lacks_behind (size : Nat) {after : String} (suffix : IsSuffix after) :
    ¬ (slotField size).toList <:+: (slotList size after).toList := by
  intro within
  have noComma : ',' ∉ (slotField size).toList := not_mem_slotField (by decide) (by decide) size
  have shape : (slotField size).toList = '_' :: ("value".toList ++ Nat.toDigits 10 size) :=
    toList_slotField size
  rw [shape] at within noComma
  obtain ⟨item, mem, inside⟩ := exists_infix_of_intercalate noComma (by decide) within
  obtain ⟨i, inRange, rfl⟩ := List.mem_map.mp mem
  rw [← shape, String.toList_append, String.toList_append, List.append_assoc] at inside
  exact not_infix_field (List.mem_range.mp inRange) (by decide) suffix.noDigit suffix.noField inside

/-- How a field is listed for debugging. -/
def entryFrame : Frame := ⟨"            .entry(&self.".toList, ")".toList⟩

theorem debugLines_mapM (size : Nat) :
    (debugLines size).mapM (entryFrame.name? ·.toList) = some (slotFields size) := by
  refine mapM_map_range (fun i => ?_) size
  rw [name?_eq_some_iff]
  simp only [String.toList_append, List.append_assoc]
  rfl

/-- No field is declared twice. -/
theorem nodup_slotFields (size : Nat) : (slotFields size).Nodup :=
  List.nodup_range.map slotField_injective

/-! ## All of them -/

/-- All texts for the slots get at the same fields, those of the slots in order: the fields that are
declared, those that are filled from calls, those that the arms of each table get at under their
indices, and those that are listed. None of the texts names the field behind the last one. -/
theorem slot_texts_get_at_slots (size : Nat) {element : String} (oneRow : IsRow element.toList)
    (noField : ¬ "_value".toList <:+: element.toList) :
    (slotFields size).Nodup ∧
    (rowsOf (textOf (fieldLines size element))).mapM (field? element) = some (slotFields size) ∧
    (rowsOf (textOf (fromFnLines size))).mapM call? =
      some ((List.range size).map fun i => (slotField i, i)) ∧
    IsSlotMatch sharedFrame size (textOf (getArms size)) ∧
    IsSlotMatch lentFrame size (textOf (getMutArms size)) ∧
    IsSlotMatch replacedFrame size (textOf (setArms size)) ∧
    (rowsOf (textOf (debugLines size))).mapM (entryFrame.name? ·.toList) = some (slotFields size) ∧
    (∀ after, IsSuffix after → listed? after (slotList size after).toList = some (slotFields size)) ∧
    (∀ rows ∈ [fieldLines size element, fromFnLines size, getArms size, getMutArms size, setArms size,
      debugLines size], ¬ (slotField size).toList <:+: (textOf rows).toList) ∧
    ∀ after, IsSuffix after → ¬ (slotField size).toList <:+: (slotList size after).toList := by
  have fields (i : Nat) := isSlotLine_field oneRow noField i
  have shared := isTable_getArms size
  have lent := isTable_getMutArms size
  have replaced := isTable_setArms size
  obtain ⟨sharedArm, lentArm, replacedArm⟩ := isArmFrame_tables
  refine ⟨nodup_slotFields size, ?_, ?_, ?_, ?_, ?_, ?_, fun after suffix => ?_, ?_,
    fun after suffix => slotList_lacks_behind size suffix⟩
  · rw [fieldLines, IsSlotLine.rowsOf_textOf_map fields]
    exact fieldLines_mapM size element
  · rw [fromFnLines, IsSlotLine.rowsOf_textOf_map isSlotLine_call]
    exact fromFnLines_mapM size
  · exact shared.isSlotMatch sharedArm isLastLine_nothing
  · exact lent.isSlotMatch lentArm isLastLine_nothing
  · exact replaced.isSlotMatch replacedArm (isLastLine_error size)
  · rw [debugLines, IsSlotLine.rowsOf_textOf_map isSlotLine_entry]
    exact debugLines_mapM size
  · exact slotList_listed? size suffix.noComma
  · simp only [List.forall_mem_cons]
    exact ⟨IsSlotLine.not_infix_textOf_map fields, IsSlotLine.not_infix_textOf_map isSlotLine_call,
      shared.lacks_behind sharedArm isLastLine_nothing,
      lent.lacks_behind lentArm isLastLine_nothing,
      replaced.lacks_behind replacedArm (isLastLine_error size),
      IsSlotLine.not_infix_textOf_map isSlotLine_entry, List.forall_mem_nil _⟩

/-- Eleven slots have the fields `_value1` and `_value10`, but not `_value11`. -/
theorem eleven_slot_texts_get_at_slots :
    (IsRow "T".toList ∧ ¬ "_value".toList <:+: "T".toList) ∧
    (rowsOf (textOf (fieldLines 11 "T"))).mapM (field? "T") = some (slotFields 11) ∧
    ¬ "_value11".toList <:+: (textOf (getArms 11)).toList ∧
    ¬ "_value11".toList <:+: (slotList 11 ".clone()").toList := by
  have given : IsRow "T".toList ∧ ¬ "_value".toList <:+: "T".toList := by decide
  obtain ⟨-, fields, -, -, -, -, -, -, none, noneListed⟩ :=
    slot_texts_get_at_slots 11 given.1 given.2
  exact ⟨given, fields, none (getArms 11) (by simp), noneListed ".clone()" isSuffix_clone⟩

end SlotArray.Definition
