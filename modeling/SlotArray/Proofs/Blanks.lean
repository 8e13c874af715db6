import Mathlib.Data.List.DropRight
import SlotArray.Text.Blank

/-! Trimming takes white space away at the two ends of a text and nothing else. What is trimmed once
stays as it is, and white space put around a text changes nothing of what is left of it. -/
namespace SlotArray.Text

/-- Nothing but white space. -/
def IsBlank (text : List Char) : Prop := ∀ c ∈ text, isBlank c = true

variable {text blank : List Char}

theorem trimStart_blank_append (isBlank : IsBlank blank) :
    trimStart (blank ++ text) = trimStart text :=
  List.dropWhile_append_of_pos isBlank

theorem trimEnd_append_blank (isBlank : IsBlank blank) : trimEnd (text ++ blank) = trimEnd text := by
  have mirrored : IsBlank blank.reverse := fun c mem => isBlank c (List.mem_reverse.mp mem)
  have behind : trimStart (blank.reverse ++ text.reverse) = trimStart text.reverse :=
    trimStart_blank_append mirrored
  rw [trimStart, trimStart] at behind
  rw [trimEnd, trimEnd, List.reverse_append, behind]

theorem trimStart_eq_nil_iff : trimStart text = [] ↔ IsBlank text := List.dropWhile_eq_nil_iff

theorem trimEnd_eq_rdropWhile : trimEnd text = text.rdropWhile Text.isBlank := rfl

theorem trim_blank_append (isBlank : IsBlank blank) : trim (blank ++ text) = trim text := by
  rw [trim, trimStart_blank_append isBlank, trim]

theorem trim_append_blank (isBlank : IsBlank blank) : trim (text ++ blank) = trim text := by
  by_cases all : IsBlank text
  · have both : IsBlank (text ++ blank) := by
      intro c mem
      rcases List.mem_append.mp mem with mem | mem
      · exact all c mem
      · exact isBlank c mem
    rw [trim, trim, trimStart_eq_nil_iff.mpr all, trimStart_eq_nil_iff.mpr both]
  · have filled : (text.dropWhile Text.isBlank).isEmpty = false := by
      rw [List.isEmpty_eq_false_iff]
      exact fun empty => all (trimStart_eq_nil_iff.mp empty)
    have start : trimStart (text ++ blank) = trimStart text ++ blank := by
      rw [trimStart, List.dropWhile_append, filled, if_neg Bool.false_ne_true, trimStart]
    rw [trim, start, trimEnd_append_blank isBlank, trim]

/-- What trimming takes away is white space. -/
theorem exists_blanks_around (text : List Char) :
    ∃ before after, IsBlank before ∧ IsBlank after ∧ text = before ++ (trim text ++ after) := by
  refine ⟨text.takeWhile isBlank, (trimStart text).rtakeWhile isBlank, ?_, ?_, ?_⟩
  · exact fun c mem => List.mem_takeWhile_imp mem
  · exact fun c mem => List.mem_rtakeWhile_imp mem
  · rw [trim, trimEnd_eq_rdropWhile, List.rdropWhile_append_rtakeWhile, trimStart,
      List.takeWhile_append_dropWhile]

@[simp]
theorem trim_trim (text : List Char) : trim (trim text) = trim text := by
  obtain ⟨before, after, blankBefore, blankAfter, split⟩ := exists_blanks_around text
  have whole : trim text = trim (before ++ (trim text ++ after)) := congrArg trim split
  rw [trim_blank_append blankBefore, trim_append_blank blankAfter] at whole
  exact whole.symm

@[simp]
theorem trimmed_trimmed (text : String) : trimmed (trimmed text) = trimmed text := by
  rw [trimmed, trimmed, String.toList_ofList, trim_trim]

theorem trim_eq_nil_iff : trim text = [] ↔ IsBlank text := by
  constructor
  · intro empty
    obtain ⟨before, after, blankBefore, blankAfter, split⟩ := exists_blanks_around text
    rw [empty, List.nil_append] at split
    rw [split]
    intro c mem
    exact (List.mem_append.mp mem).elim (blankBefore c) (blankAfter c)
  · intro isBlank
    rw [trim, trimStart_eq_nil_iff.mpr isBlank]
    rfl

/-- Text without white space is all that is left of it. -/
theorem trim_of_clean (clean : ∀ c ∈ text, isBlank c = false) : trim text = text := by
  obtain ⟨before, after, blankBefore, blankAfter, split⟩ := exists_blanks_around text
  have noneAround : ∀ part, IsBlank part → (∀ c ∈ part, c ∈ text) → part = [] := by
    intro part blank within
    refine List.eq_nil_iff_forall_not_mem.mpr fun c mem => ?_
    exact Bool.false_ne_true ((clean c (within c mem)).symm.trans (blank c mem))
  obtain rfl := noneAround before blankBefore fun c mem => by rw [split]; simp [mem]
  obtain rfl := noneAround after blankAfter fun c mem => by rw [split]; simp [mem]
  simpa using split.symm

end SlotArray.Text
