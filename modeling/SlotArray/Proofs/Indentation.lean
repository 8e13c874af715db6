import Mathlib.Data.List.Forall2
import Mathlib.Data.List.DropRight
import SlotArray.Document
import SlotArray.Proofs.Rows

/-! Indented text. A line comes out with four spaces a level in front of it, or, if it is blank, without
the spaces and tabs it began with. No line is cut anew by that, so text that is indented twice is text
that was indented once, deeper. What a document holds of a definition is therefore the definition as it
stands alone, up to what its lines begin with. -/
namespace SlotArray.Text

/-- The characters that a blank line loses at its beginning. -/
def isMargin (c : Char) : Bool := c == ' ' || c == '\t'

/-- Text without the spaces and tabs that its lines begin with. -/
def unindent (text : List Char) : List Char :=
  (lines text).flatMap (List.dropWhile isMargin)

/-- What a line becomes at a depth. -/
structure Indented (depth : Nat) (line shown : List Char) : Prop where
  /-- A line with something in it is kept whole, behind its spaces. -/
  text : isBlankText line = false → shown = List.replicate (4 * depth) ' ' ++ line
  /-- A blank one loses spaces and tabs at its beginning, and begins with neither. -/
  blank : isBlankText line = true →
    (∃ margin, line = margin ++ shown ∧ ∀ c ∈ margin, isMargin c = true) ∧
      ∀ c ∈ shown.head?, isMargin c = false
  ending : shown.getLast? = some '\n' ↔ line.getLast? = some '\n'

/-! ## Rows and a rest -/

section Rows
variable {rows : List (List Char)} {last : List Char}

/-- Every text is rows with their line feeds, and what stands behind the last of these. -/
theorem exists_rows (text : List Char) :
    ∃ rows last, (∀ row ∈ rows, IsRow row) ∧ IsRow last ∧ text = unlines rows ++ last := by
  induction text with
  | nil => exact ⟨[], [], nofun, List.not_mem_nil, rfl⟩
  | cons c rest ih =>
    obtain ⟨rows, last, clean, cleanLast, rfl⟩ := ih
    have longer {row : List Char} (ordinary : c ≠ '\n') (cleanRow : IsRow row) : IsRow (c :: row) :=
      List.not_mem_cons_of_ne_of_not_mem (Ne.symm ordinary) cleanRow
    by_cases feed : c = '\n'
    · subst feed
      exact ⟨[] :: rows, last, List.forall_mem_cons.mpr ⟨List.not_mem_nil, clean⟩, cleanLast, rfl⟩
    · cases rows with
      | nil => exact ⟨[], c :: last, clean, longer feed cleanLast, rfl⟩
      | cons row rows =>
        obtain ⟨cleanRow, cleanRows⟩ := List.forall_mem_cons.mp clean
        exact ⟨(c :: row) :: rows, last, List.forall_mem_cons.mpr ⟨longer feed cleanRow, cleanRows⟩,
          cleanLast, rfl⟩

theorem lines_of_isRow (clean : IsRow last) (present : last ≠ []) : lines last = [last] := by
  induction last with
  | nil => exact absurd rfl present
  | cons c rest ih =>
    have ordinary : c ≠ '\n' := fun same => clean (same ▸ List.mem_cons_self)
    have step : lines (c :: rest) = consLine c (lines rest) := rfl
    by_cases nothing : rest = []
    · subst nothing
      exact if_neg ordinary
    · rw [step, ih (fun feed => clean (List.mem_cons_of_mem c feed)) nothing]
      exact if_neg ordinary

/-- A change of every line is a change of every row, when it leaves line feeds alone. -/
theorem flatMap_lines {change : List Char → List Char} (nothing : change [] = [])
    (feeds : ∀ row, change (row ++ ['\n']) = change row ++ ['\n'])
    (clean : ∀ row ∈ rows, IsRow row) (cleanLast : IsRow last) :
    (lines (unlines rows ++ last)).flatMap change = unlines (rows.map change) ++ change last := by
  have rest : (lines last).flatMap change = change last := by
    by_cases none : last = []
    · subst none
      exact nothing.symm
    · rw [lines_of_isRow cleanLast none, List.flatMap_singleton]
  rw [lines_unlines_append clean, List.flatMap_append, rest, unlines, List.flatMap_map, List.flatMap_map]
  simp only [feeds]

theorem indent_rows (depth : Nat) (clean : ∀ row ∈ rows, IsRow row) (cleanLast : IsRow last) :
    indent depth (unlines rows ++ last) =
      unlines (rows.map (indentRow depth)) ++ indentRow depth last :=
  flatMap_lines rfl (indentLine_row depth) clean cleanLast

theorem unindent_rows (clean : ∀ row ∈ rows, IsRow row) (cleanLast : IsRow last) :
    unindent (unlines rows ++ last) =
      unlines (rows.map (List.dropWhile isMargin)) ++ last.dropWhile isMargin := by
  refine flatMap_lines rfl (fun row => ?_) clean cleanLast
  rw [List.dropWhile_append]
  split
  · rename_i dropped
    rw [List.isEmpty_iff.mp dropped]
    rfl
  · rfl

end Rows

/-! ## One row -/

theorem indentRow_indentRow (a b : Nat) (row : List Char) :
    indentRow a (indentRow b row) = indentRow (a + b) row := by
  by_cases blank : isBlankText row = true
  · have stays : isBlankText (row.dropWhile isMargin) = true :=
      List.all_eq_true.mpr fun c mem =>
        List.all_eq_true.mp blank c ((List.dropWhile_sublist _).subset mem)
    have once (depth : Nat) : indentRow depth row = row.dropWhile isMargin := if_pos blank
    have again : indentRow a (row.dropWhile isMargin) = (row.dropWhile isMargin).dropWhile isMargin :=
      if_pos stays
    rw [once, once, again, List.dropWhile_idempotent]
  · have stays : ¬ isBlankText (List.replicate (4 * b) ' ' ++ row) = true := by
      rw [isBlankText, List.all_append, Bool.and_eq_true]
      exact fun both => blank both.2
    have once (depth : Nat) : indentRow depth row = List.replicate (4 * depth) ' ' ++ row := if_neg blank
    have again : indentRow a (List.replicate (4 * b) ' ' ++ row) =
        List.replicate (4 * a) ' ' ++ (List.replicate (4 * b) ' ' ++ row) := if_neg stays
    rw [once, once, again, ← List.append_assoc, List.replicate_append_replicate, Nat.mul_add]

/-- Whatever the depth, a row differs in nothing but the spaces and tabs it begins with. -/
theorem dropWhile_indentRow (depth : Nat) (row : List Char) :
    (indentRow depth row).dropWhile isMargin = row.dropWhile isMargin := by
  unfold indentRow
  split
  · exact List.dropWhile_idempotent _ _
  · have spaces : ∀ c ∈ List.replicate (4 * depth) ' ', isMargin c = true := by
      intro c mem
      rw [List.eq_of_mem_replicate mem]
      rfl
    rw [List.dropWhile_append_of_pos spaces]

theorem head?_dropWhile_isMargin (line : List Char) :
    ∀ c ∈ (line.dropWhile isMargin).head?, isMargin c = false := by
  intro c first
  have stops := List.head?_dropWhile_not isMargin line
  rwa [Option.mem_def.mp first] at stops

theorem indented_indentLine (depth : Nat) (line : List Char) :
    Indented depth line (indentLine depth line) := by
  by_cases blank : isBlankText line = true
  · have shown : indentLine depth line = line.dropWhile isMargin := if_pos blank
    have parts : line = line.takeWhile isMargin ++ line.dropWhile isMargin :=
      List.takeWhile_append_dropWhile.symm
    have margin : ∀ c ∈ line.takeWhile isMargin, isMargin c = true := fun c => List.mem_takeWhile_imp
    rw [shown]
    refine ⟨fun text => absurd blank (Bool.eq_false_iff.mp text),
      fun _ => ⟨⟨_, parts, margin⟩, head?_dropWhile_isMargin line⟩, ?_⟩
    by_cases vanished : line.dropWhile isMargin = []
    · -- All of the line is spaces and tabs, so there was no line feed to lose.
      rw [vanished, List.append_nil] at parts
      rw [vanished, List.getLast?_nil]
      refine ⟨nofun, fun feed => ?_⟩
      have last : '\n' ∈ line.takeWhile isMargin := parts ▸ List.mem_of_getLast? feed
      exact absurd (margin _ last) (by decide)
    · conv_rhs => rw [parts, List.getLast?_append_of_ne_nil _ vanished]
  · have shown : indentLine depth line = List.replicate (4 * depth) ' ' ++ line := if_neg blank
    have present : line ≠ [] := by
      rintro rfl
      exact blank rfl
    refine ⟨fun _ => shown, fun text => absurd text blank, ?_⟩
    rw [shown, List.getLast?_append_of_ne_nil _ present]

/-! ## Whole texts -/

theorem indent_indent (a b : Nat) (text : List Char) :
    indent a (indent b text) = indent (a + b) text := by
  obtain ⟨rows, last, clean, cleanLast, rfl⟩ := exists_rows text
  have cleanShown : ∀ row ∈ rows.map (indentRow b), IsRow row :=
    List.forall_mem_map.mpr fun row mem => isRow_indentRow b (clean row mem)
  rw [indent_rows b clean cleanLast, indent_rows a cleanShown (isRow_indentRow b cleanLast),
    indent_rows (a + b) clean cleanLast, List.map_map, indentRow_indentRow]
  congr 3
  exact funext (indentRow_indentRow a b)

/-- The lines of an indented text are the lines of the text, each one indented; the last one may be gone,
if it was nothing but spaces and tabs. -/
theorem lines_indent (depth : Nat) (text : List Char) :
    lines (indent depth text) =
      ((lines text).map (indentLine depth)).filter fun line => !line.isEmpty := by
  obtain ⟨rows, last, clean, cleanLast, rfl⟩ := exists_rows text
  have cleanShown : ∀ row ∈ rows.map (indentRow depth), IsRow row :=
    List.forall_mem_map.mpr fun row mem => isRow_indentRow depth (clean row mem)
  have front : (rows.map fun row => indentLine depth (row ++ ['\n'])).filter (fun line => !line.isEmpty) =
      (rows.map (indentRow depth)).map (· ++ ['\n']) := by
    rw [List.map_map]
    simp only [indentLine_row]
    refine List.filter_eq_self.mpr (List.forall_mem_map.mpr fun row _ => ?_)
    simp
  have rest : lines (indentRow depth last) =
      ((lines last).map (indentLine depth)).filter fun line => !line.isEmpty := by
    by_cases nothing : last = []
    · subst nothing
      rfl
    · have same : indentLine depth last = indentRow depth last := rfl
      rw [lines_of_isRow cleanLast nothing, List.map_singleton, same]
      by_cases vanished : indentRow depth last = []
      · rw [vanished]
        rfl
      · rw [lines_of_isRow (isRow_indentRow depth cleanLast) vanished, List.filter_cons_of_pos]
        · rfl
        · simpa using vanished
  rw [indent_rows depth clean cleanLast, lines_unlines_append cleanShown, lines_unlines_append clean,
    List.map_append, List.filter_append, rest, ← front, List.map_map]
  rfl

theorem unindent_indent (depth : Nat) (text : List Char) :
    unindent (indent depth text) = unindent text := by
  obtain ⟨rows, last, clean, cleanLast, rfl⟩ := exists_rows text
  have cleanShown : ∀ row ∈ rows.map (indentRow depth), IsRow row :=
    List.forall_mem_map.mpr fun row mem => isRow_indentRow depth (clean row mem)
  rw [indent_rows depth clean cleanLast, unindent_rows cleanShown (isRow_indentRow depth cleanLast),
    unindent_rows clean cleanLast, List.map_map, dropWhile_indentRow]
  congr 3
  exact funext (dropWhile_indentRow depth)

/-- No blank line of a text begins with a space or a tab. -/
def HasBareBlanks (text : List Char) : Prop :=
  ∀ line ∈ lines text, isBlankText line = true → line.head?.any isMargin = false

instance (text : List Char) : Decidable (HasBareBlanks text) :=
  inferInstanceAs (Decidable (∀ line ∈ lines text, _ → line.head?.any isMargin = false))

theorem indent_zero {text : List Char} (bare : HasBareBlanks text) : indent 0 text = text := by
  have each : ∀ line ∈ lines text, indentLine 0 line = line := by
    intro line mem
    by_cases blank : isBlankText line = true
    · have begins := bare line mem blank
      have shown : indentLine 0 line = line.dropWhile isMargin := if_pos blank
      rw [shown]
      cases line with
      | nil => rfl
      | cons c rest => exact List.dropWhile_cons_of_neg (Bool.eq_false_iff.mp begins)
    · exact if_neg blank
  rw [indent, List.flatMap_congr each, List.flatMap_id', flatten_lines]

end SlotArray.Text

namespace SlotArray
open Text (lines indent unindent Indented HasBareBlanks)

/-- A definition that was filed stands in the text of its document at the depth of its module, behind a
blank line. -/
theorem infix_sectionsText {sections : List Section} {part : Section} {text : String}
    (mem : part ∈ sections) (filed : text ∈ part.definitions) (opened : List String) :
    '\n' :: indent part.home.segments.length text.toList <:+:
      Document.sectionsText opened sections := by
  induction sections generalizing opened with
  | nil => exact nomatch mem
  | cons first rest ih =>
    rw [Document.sectionsText]
    rcases List.mem_cons.mp mem with rfl | later
    · have begins : '\n' :: indent part.home.segments.length text.toList <+:
          Document.definitionText part.home.segments.length text := List.prefix_append _ _
      have listed : Document.definitionText part.home.segments.length text <:+:
          part.definitions.flatMap (Document.definitionText part.home.segments.length) :=
        List.infix_of_mem_flatten (List.mem_map_of_mem filed)
      exact (begins.isInfix.trans listed).trans (List.infix_append _ _ _)
    · exact (ih later _).trans (List.suffix_append _ _).isInfix

/-- Indentation composes, line by line: a line with something in it stands behind four spaces a level, a
blank one loses the spaces and tabs that it begins with, and lines end as they did. Text whose blank
lines begin with neither is text at depth 0. A document holds every definition at the depth of its module,
and there the definition differs from itself in nothing but what its lines begin with. -/
theorem indentation_composes (text : String) :
    (∀ a b, indent a (indent b text.toList) = indent (a + b) text.toList) ∧
    (∀ depth, ∃ shown, List.Forall₂ (Indented depth) (lines text.toList) shown ∧
      lines (indent depth text.toList) = shown.filter fun line => !line.isEmpty) ∧
    (HasBareBlanks text.toList → indent 0 text.toList = text.toList) ∧
    (∀ depth, unindent (indent depth text.toList) = unindent text.toList) ∧
    ∀ document : Document, ∀ part ∈ document.sections, text ∈ part.definitions →
      '\n' :: indent part.home.segments.length text.toList <:+: document.render.toList := by
  refine ⟨fun a b => Text.indent_indent a b _, fun depth => ?_, Text.indent_zero,
    fun depth => Text.unindent_indent depth _, ?_⟩
  · refine ⟨_, ?_, Text.lines_indent depth _⟩
    rw [List.forall₂_map_right_iff, List.forall₂_same]
    exact fun line _ => Text.indented_indentLine depth line
  · intro document part mem filed
    rw [Document.render, String.toList_append, String.toList_ofList]
    exact (infix_sectionsText mem filed []).trans (List.suffix_append _ _).isInfix

/-- A definition with an empty line and one of a wide space, two modules deep. -/
theorem indentation_composes_nested :
    let text := "struct A;\n\n\u2003\nstruct B;"
    let document := Document.empty.append ⟨["a", "b"]⟩ text
    HasBareBlanks text.toList ∧ indent 0 text.toList = text.toList ∧
      document.sections = [⟨⟨["a", "b"]⟩, [text]⟩] ∧
      '\n' :: indent 2 text.toList <:+: document.render.toList := by
  intro text document
  have bare : HasBareBlanks text.toList := by decide
  obtain ⟨_, _, same, _, held⟩ := indentation_composes text
  exact ⟨bare, same bare, rfl, held document ⟨⟨["a", "b"]⟩, [text]⟩ List.mem_cons_self List.mem_cons_self⟩

end SlotArray
