import Mathlib.Algebra.Order.Ring.Nat
import Mathlib.Tactic.GCongr
import SlotArray.Definition
import SlotArray.Proofs.Rows

/-! What a container's text tells of it. Its first line gives the size, and its length and the line
that declares the type give the name, so two containers have one text only if they agree in both. -/
namespace SlotArray
open SlotArray.Text

namespace Declaration

theorem toList_render (d : Declaration) : d.render.toList = unlines (d.lines.map String.toList) :=
  toList_textOf d.lines

/-- How many characters lines have, with their line feeds. -/
def width (rows : List String) : Nat := (rows.map fun row => row.length + 1).sum

theorem width_append (rows more : List String) : width (rows ++ more) = width rows + width more := by
  simp [width]

theorem width_cons (row : String) (rows : List String) :
    width (row :: rows) = row.length + 1 + width rows := by
  simp [width]

theorem length_render (d : Declaration) : d.render.length = width d.lines := by
  rw [← String.length_toList, toList_render]
  generalize d.lines = rows
  induction rows with
  | nil => rfl
  | cons row rows ih =>
    rw [width_cons, ← ih, ← String.length_toList]
    simp [unlines]
    omega

section Width
variable (d : Declaration) {name other : String}

private theorem width_typeLines (shorter : name.length < other.length) :
    width { d with name := name }.typeLines < width { d with name := other }.typeLines := by
  simp only [typeLines, typeText, width_append, width_cons, String.length_append]
  omega

private theorem width_inherentLines (shorter : name.length ≤ other.length) :
    width { d with name := name }.inherentLines ≤ width { d with name := other }.inherentLines := by
  simp only [inherentLines, typeText, width_append, width_cons, String.length_append]
  gcongr

private theorem width_operatorLines (shorter : name.length ≤ other.length) :
    width { d with name := name }.operatorLines ≤ width { d with name := other }.operatorLines := by
  simp only [operatorLines, indexBody, typeText, width_append, width_cons, String.length_append]
  gcongr

private theorem width_traitLines (shorter : name.length ≤ other.length) :
    width { d with name := name }.traitLines ≤ width { d with name := other }.traitLines := by
  simp only [traitLines, typeText, width_cons, String.length_append]
  gcongr

/-- The text grows with the name. -/
theorem length_render_lt (shorter : name.length < other.length) :
    { d with name := name }.render.length < { d with name := other }.render.length := by
  have head : { d with name := name }.headLines = { d with name := other }.headLines := rfl
  have type := width_typeLines d shorter
  have inherent := width_inherentLines d shorter.le
  have operators := width_operatorLines d shorter.le
  have traits := width_traitLines d shorter.le
  rw [length_render, length_render]
  simp only [lines, width_append, head]
  omega

end Width

/-- The text of a container up to its name does not depend on the name. -/
private theorem exists_render_eq_name (d : Declaration) : ∃ front, ∀ name,
    ∃ rest, { d with name := name }.render.toList = front ++ (name.toList ++ rest) := by
  refine ⟨unlines (d.headLines.map String.toList) ++
    ((if d.visibility.isEmpty then "" else d.visibility ++ " ") ++ "struct ").toList, fun name => ?_⟩
  have split : { d with name := name }.lines = d.headLines ++
      (((if d.visibility.isEmpty then "" else d.visibility ++ " ") ++ "struct " ++
        (name ++ "<" ++ d.element ++ ">") ++ " \x7b") ::
      (Definition.fieldLines d.size d.element ++ ["\x7d", ""] ++ { d with name := name }.inherentLines ++
        { d with name := name }.operatorLines ++ { d with name := name }.traitLines)) := by
    simp [lines, typeLines, typeText, headLines]
  rw [toList_render, split, List.map_append, unlines_append, List.map_cons]
  simp only [String.toList_append, List.append_assoc, unlines, List.flatMap_cons]
  exact ⟨_, rfl⟩

/-- The text of a container up to its size does not depend on the size, nor on the name. -/
private theorem exists_render_eq_size (d : Declaration) : ∃ front, ∀ name size, ∃ rest,
    rest.takeWhile Char.isDigit = [] ∧
      { d with name := name, size := size }.render.toList = front ++ (Nat.toDigits 10 size ++ rest) := by
  refine ⟨unlines ((d.attributes ++ if d.attributes.isEmpty then [] else ["///"]).map String.toList) ++
    "/// Fixed-capacity container with ".toList, fun name size => ?_⟩
  rw [toList_render]
  simp only [lines, headLines, List.map_append, List.map_cons, String.toList_append, List.append_assoc,
    unlines, List.flatMap_append, List.flatMap_cons, Nat.toString_eq_repr, Nat.toList_repr]
  exact ⟨_, rfl, rfl⟩

/-- Containers that differ in nothing but name and size have different texts. -/
theorem render_inj (d : Declaration) {name other : String} {size otherSize : Nat}
    (same : { d with name := name, size := size }.render =
      { d with name := other, size := otherSize }.render) : name = other ∧ size = otherSize := by
  have sizes : size = otherSize := by
    obtain ⟨front, split⟩ := exists_render_eq_size d
    obtain ⟨rest, ends, first⟩ := split name size
    obtain ⟨more, endsToo, second⟩ := split other otherSize
    rw [same, second] at first
    exact (toDigits_append_inj endsToo ends (List.append_cancel_left first)).symm
  subst sizes
  have lengths : name.length = other.length := by
    rcases Nat.lt_trichotomy name.length other.length with shorter | equal | longer
    · exact absurd (congrArg String.length same) (length_render_lt { d with size := size } shorter).ne
    · exact equal
    · exact absurd (congrArg String.length same) (length_render_lt { d with size := size } longer).ne'
  obtain ⟨front, split⟩ := exists_render_eq_name { d with size := size }
  obtain ⟨rest, first⟩ := split name
  obtain ⟨more, second⟩ := split other
  have texts : front ++ (name.toList ++ rest) = front ++ (other.toList ++ more) := by
    rw [← first, ← second]
    exact congrArg String.toList same
  rw [← String.length_toList, ← String.length_toList] at lengths
  exact ⟨String.toList_inj.mp (List.append_inj (List.append_cancel_left texts) lengths).1, rfl⟩

end Declaration

/-- A definition tells which request it is for, but for the module. -/
theorem Request.render_inj {request other : Request} {extraDerives : List String}
    (same : request.render extraDerives = other.render extraDerives) :
    request.name = other.name ∧ request.size.val = other.size.val :=
  Declaration.render_inj (Declaration.ofRequest request extraDerives) same

end SlotArray
