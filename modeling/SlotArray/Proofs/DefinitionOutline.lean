import SlotArray.Proofs.DefinitionText
import SlotArray.Proofs.Outline

/-! The text of a container as the reader sees it: one type, with its length and as many fields as
it has slots, in blocks that match. -/
namespace SlotArray
open SlotArray.Text SlotArray.Definition

namespace Outline

/-! ## Rows of slots -/

theorem isClean_slotField (i : Nat) : IsClean (slotField i) :=
  .append .literal (isClean_toString i)

theorem readsAs_field (i : Nat) :
    ReadsAs ("    " ++ slotField i ++ ": " ++ "T" ++ ",") .field := by
  have split : "    " ++ slotField i ++ ": " ++ "T" ++ "," =
      "    _value" ++ toString i ++ ": T," := by
    simp only [slotField, String.append_assoc]
    rfl
  have row : ReadsAs ("    _value" ++ toString i ++ ": T,") _ :=
    readsAs_in_frame (by simp [frames] : fieldFrame ∈ frames) (isClean_toString i)
  rw [Nat.toString_eq_repr, Nat.toList_repr, mark_field] at row
  rw [split]
  exact row

theorem reads_fieldLines (size : Nat) :
    Reads (fieldLines size "T") (List.replicate size .field) :=
  reads_range readsAs_field size

theorem reads_fromFnLines (size : Nat) :
    Reads (fromFnLines size) (List.replicate size .plain) := by
  refine reads_range (fun i => readsAs_ending ?_) size
  exact .append (.append (.append .literal (isClean_slotField i)) .literal) (isClean_toString i)

/-- An arm for a slot's index that gets at the slot. -/
theorem readsAs_arm (i : Nat) {front between back : List Char}
    (begins : IsClean (String.ofList front) := by exact .literal)
    (goesOn : IsClean (String.ofList between) := by exact .literal)
    (ends : IsClean (String.ofList back) := by exact .literal)
    (apart : trimStart back = back ∧ back ≠ [] ∧
      ∀ frame ∈ frames, frame.Differs [] back := by decide) :
    ReadsAs (String.ofList front ++ toString i ++ String.ofList between ++ slotField i ++
      String.ofList back) ⟨false, back.getLast? = some '\x7b', .nothing⟩ := by
  have arrow := (begins.append (isClean_toString i)).append goesOn
  exact readsAs_ending (arrow.append (isClean_slotField i)) ends apart

theorem reads_getArms (size : Nat) :
    Reads (getArms size) (List.replicate size .plain ++ [.plain]) :=
  Reads.append (reads_range (fun i => readsAs_arm i) size) (.cons .literal reads_nil)

theorem reads_getMutArms (size : Nat) :
    Reads (getMutArms size) (List.replicate size .plain ++ [.plain]) :=
  Reads.append (reads_range (fun i => readsAs_arm i) size) (.cons .literal reads_nil)

theorem reads_setArms (size : Nat) :
    Reads (setArms size) (List.replicate size .plain ++ [.plain]) := by
  refine Reads.append (reads_range (fun i => readsAs_arm i) size) (.cons ?_ reads_nil)
  exact readsAs_framed (isClean_toString size)

theorem reads_debugLines (size : Nat) :
    Reads (debugLines size) (List.replicate size .plain) :=
  reads_range (fun i => readsAs_framed (isClean_slotField i)) size

theorem isClean_slotList (size : Nat) {after : String} (clean : IsClean after) :
    IsClean (slotList size after) := by
  have joined : ∀ texts : List String, (∀ text ∈ texts, IsClean text) →
      IsClean (", ".intercalate texts) := by
    intro texts allClean
    induction texts with
    | nil => exact .literal
    | cons first rest ih =>
      have cleanFirst := allClean first List.mem_cons_self
      have cleanRest : ∀ text ∈ rest, IsClean text :=
        fun text mem => allClean text (List.mem_cons_of_mem _ mem)
      cases rest with
      | nil => rwa [String.intercalate_singleton]
      | cons second others =>
        rw [String.intercalate_cons_cons]
        exact (cleanFirst.append .literal).append (ih cleanRest)
  refine joined _ fun text mem => ?_
  obtain ⟨i, _, rfl⟩ := List.mem_map.mp mem
  exact .append (.append .literal (isClean_slotField i)) clean

end Outline

namespace Declaration
open Outline

/-- A public container of `T`s, without attributes or further derives. -/
private def plain (name : String) (size : Nat) : Declaration := ⟨name, size, "pub", "T", [], []⟩

variable {name : String} {size : Nat}

private theorem plain_name : (plain name size).name = name := rfl
private theorem plain_size : (plain name size).size = size := rfl
private theorem plain_visibility : (plain name size).visibility = "pub" := rfl
private theorem plain_element : (plain name size).element = "T" := rfl
private theorem plain_attributes : (plain name size).attributes = [] := rfl
private theorem plain_extraDerives : (plain name size).extraDerives = [] := rfl

theorem readsAs_struct (clean : IsClean name) :
    ReadsAs ("pub" ++ " " ++ "struct " ++ (name ++ "<" ++ "T" ++ ">") ++ " \x7b")
      ⟨false, true, .type name⟩ := by
  have split : "pub" ++ " " ++ "struct " ++ (name ++ "<" ++ "T" ++ ">") ++ " \x7b" =
      "pub struct " ++ name ++ "<T> \x7b" := by
    have front : "pub struct " = "pub" ++ (" " ++ "struct ") := by decide
    have back : "<T> \x7b" = "<" ++ ("T" ++ (">" ++ " \x7b")) := by decide
    rw [front, back]
    simp only [String.append_assoc]
  have row : ReadsAs ("pub struct " ++ name ++ "<T> \x7b") _ :=
    readsAs_in_frame (by simp [frames] : typeFrame ∈ frames) clean
  rw [mark_type] at row
  rw [split]
  exact row

theorem readsAs_length (size : Nat) :
    ReadsAs ("    pub const LENGTH: usize = " ++ toString size ++ ";") ⟨false, false, .length size⟩ := by
  have row : ReadsAs ("    pub const LENGTH: usize = " ++ toString size ++ ";") _ :=
    readsAs_in_frame (by simp [frames] : lengthFrame ∈ frames) (isClean_toString size)
  rw [Nat.toString_eq_repr, Nat.toList_repr, mark_length] at row
  exact row

theorem reads_typeLines (clean : IsClean name) :
    Reads (plain name size).typeLines
      ([⟨false, true, .type name⟩] ++ List.replicate size .field ++
        [.closing, .plain]) := by
  have visible : "pub".isEmpty = false := by decide
  simp only [typeLines, typeText, plain_name, plain_size, plain_visibility, plain_element, visible,
    Bool.false_eq_true, ↓reduceIte]
  refine Reads.append (Reads.append (.cons (readsAs_struct clean) reads_nil) ?_) ?_
  · exact reads_fieldLines size
  · exact .cons .literal (.cons .literal reads_nil)

theorem reads_headLines : Reads (plain name size).headLines (List.replicate 5 .plain) := by
  simp only [headLines, plain_size, plain_attributes, plain_element, plain_extraDerives]
  have plural : IsClean (if size = 1 then "" else "s") := by
    split
    · exact .literal
    · exact .literal
  have derives : ", ".intercalate (defaultDerives ++ []) =
      "Clone, Copy, Default, PartialEq, Eq, Hash" := by decide
  have slots : IsClean ("/// Fixed-capacity container with " ++ toString size ++ " inline slot" ++
      (if size = 1 then "" else "s")) :=
    .append (.append (.append .literal (isClean_toString size)) .literal) plural
  rw [derives]
  simp only [List.isEmpty_nil, ↓reduceIte, List.nil_append, reads_cons_iff, List.replicate_succ,
    List.replicate_zero]
  exact ⟨readsAs_ending (.append (.append slots .literal) .literal), .literal,
    readsAs_framed (isClean_toString size), .literal, readsAs_framed .literal, reads_nil⟩

/-- The first line of an implementation for the type. -/
theorem readsAs_impl (clean : IsClean name) {bound : List Char}
    (begins : IsClean (String.ofList bound) := by exact .literal) :
    ReadsAs ("impl<" ++ "T" ++ String.ofList bound ++ (name ++ "<" ++ "T" ++ ">") ++ " \x7b")
      .opening := by
  have type : IsClean (name ++ "<" ++ "T" ++ ">") :=
    .append (.append (.append clean .literal) .literal) .literal
  have row : ReadsAs ("impl<" ++ ("T" ++ String.ofList bound ++ (name ++ "<" ++ "T" ++ ">")) ++
      " \x7b") .opening :=
    readsAs_framed (.append (.append .literal begins) type)
  simpa only [String.append_assoc] using row

theorem readsAs_vector (size : Nat) {after : String} (clean : IsClean after) :
    ReadsAs ("        ::std::vec![" ++ slotList size after ++ "]") .plain :=
  readsAs_framed (isClean_slotList size clean)

/-- The inherent implementation: its length stands in it, and then its operations. -/
private def inherentOutline (size : Nat) : List Line :=
  let opened : List Line := [.closing, .closing, .plain, .plain, .opening, .opening]
  let documented : List Line := [.closing, .closing, .plain, .plain, .plain, .opening, .opening]
  let arms : List Line := List.replicate size .plain ++ [.plain]
  let start : List Line :=
    [.opening, .plain, ⟨false, false, .length size⟩, .plain, .plain, .opening, .opening]
  let vectors : List Line :=
    [.closing, .closing, .plain, .plain, .opening, .plain, .closing, .plain, .plain, .plain, .plain,
      .plain, .opening, .plain, .closing, .closing, .plain]
  start ++ List.replicate size .plain ++ opened ++ arms ++ opened ++ arms ++ documented ++ arms ++
    vectors

theorem reads_inherentLines (clean : IsClean name) :
    Reads (plain name size).inherentLines (inherentOutline size) := by
  simp only [inherentLines, typeText, plain_name, plain_element, plain_size]
  refine (((((((Reads.append ?start (reads_fromFnLines size)).append ?get).append
    (reads_getArms size)).append ?getMut).append (reads_getMutArms size)).append
    ?set).append (reads_setArms size)).append ?vectors
  case start =>
    simp only [reads_cons_iff]
    exact ⟨readsAs_impl clean, .literal, readsAs_length size, .literal, .literal,
      readsAs_framed .literal, .literal, reads_nil⟩
  case vectors =>
    have vector := @readsAs_vector size "" .literal
    have clones := @readsAs_vector size ".clone()" .literal
    simp only [reads_cons_iff]
    exact ⟨.literal, .literal, .literal, .literal, readsAs_framed .literal, vector, .literal, .literal,
      .literal, readsAs_framed .literal, .literal, readsAs_ending (.append .literal .literal), .literal,
      clones, .literal, .literal, .literal, reads_nil⟩
  case get | getMut =>
    simp only [reads_cons_iff]
    exact ⟨.literal, .literal, .literal, .literal, readsAs_framed .literal, .literal, reads_nil⟩
  case set =>
    have row : ReadsAs ("    pub fn set(&mut self, index: usize, value: " ++ ("T" ++
        ") -> ::core::result::Result<" ++ "T") ++ ", ::struct_array::IndexOutOfRange> \x7b") .opening :=
      readsAs_framed (.append (.append .literal .literal) .literal)
    simp only [reads_cons_iff]
    exact ⟨.literal, .literal, .literal, .literal, .literal, row, .literal, reads_nil⟩

theorem reads_indexBody (clean : IsClean name) {access : String} (cleanAccess : IsClean access) :
    Reads ((plain name size).indexBody access)
      [.opening, .plain, .plain, .closing, .closing, .closing, .plain] := by
  simp only [indexBody, plain_name, plain_size]
  have row : ReadsAs ("        match " ++ (name ++ "::" ++ access) ++ "(self, index) \x7b") .opening :=
    readsAs_framed (.append (.append clean .literal) cleanAccess)
  rw [← String.append_assoc] at row
  simp only [reads_cons_iff]
  exact ⟨row, .literal, readsAs_framed (isClean_toString size), .literal, .literal, .literal, .literal,
    reads_nil⟩

/-- The operators: two that index, one that debugs. -/
private def operatorOutline (size : Nat) : List Line :=
  let index : List Line := [.opening, .plain, .plain, .closing, .closing, .closing, .plain]
  let start : List Line := [.opening, .plain, .plain, .plain, .opening]
  let indexMut : List Line := [.opening, .plain, .opening]
  let debug : List Line := [.opening, .opening, .plain]
  let finish : List Line := [.plain, .closing, .closing, .plain]
  start ++ index ++ indexMut ++ index ++ debug ++ List.replicate size .plain ++ finish

theorem reads_operatorLines (clean : IsClean name) :
    Reads (plain name size).operatorLines (operatorOutline size) := by
  simp only [operatorLines, typeText, plain_name, plain_element, plain_size]
  refine (((((Reads.append ?start (reads_indexBody clean .literal)).append ?indexMut).append
    (reads_indexBody clean .literal)).append ?debug).append (reads_debugLines size)).append ?finish
  case start =>
    simp only [reads_cons_iff]
    exact ⟨readsAs_impl clean, readsAs_framed .literal, .literal, .literal, readsAs_framed .literal,
      reads_nil⟩
  case indexMut =>
    simp only [reads_cons_iff]
    exact ⟨readsAs_impl clean, .literal, readsAs_framed .literal, reads_nil⟩
  case debug =>
    simp only [reads_cons_iff]
    exact ⟨readsAs_impl clean, .literal, .literal, reads_nil⟩
  case finish =>
    simp only [reads_cons_iff]
    exact ⟨.literal, .literal, .literal, .literal, reads_nil⟩

/-- A call of an inherent operation is told from everything else by how it ends. -/
theorem readsAs_call (clean : IsClean name) {call : List Char}
    (ends : IsClean (String.ofList call) := by exact .literal)
    (apart : trimStart call = call ∧ call ≠ [] ∧
      ∀ frame ∈ frames, frame.Differs [] call := by decide) :
    ReadsAs ("        " ++ name ++ String.ofList call)
      ⟨false, call.getLast? = some '\x7b', .nothing⟩ :=
  readsAs_ending (.append .literal clean) ends apart

/-- The operations that all containers share. -/
private def traitOutline : List Line :=
  [.opening, .plain, .plain, .plain, .plain, .plain, .opening, .plain, .closing, .plain, .plain,
    .opening, .plain, .closing, .plain, .opening, .plain, .closing, .closing]

theorem reads_traitLines (clean : IsClean name) :
    Reads (plain name size).traitLines traitOutline := by
  simp only [traitLines, typeText, plain_name, plain_element, plain_size]
  simp only [traitOutline, reads_cons_iff]
  exact ⟨readsAs_impl clean, readsAs_framed .literal, .literal, readsAs_framed (isClean_toString size),
    .literal, .literal, readsAs_framed .literal, readsAs_call clean, .literal, .literal, .literal,
    readsAs_framed .literal, readsAs_call clean, .literal, .literal, readsAs_framed .literal,
    readsAs_call clean, .literal, .literal, reads_nil⟩

/-! ## Running over a definition -/

section Runs
variable {blocks : List Block} {home : List String} {entry : TypeEntry} {earlier : List TypeEntry}

private theorem run_typeOutline :
    Reader.run ⟨blocks, earlier⟩
        ([⟨false, true, .type name⟩] ++ List.replicate size .field ++ [.closing, .plain]) =
      some ⟨blocks, ⟨openModules blocks, name, none, size⟩ :: earlier⟩ := by
  have opened : Reader.run ⟨blocks, earlier⟩ [⟨false, true, .type name⟩] =
      some ⟨.type :: blocks, ⟨openModules blocks, name, none, 0⟩ :: earlier⟩ := rfl
  have counted := run_fields blocks ⟨openModules blocks, name, none, 0⟩ earlier size
  rw [Nat.zero_add] at counted
  exact run_trans (run_trans opened counted) rfl

private theorem run_inherentOutline (fields : Nat) :
    Reader.run ⟨blocks, ⟨home, name, none, fields⟩ :: earlier⟩ (inherentOutline size) =
      some ⟨blocks, ⟨home, name, some size, fields⟩ :: earlier⟩ := by
  have arms : ∀ reader : Reader, reader.run (List.replicate size .plain ++ [.plain]) = some reader :=
    fun reader => run_trans (run_plain reader size) rfl
  refine run_trans (run_trans (run_trans (run_trans (run_trans (run_trans (run_trans (run_trans
    rfl (run_plain _ size)) rfl) (arms _)) rfl) (arms _)) rfl) (arms _)) rfl

private theorem run_operatorOutline (reader : Reader) :
    reader.run (operatorOutline size) = some reader := by
  refine run_trans (run_trans (run_trans (run_trans (run_trans (run_trans rfl rfl) rfl) rfl) rfl)
    (run_plain _ size)) rfl

private theorem run_traitOutline (reader : Reader) : reader.run traitOutline = some reader := rfl

end Runs

theorem reads_lines (clean : IsClean name) :
    Reads (plain name size).lines (List.replicate 5 .plain ++
      ([⟨false, true, .type name⟩] ++ List.replicate size .field ++ [.closing, .plain]) ++
      inherentOutline size ++ operatorOutline size ++ traitOutline) :=
  ((((reads_headLines).append (reads_typeLines clean)).append (reads_inherentLines clean)).append
    (reads_operatorLines clean)).append (reads_traitLines clean)

/-- A definition leaves the blocks as they were, and its type behind: the modules around it, its
name, and its size as its length and as the number of its fields. -/
theorem run_lines (clean : IsClean name) (reader : Reader) :
    reader.run ((plain name size).lines.map fun row => line row.toList) =
      some ⟨reader.blocks, ⟨openModules reader.blocks, name, some size, size⟩ :: reader.entries⟩ := by
  rw [(reads_lines clean).2]
  exact run_trans (run_trans (run_trans (run_trans (run_plain reader 5) run_typeOutline)
    (run_inherentOutline size)) (run_operatorOutline _)) (run_traitOutline _)

end Declaration

/-- What the reader takes down of a request's type. -/
def Request.entry (request : Request) : Outline.TypeEntry :=
  ⟨request.home.segments, request.name, some request.size.val, request.size.val⟩

/-- A request's definition is read as its type, in the modules that are open. -/
theorem Request.readsTo_render (request : Request) (clean : Outline.IsClean request.name)
    (reader : Outline.Reader) (there : Outline.openModules reader.blocks = request.home.segments) :
    Outline.ReadsTo (request.render []).toList reader
      ⟨reader.blocks, request.entry :: reader.entries⟩ := by
  have same : Declaration.ofRequest request [] = Declaration.plain request.name request.size.val := rfl
  refine ⟨(Declaration.plain request.name request.size.val).lines.map String.toList, ?_, ?_, ?_⟩
  · rw [Request.render, same, Declaration.toList_render]
  · intro row mem
    obtain ⟨text, known, rfl⟩ := List.mem_map.mp mem
    exact (Declaration.reads_lines clean).1 text known
  · have read := @Declaration.run_lines request.name request.size.val clean reader
    rw [there] at read
    rw [List.map_map]
    exact read

end SlotArray
