import SlotArray.Proofs.DefinitionText
import SlotArray.Proofs.Tokens.Rows

/-! The text of a container as tokens. Whatever its size is, its brackets match, as long as its name
can be pasted; any other name takes an opening brace with it wherever one stands behind it. -/
namespace SlotArray
open SlotArray.Source SlotArray.Text SlotArray.Definition

namespace Definition

theorem takes_fieldLines {sound : Prop} (size : Nat) {element : String} (isWord : IsWordText element.toList)
    (stack : List Delimiter) : TakesRows sound (fieldLines size element) stack stack := by
  refine .slots (fun i => ?_) size stack
  simp only [String.append_assoc]
  exact kept_number_word isWord (isNumbered_slotField i) [] []

example : Kept "    _value0: T,\n    _value1: T,\n".toList [.brace] [.brace] := by decide +kernel

theorem takes_fromFnLines {sound : Prop} (size : Nat) (stack : List Delimiter) :
    TakesRows sound (fromFnLines size) stack stack := by
  refine .slots (fun i => ?_) size stack
  simp only [String.append_assoc]
  exact kept_two (isNumbered_slotField i) (isNumbered_toString i) [] [.parenthesis]

theorem takes_getArms {sound : Prop} (size : Nat) (stack : List Delimiter) :
    TakesRows sound (getArms size) stack stack := by
  refine .append (.slots (fun i => ?_) size stack) (.plain .nil)
  simp only [String.append_assoc]
  exact kept_two (isNumbered_toString i) (isNumbered_slotField i) [] [.parenthesis]

theorem takes_getMutArms {sound : Prop} (size : Nat) (stack : List Delimiter) :
    TakesRows sound (getMutArms size) stack stack := by
  refine .append (.slots (fun i => ?_) size stack) (.plain .nil)
  simp only [String.append_assoc]
  exact kept_two (isNumbered_toString i) (isNumbered_slotField i) [] [.parenthesis]

set_option maxRecDepth 2000 in
theorem takes_setArms {sound : Prop} (size : Nat) (stack : List Delimiter) :
    TakesRows sound (setArms size) stack stack := by
  refine .append (.slots (fun i => ?_) size stack) (.keeping ?_ .nil)
  · simp only [String.append_assoc]
    exact kept_two (isNumbered_toString i) (isNumbered_slotField i) [] [.parenthesis, .parenthesis]
  · simp only [String.append_assoc]
    exact kept_one (isNumbered_toString size) [.parenthesis, .parenthesis]

theorem takes_debugLines {sound : Prop} (size : Nat) (stack : List Delimiter) :
    TakesRows sound (debugLines size) stack stack := by
  refine .slots (fun i => ?_) size stack
  simp only [String.append_assoc]
  exact kept_one (isNumbered_slotField i) [.parenthesis]

/-- Items with commas between them are kept in a bracket if each is in front of what may follow it. -/
private theorem kept_intercalate {items : List String} (kept : ∀ item ∈ items, ∀ next rest,
      next = ',' ∨ next = ']' → Kept (next :: rest) [.bracket] [] →
        Kept (item.toList ++ next :: rest) [.bracket] [])
    {rest : List Char} (ends : Kept (']' :: rest) [.bracket] []) :
    Kept ((", ".intercalate items).toList ++ ']' :: rest) [.bracket] [] := by
  induction items with
  | nil => exact ends
  | cons first others ih =>
    have keptFirst := kept first List.mem_cons_self
    have later := ih fun item mem => kept item (List.mem_cons_of_mem _ mem)
    cases others with
    | nil =>
      rw [String.intercalate_singleton]
      exact keptFirst _ _ (.inr rfl) ends
    | cons second others =>
      have comma : Kept [',', ' '] [.bracket] [.bracket] := by decide
      rw [String.intercalate_cons_cons, String.toList_append, String.toList_append, List.append_assoc,
        List.append_assoc]
      exact keptFirst _ _ (.inl rfl) (comma.append later)

/-- The row that lists the slots, each with something behind it. -/
private theorem kept_list {items : List String} (kept : ∀ item ∈ items, ∀ next rest,
      next = ',' ∨ next = ']' → Kept (next :: rest) [.bracket] [] →
        Kept (item.toList ++ next :: rest) [.bracket] []) {front : List Char}
    (begins : Kept front [] [.bracket] := by decide) :
    Kept ((String.ofList front ++ (", ".intercalate items ++ "]")).toList ++ ['\n']) [] [] := by
  have ends : Kept [']', '\n'] [.bracket] [] := by decide
  have row := begins.append (kept_intercalate kept ends)
  rw [String.toList_append, String.toList_ofList, String.toList_append, List.append_assoc, List.append_assoc]
  exact row

theorem kept_slotList (size : Nat) :
    Kept (("        ::std::vec![" ++ (slotList size "" ++ "]")).toList ++ ['\n']) [] [] := by
  refine kept_list fun item mem next rest isNext ends => ?_
  obtain ⟨i, _, rfl⟩ := List.mem_map.mp mem
  have begins : Awaits (['s', 'e', 'l', 'f', '.'] ++ ['_', 'v', 'a', 'l', 'u', 'e']) next [.bracket]
      [.bracket] := by
    rcases isNext with rfl | rfl <;> decide
  simpa using ends.numbered (isNumbered_slotField i) begins

theorem kept_slotList_clone (size : Nat) :
    Kept (("        ::std::vec![" ++ (slotList size ".clone()" ++ "]")).toList ++ ['\n']) [] [] := by
  refine kept_list fun item mem next rest isNext ends => ?_
  obtain ⟨i, _, rfl⟩ := List.mem_map.mp mem
  have begins : Awaits (['s', 'e', 'l', 'f', '.'] ++ ['_', 'v', 'a', 'l', 'u', 'e']) '.' [.bracket]
      [.bracket] := by decide
  have call : Kept ['.', 'c', 'l', 'o', 'n', 'e', '(', ')'] [.bracket] [.bracket] := by decide
  simpa using (call.append ends).numbered (isNumbered_slotField i) begins

example : Kept "        ::std::vec![self._value0, self._value1]\n".toList [.brace] [.brace] := by decide +kernel

end Definition

namespace Declaration

/-- The line that declares a type, behind its visibility. -/
def typeLine (d : Declaration) : String := "struct " ++ d.typeText ++ " \x7b"

/-- The lines behind the one that declares a type. -/
def behindType (d : Declaration) : List String :=
  fieldLines d.size d.element ++ ["\x7d", ""] ++ d.inherentLines ++ d.operatorLines ++ d.traitLines

theorem toList_render_eq (d : Declaration) : d.render.toList =
    unlines (d.headLines.map String.toList) ++
      ((if d.visibility.isEmpty then "" else d.visibility ++ " ").toList ++
        ((d.typeLine.toList ++ ['\n']) ++ unlines (d.behindType.map String.toList))) := by
  rw [toList_render]
  simp [lines, typeLines, typeLine, behindType, unlines]

section Blocks
variable {d : Declaration} (isWord : IsWordText d.element.toList) (named : isIdentifier d.name = true)
include isWord named

set_option maxRecDepth 2000 in
theorem takes_inherentLines : TakesRows (isPasteable d.name = true) d.inherentLines [] [] := by
  simp only [inherentLines, typeText, String.append_assoc, String.reduceAppend]
  -- an operation's own block stands in the implementation, and its arms one deeper
  let inside : List Delimiter := [.brace, .brace, .brace]
  refine (((((((TakesRows.append ?start (takes_fromFnLines d.size inside)).append ?get).append
    (takes_getArms d.size inside)).append ?getMut).append (takes_getMutArms d.size inside)).append
    ?set).append (takes_setArms d.size inside)).append ?vectors
  case start =>
    exact .implemented isWord named <| .plain <| .keeping (kept_one (isNumbered_toString d.size) []) <| .plain <|
      .plain <| .worded isWord [.parenthesis] [.brace] <| .opening .nil
  case get | getMut =>
    exact .closing <| .closing <| .plain <| .plain <| .worded isWord [] [.brace] <| .opening .nil
  case set =>
    exact .closing <| .closing <| .plain <| .plain <| .plain <|
      .wordedTwice isWord [.parenthesis] [] [.brace] <| .opening .nil
  case vectors =>
    exact .closing <| .closing <| .plain <| .plain <| .worded isWord [] [.brace] <|
      .keeping (kept_slotList d.size) <| .closing <| .plain <| .plain <| .worded isWord [] [] <| .plain <|
      .worded isWord [] [] <| .opening <| .keeping (kept_slotList_clone d.size) <| .closing <| .closing <| .plain .nil

set_option maxRecDepth 2000 in
theorem takes_operatorLines : TakesRows (isPasteable d.name = true) d.operatorLines [] [] := by
  simp only [operatorLines, indexBody, typeText, String.append_assoc, String.reduceAppend]
  let body : List Delimiter := [.brace, .brace]
  refine ((((((?start : TakesRows _ _ [] body).append (?read : TakesRows _ _ body [])).append
    (?startMut : TakesRows _ _ [] body)).append (?write : TakesRows _ _ body [])).append ?debug).append
    (takes_debugLines d.size body)).append ?finish
  case start =>
    exact .implemented isWord named <| .worded isWord [] [] <| .plain <| .plain <| .worded isWord [] [.brace] .nil
  case startMut =>
    exact .implemented isWord named <| .plain <| .worded isWord [] [.brace] .nil
  case read | write =>
    exact .named named <| .plain <| .keeping (kept_one (isNumbered_toString d.size) [.parenthesis]) <|
      .closing <| .closing <| .closing <| .plain .nil
  case debug =>
    exact .implemented isWord named <| .opening <| .plain .nil
  case finish =>
    exact .plain <| .closing <| .closing <| .plain .nil

theorem takes_traitLines : TakesRows (isPasteable d.name = true) d.traitLines [] [] := by
  simp only [traitLines, typeText, String.append_assoc, String.reduceAppend]
  exact .implemented isWord named <| .worded isWord [] [] <| .plain <|
    .keeping (kept_one (isNumbered_toString d.size) []) <| .plain <| .plain <|
    .worded isWord [] [.brace] <| .call named <| .closing <| .plain <| .plain <|
    .worded isWord [] [.brace] <| .call named <| .closing <| .plain <|
    .worded isWord [] [.brace] <| .call named <| .closing <| .closing .nil

theorem takes_behindType :
    Takes (isPasteable d.name = true) 0 (unlines (d.behindType.map String.toList)) [.brace] [] := by
  have fields : TakesRows (isPasteable d.name = true) (fieldLines d.size d.element ++ ["\x7d", ""]) [.brace] [] :=
    (takes_fieldLines d.size isWord [.brace]).append (.closing <| .plain .nil)
  exact ((fields.append (takes_inherentLines isWord named)).append (takes_operatorLines isWord named)).append
    (takes_traitLines isWord named)

/-- A definition misses a bracket if its name cannot be pasted. -/
theorem takes_behindVisibility : Takes (isPasteable d.name = true) 1
    ((d.typeLine.toList ++ ['\n']) ++ unlines (d.behindType.map String.toList)) [] [] := by
  have opens : Takes (isPasteable d.name = true) 1 (d.typeLine.toList ++ ['\n']) [] [.brace] := by
    have begins : Kept ['s', 't', 'r', 'u', 'c', 't', ' '] [] [] := by decide
    have row : Takes (isPasteable d.name = true) 1 (['s', 't', 'r', 'u', 'c', 't', ' '] ++ (d.name.toList ++
        ('<' :: ([] ++ (d.element.toList ++ '>' :: [' ', '\x7b'])) ++ ['\n']))) [] [.brace] :=
      takes_typed isWord named [] begins
    simpa [typeLine, typeText] using row
  exact opens.append (takes_behindType isWord named)

end Blocks

/-- Without attributes and further derives, what stands in front of a type keeps what is open. -/
theorem kept_headLines {d : Declaration} (isWord : IsWordText d.element.toList) (plain : d.attributes = [])
    (noMore : d.extraDerives = []) : Kept (unlines (d.headLines.map String.toList)) [] [] := by
  have derives : ", ".intercalate (defaultDerives ++ []) =
      "Clone, Copy, Default, PartialEq, Eq, Hash" := by decide
  have plural : IsRemark (if d.size = 1 then "" else "s") := by
    split
    · exact .literal
    · exact .literal
  have rows : TakesRows True d.headLines [] [] := by
    simp only [headLines, plain, noMore, derives, List.isEmpty_nil, ↓reduceIte, List.nil_append,
      String.append_assoc, String.reduceAppend]
    refine .keeping (kept_remark ?_) (.plain (.keeping (kept_remark ?_) (.plain (.plain .nil))))
    · exact (isRemark_toString d.size).append
        (.append .literal (plural.append (.append .literal ((isRemark_of_isWordText isWord).append .literal))))
    · exact (isRemark_toString d.size).append .literal
  exact rows.kept trivial

end Declaration

/-- What a request's definition does to brackets does not depend on its size. -/
theorem Request.takes_render (request : Request) (named : isIdentifier request.name = true) :
    Takes (isPasteable request.name = true) 1 (request.render []).toList [] [] := by
  have isWord : IsWordText "T".toList := by
    rw [IsWordText]
    decide
  have head : Takes (isPasteable request.name = true) 0
      (unlines ((Declaration.ofRequest request []).headLines.map String.toList)) [] [] :=
    (Declaration.kept_headLines isWord rfl rfl).takes
  have body := @Declaration.takes_behindVisibility (Declaration.ofRequest request []) isWord named
  have front : Kept ("pub" ++ " ").toList [] [] := by decide
  have whole := head.append (front.takes.append body)
  rw [Request.render, Declaration.toList_render_eq]
  exact whole

end SlotArray
