import SlotArray.Source.Language
import SlotArray.Proofs.Written.Declarations

/-! What is known of a struct that was read from a source. Whatever its fields and parameters are, its
attributes and its visibility can be written again, its name is a word, and a type parameter is bare
if nothing but its name is written of it. -/
namespace SlotArray.Source
open Phrase TokenTree

/-! ## All levels of the grammar -/

namespace Grammar

theorem isCareful_levels (n : Nat) : (levels n).IsCareful := by
  induction n with
  | zero =>
    exact {
      expr := fun _ => .fail, operand := fun _ => .fail, type := fun _ => .fail, pattern := .fail, bound := .fail
      statements := .fail, arms := .fail, fields := .fail, declaration := .fail }
  | succ n ih =>
    exact {
      expr := ih.anyExpr, operand := ih.anyOperand, type := ih.anyType, pattern := ih.anyPattern
      bound := ih.anyBound, statements := ih.anyStatements, arms := ih.anyArms, fields := ih.namedFields
      declaration := ih.anyDeclaration }

end Grammar

/-- What all careful readers of a phrase hand back has to be as it should be. -/
theorem holds_of_readWhole {α : Type} {phrase : Grammar → Reading TokenTree α} {setting : Setting}
    {post : α → List TokenTree → Prop} {trees : List TokenTree}
    (careful : ∀ {g : Grammar}, g.IsCareful → Careful setting trees trees (phrase g) post) (stable : Stable setting trees)
    {value : α} (read : readWhole phrase trees = some value) : ∃ rest, post value rest := by
  obtain ⟨rest, readValue, _⟩ := exists_of_whole read
  exact ⟨rest, (careful (Grammar.isCareful_levels _) (.refl stable) value rest readValue).1⟩

/-! ## Sources -/

/-- Trees with the tokens of some text, parts of which may be in invisible groups. What a macro was given for one of
its parameters is a whole, so such a group does not end with a character that something has to follow. -/
structure IsSource (trees : List TokenTree) : Prop where
  text : ∃ text written, ofText? text = some written ∧ flatten trees = flatten written
  areSealed : AreSealed trees

theorem IsSource.settled {trees : List TokenTree} (source : IsSource trees) : Settled (stream trees) := by
  obtain ⟨text, written, lexed, same⟩ := source.text
  refine (loosened_flatten trees source.areSealed).settled_iff.mp ?_
  rw [same]
  exact settled_ofText? lexed

/-- Operators in it may be joined to the end of an invisible group, and attributes may be left out in it. -/
theorem IsSource.stable {trees : List TokenTree} (source : IsSource trees) : Stable ⟨False, false⟩ trees :=
  ⟨source.areSealed, source.settled, False.elim, False.elim⟩

/-- A text is a source. -/
theorem isSource_ofText? {text : String} {trees : List TokenTree} (lexed : ofText? text = some trees) : IsSource trees :=
  ⟨⟨text, trees, lexed, rfl⟩, areSealed_of_areVisible trees (areVisible_ofText? lexed)⟩

variable {setting : Setting} {start here : List TokenTree}

/-! ## Parameters -/

theorem IsOneWord.wordOf {text : String} {trees : List TokenTree} (one : IsOneWord text trees) :
    wordOf trees = text := by
  obtain ⟨_, span, rfl⟩ := one
  rfl

/-- A parameter of a source. A type parameter is bare if nothing is written of it but its name. -/
structure Parameter.IsWritten (parameter : Parameter) : Prop where
  isWord : parameter.kind = .type → IsWordText parameter.name.toList
  isBare_iff : parameter.kind = .type →
    (parameter.isBare = true ↔ ∃ span, parameter.trees = [.leaf (.word parameter.name) span])

theorem Parameter.IsWritten.of_kind {parameter : Parameter} (other : parameter.kind ≠ .type) : parameter.IsWritten :=
  ⟨fun type => absurd type other, fun type => absurd type other⟩

/-- A word is all there is if nothing stands around it. -/
private theorem single_iff {text : String} {before name behind : List TokenTree} (one : IsOneWord text name) :
    (before = [] ∧ behind = []) ↔ ∃ span, before ++ name ++ behind = [.leaf (.word text) span] := by
  obtain ⟨_, span, rfl⟩ := one
  constructor
  · rintro ⟨rfl, rfl⟩
    exact ⟨span, rfl⟩
  · rintro ⟨other, same⟩
    have counted := congrArg List.length same
    simp only [List.length_append, List.length_cons, List.length_nil] at counted
    rw [← List.length_eq_zero_iff, ← List.length_eq_zero_iff]
    omega

namespace Grammar.IsCareful
variable {g : Grammar} (careful : g.IsCareful)
include careful

theorem writtenParameterAfter (attributes : List TokenTree) :
    Careful setting start here (Grammar.parameterAfter g attributes) fun parameter _ => parameter.IsWritten := by
  refine .choice ?_ (.choice ?_ (.choice ?_ ?_))
  · exact .bind (Advances.lifetime).careful fun name _ => .bind careful_lifetimeBounds fun bounds _ => .pure (.of_kind nofun)
  · refine .bind (.word _) fun word _ => .bind .name fun name _ => ?_
    exact .bind (.inOrder ⟨.mark rfl, careful.typeTrees true, .ifNext (.inOrder ⟨.mark rfl, careful.constant⟩)⟩)
      fun rest _ => .pure (.of_kind nofun)
  · refine .bind (Advances.word_single _).careful fun name ⟨one, _⟩ => .pure ⟨fun _ => ?_, fun _ => ?_⟩
    · rw [one.wordOf]
      exact one.isWord
    · have alone := @single_iff _ attributes name [] one
      rw [List.append_nil] at alone
      rw [one.wordOf, ← alone, List.isEmpty_iff]
      exact ⟨fun none => ⟨none, rfl⟩, fun empty => empty.1⟩
  · refine .bind Advances.name_single.careful fun name ⟨⟨text, one, _⟩, _⟩ => .bind careful.typeBounds fun bounds _ => ?_
    refine .bind (.ifNext (.inOrder ⟨.mark rfl, careful.typeTrees true⟩)) fun default _ => .pure ⟨fun _ => ?_, fun _ => ?_⟩
    · rw [one.wordOf]
      exact one.isWord
    · have alone := @single_iff text attributes name (bounds ++ default) one
      rw [List.append_eq_nil_iff, ← List.append_assoc] at alone
      rw [one.wordOf, ← alone, Bool.and_eq_true, Bool.and_eq_true, List.isEmpty_iff, List.isEmpty_iff,
        List.isEmpty_iff, and_assoc]

theorem writtenParameters : Careful setting start here (Grammar.parameters g) fun found _ =>
    ∀ parameter ∈ found.1, parameter.IsWritten := by
  refine .choice ?_ (.pure fun _ mem => absurd mem List.not_mem_nil)
  have parameter {here : List TokenTree} : Careful setting start here (Grammar.parameter g)
      fun parameter _ => parameter.IsWritten :=
    .bind careful.attributeTrees fun attributes _ => careful.writtenParameterAfter attributes
  refine .bind (.mark rfl) fun _ _ => .bind (.itemsThat rfl parameter) fun items written => ?_
  refine .bind (.mark rfl) fun _ _ => .branch (.pure fun _ mem => absurd mem List.not_mem_nil) ?_
  exact .pure fun found mem => (List.forall_mem_map.mpr written) found mem

end Grammar.IsCareful

/-! ## Structs -/

/-- A struct of a source. -/
structure StructItem.IsWritten (item : StructItem) : Prop where
  attributes : ∀ tag ∈ item.attributes, ∃ content, tag.IsWritten content
  visibility : Exact True item.visibility
  isName : isName item.name = true
  isWord : IsWordText item.name.toList
  parameters : ∀ parameter ∈ item.parameters, parameter.IsWritten
  hasFields_iff : item.hasFields = true ↔
    ∃ delimiter content span, item.fieldGroup = [.group delimiter content span] ∧ content ≠ []

/-- A source begins with the attributes of its struct, each of which was read from what stands in its brackets. -/
def StructItem.HasAttributes (item : StructItem) (trees : List TokenTree) : Prop :=
  ∃ contents rest, BeginsWith (stream trees) contents rest ∧ List.Forall₂ Attribute.IsWritten item.attributes contents

/-- Fields are there if their group holds something. -/
private theorem isFilled_iff (fields : List TokenTree) : Grammar.isFilled fields = true ↔
    ∃ delimiter content span, fields = [.group delimiter content span] ∧ content ≠ [] := by
  unfold Grammar.isFilled
  split
  · rename_i delimiter content span
    simp
  · rename_i other
    refine ⟨nofun, ?_⟩
    rintro ⟨delimiter, content, span, rfl, _⟩
    exact absurd rfl (other delimiter content span)

private theorem exists_of_forall₂ {α β : Type} {related : α → β → Prop} {as : List α} {bs : List β}
    (all : List.Forall₂ related as bs) {a : α} (mem : a ∈ as) : ∃ b, related a b := by
  obtain ⟨i, inside, rfl⟩ := List.getElem_of_mem mem
  exact ⟨_, all.get inside (all.length_eq ▸ inside)⟩

theorem Grammar.IsCareful.structItem {g : Grammar} (careful : g.IsCareful) :
    Careful setting start here (Grammar.structItem g) fun item _ => item.IsWritten ∧ item.HasAttributes here := by
  refine .bind careful.attributes fun attributes ⟨_, _, contents, begins, all⟩ => ?_
  refine .bind exact_visibility fun visibility ⟨exact, _⟩ => ?_
  refine .bind (.word _) fun _ _ => .bind Advances.name_single.careful fun name ⟨⟨text, one, isName⟩, _⟩ => ?_
  refine .bind careful.writtenParameters fun parameters writtenParameters => ?_
  refine .bind careful.structBody fun _ _ => .pure ⟨⟨?_, exact, ?_, ?_, writtenParameters, isFilled_iff _⟩, ?_⟩
  · exact fun tag mem => exists_of_forall₂ all mem
  · rw [one.wordOf]
    exact isName
  · rw [one.wordOf]
    exact one.isWord
  · exact ⟨contents, _, begins, all⟩

/-- All this is known of a struct, whatever the source that declares it. -/
theorem isWritten_of_readStruct {trees : List TokenTree} {item : StructItem} (source : IsSource trees)
    (read : readStruct trees = some item) : item.IsWritten ∧ item.HasAttributes trees := by
  obtain ⟨_, holds⟩ := holds_of_readWhole (fun careful => careful.structItem) source.stable read
  exact holds

/-! ## Lists of paths -/

theorem sound_of_readPaths {trees : List TokenTree} {paths : List PathPhrase} (stable : Stable setting trees)
    (read : readPaths trees = some paths) : ∀ path ∈ paths, Sound path.trees := by
  have list {g : Grammar} (careful : g.IsCareful) : Careful setting trees trees (do
      return (← itemsToEnd (Grammar.path g false)).map Prod.fst)
      fun paths _ => ∀ path ∈ paths, Sound path.trees := by
    have path {here : List TokenTree} : Careful setting trees here (Grammar.path g false) fun path _ => Sound path.trees :=
      (careful.path false).careful.imp fun _ _ read => read.written.sound
    refine .bind (.bind (.itemsThat rfl path) fun items sound => .atEnd (.pure sound)) fun items sound => .pure ?_
    exact List.forall_mem_map.mpr sound
  obtain ⟨_, sound⟩ := holds_of_readWhole list stable read
  exact sound

end SlotArray.Source
