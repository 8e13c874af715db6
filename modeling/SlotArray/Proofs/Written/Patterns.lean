import SlotArray.Source.Grammar.Pattern
import SlotArray.Proofs.Written.Types

/-! Careful readers of patterns. -/
namespace SlotArray.Source.Grammar
open Phrase TokenTree

variable {g : Grammar} {setting : Setting} {start here : List TokenTree}

theorem careful_closedPattern {phrase : Phrase} {origin : List TokenTree}
    (careful : Careful setting start here phrase (Written setting origin)) :
    Careful setting start here (closedPattern phrase) fun found => Written setting origin found.trees :=
  .bind careful fun _ written => .pure written

/-- However many dots there are, they are an operator. -/
theorem careful_patternDots : Careful setting start here patternDots (Written setting here) := by
  refine .choice (.mark rfl) (.choice (.bind (Advances.mark_solid rfl).careful fun dots solid => ?_) (.mark rfl))
  split
  · rename_i _ first _ second _ third
    have dot (span : Span) : Sound [.leaf (.mark '.' true) span] := .single (.operator (by decide))
    have equals : Sound [.leaf (.mark '=' false) third] := .single (.operator (by decide))
    have sound := (dot first).append ((dot second).append equals)
    exact .pure (Solid.written ⟨⟨sound, fun _ => ⟨fun _ => rfl, fun _ => rfl, .cons rfl .nil⟩⟩, fun _ _ => rfl⟩)
  · exact .fail

/-! ### Numbers of fields -/

/-- The number of a field is a literal in front of every pause. -/
theorem isLiteralText_toString (number : Nat) : IsLiteralText (toString number).toList := by
  have digits : ∀ c ∈ (toString number).toList, c.isDigit = true := by
    rw [Nat.toString_eq_repr, Nat.toList_repr]
    exact fun c mem => Nat.isDigit_of_mem_toDigits (by decide) (by decide) mem
  have filled : (toString number).toList ≠ [] := by
    rw [Nat.toString_eq_repr, Nat.toList_repr]
    exact Nat.toDigits_ne_nil
  refine ⟨filled, fun d pause more => piece?_number (isBreak_of_isPause pause) more digits filled ?_⟩
  rintro rfl
  cases pause

/-- A literal that is the number of a field is no operator. -/
theorem beginsOperator_of_fieldNumber? {text : String} {number : Nat}
    (found : fieldNumber? text.toList = some number) : (Token.leaf (.literal text)).beginsOperator = false := by
  unfold fieldNumber? at found
  split at found
  · rename_i digit
    rw [Token.beginsOperator, Token.text, Leaf.text]
    cases spelled : text.toList with
    | nil => rfl
    | cons c rest =>
      rw [spelled, List.head?_cons, Option.any_some] at digit
      rw [List.head?_cons, Option.any_some, Bool.eq_false_iff]
      intro operator
      rw [isOperator_eq, List.contains_iff_mem] at operator
      have none : (operators.all fun c => !c.isDigit) = true := by decide
      have other := List.all_eq_true.mp none c operator
      rw [digit] at other
      cases other
  · cases found

theorem careful_member : Careful setting start here member (Written setting here) := by
  refine .choice .name fun stands value there read => ?_
  dsimp only [member.index, inSight] at read
  split at read
  · rename_i text span rest same
    split at read
    · rename_i number found
      cases read
      obtain ⟨further, _⟩ := Stands.take same (.single rfl) (List.cons_ne_nil _ _)
      have exact : Exact setting.calm [.leaf (.literal (toString number)) span] :=
        .single (.literal (isLiteralText_toString number)) rfl
      have noOperator := beginsOperator_of_fieldNumber? found
      exact ⟨(Stands.solid same exact fun leads => absurd leads (by rw [noOperator]; exact Bool.false_ne_true)).written,
        further⟩
    · cases read
  · cases read

namespace IsCareful
variable (careful : g.IsCareful)
include careful

theorem patternTrees : Careful setting start here (PatternPhrase.trees <$> g.pattern) (Written setting here) :=
  .map careful.pattern fun _ written => written

theorem alternatives : Careful setting start here (alternatives g) fun found => Written setting here found.trees := by
  refine .bind (.perhaps (.mark rfl)) fun leading written => .bind careful.pattern fun first further => ?_
  refine .bind (.whileNext (.inOrder ⟨.mark rfl, careful.patternTrees⟩)) fun others beyond => .pure ?_
  exact (written.append further).append beyond

theorem alternativeTrees : Careful setting start here (alternativeTrees g) (Written setting here) :=
  .map careful.alternatives fun _ written => written

theorem rangeBound : Careful setting start here (rangeBound g) (Written setting here) := by
  refine .choice (.pure .nil) (.choice .literal (.choice ?_ ?_))
  · exact .inOrder ⟨.word _, careful.attributedBlock⟩
  · exact .map (careful.qualifiedPath true).careful fun _ read => read.written

theorem rangeAfter {origin lower : List TokenTree} (written : Written setting origin lower here) :
    Careful setting start here (rangeAfter g lower) fun found => Written setting origin found.trees := by
  refine .bind careful_patternDots fun dots further => .bind careful.rangeBound fun upper beyond => ?_
  exact .refuse fun _ => .pure ((written.append further).append beyond)

theorem rangeWithoutLower :
    Careful setting start here (rangeWithoutLower g) fun found => Written setting here found.trees := by
  have behind {there : List TokenTree} (included : Bool) (dots : List TokenTree) (written : Written setting here dots there) :
      Careful setting start there (do
        let upper ← Grammar.rangeBound g
        if upper.isEmpty && included then failure
        return (⟨!upper.isEmpty, dots ++ upper⟩ : PatternPhrase)) fun found => Written setting here found.trees :=
    .bind careful.rangeBound fun _ further => .refuse fun _ => .pure (written.append further)
  exact .ask fun _ => .branch (.bind (.mark rfl) (behind _)) (.bind (.mark rfl) (behind _))

theorem fieldPattern : Careful setting start here (fieldPattern g) (Written setting here) := by
  refine .peek (.bind (.perhaps (.word _)) fun boxed written => ?_)
  refine .bind (.inOrder ⟨.perhaps (.word _), .perhaps (.word _)⟩) fun modes further => .either (fun none => ?_) fun _ => ?_
  · rw [Bool.and_eq_true] at none
    have skipped := (written.skipped none.1).append (further.skipped none.2)
    refine .ask fun _ => .bind careful_member fun field beyond => .ask fun _ => .branch ?_ (.pure (skipped.append beyond))
    exact .bind (.inOrder ⟨.mark rfl, careful.alternativeTrees⟩) fun rest last =>
      .pure (skipped.append (beyond.append last))
  · refine .bind .name fun name beyond => .either (fun none => .pure ?_) fun _ => .since
    exact (written.skipped none).append (further.append beyond)

theorem fieldPatterns : Careful setting start here (fieldPatterns g) (Written setting here) := by
  refine .fuelled fun fuel => ?_
  induction fuel generalizing here with
  | zero => exact .fail
  | succ fuel ih =>
    refine .choice (.pure .nil) (.bind careful.attributeTrees fun attributes ⟨written, _⟩ => .choice ?_ ?_)
    · exact .bind (.mark rfl) fun dots further => .pure (written.append further)
    · refine .bind careful.fieldPattern fun field further => .choice ?_ (.atEnd (.pure (written.append further)))
      refine .bind (.mark rfl) fun comma beyond => .bind ih fun others last => .pure ?_
      exact ((written.append further).append beyond).append last

theorem pathPattern : Careful setting start here (pathPattern g) fun found => Written setting here found.trees := by
  refine .bind (careful.qualifiedPath true).careful fun path read => ?_
  refine .ask fun _ => .branch ?_ (.choice ?_ (.choice ?_ ?_))
  · exact .bind careful_macroCall fun call further => .pure (read.written.append further)
  · refine .bind (.enclosed _ fun _ => .precedes careful.fieldPatterns) fun fields further => .pure ?_
    exact read.written.append further
  · refine .bind (.enclosed _ fun _ => .precedes (.list careful.alternativeTrees)) fun items further => .pure ?_
    exact read.written.append further
  · exact .choice (careful.rangeAfter read.written) (.pure read.written)

theorem constantPattern : Careful setting start here (constantPattern g) fun found => Written setting here found.trees :=
  .bind careful.rangeBound fun _ written => .choice (careful.rangeAfter written) (.pure written)

theorem namePattern : Careful setting start here (namePattern g) (Written setting here) := by
  have behind {between there : List TokenTree} (modes name : List TokenTree) (written : Written setting here modes between)
      (further : Written setting between name there) : Careful setting start there (do
        let inner ← ifNext (mark "@") (inOrder [mark "@", PatternPhrase.trees <$> g.pattern])
        return modes ++ name ++ inner) (Written setting here) :=
    .bind (.ifNext (.inOrder ⟨.mark rfl, careful.patternTrees⟩)) fun _ beyond =>
      .pure ((written.append further).append beyond)
  refine .bind (.inOrder ⟨.perhaps (.word _), .perhaps (.word _)⟩) fun modes written => .choice ?_ ?_
  · exact .bind (.word _) fun name further => behind modes name written further
  · exact .bind .name fun name further => behind modes name written further

theorem elementsPattern : Careful setting start here (elementsPattern g) (Written setting here) :=
  .enclosed _ fun _ => .precedes (.list (.bind careful.alternatives fun _ written => .branch .fail (.pure written)))

theorem anyPattern : Careful setting start here (anyPattern g) fun found => Written setting here found.trees := by
  refine .peek (.choice careful.pathPattern (.choice (careful_closedPattern (.word _)) (.choice ?_ ?_)))
  · exact .bind (.word _) fun _ _ => .bind careful.pattern fun _ _ => careful_closedPattern .since
  refine .ask fun _ => .ask fun _ => .ask fun _ => .branch careful.constantPattern ?_
  refine .ask fun _ => .ask fun _ => .branch (careful_closedPattern careful.namePattern) (.choice ?_ (.choice ?_ ?_))
  · exact careful_closedPattern (.inOrder ⟨.mark rfl, .perhaps (.word _), careful.patternTrees⟩)
  · exact careful_closedPattern (.enclosed _ fun _ => .precedes (.list careful.alternativeTrees))
  · refine .choice (careful_closedPattern careful.elementsPattern) ?_
    exact .ask fun _ => .ask fun _ => .branch careful.rangeWithoutLower .fail

end IsCareful
end SlotArray.Source.Grammar
