import SlotArray.Source.Grammar.Statement
import SlotArray.Proofs.Written.Expressions

/-! Careful readers of declarations and statements. What says more than its place allows is kept as it
stands in the source; it may be written there since the reader stops where something else may follow. -/
namespace SlotArray.Source.Grammar
open Phrase TokenTree

variable {g : Grammar} {setting : Setting} {start here : List TokenTree}

/-! ## Structs -/

/-- What an empty group holds is nothing. -/
theorem careful_nothingGiven :
    Careful setting start here nothingGiven fun found there => found = [] ∧ Written setting here [] there := by
  intro stands value there read
  unfold nothingGiven at read
  split at read
  · cases read
    exact ⟨⟨rfl, Exact.nil.precedes, fun _ leads => leads⟩, .one _ there .nil⟩
  · cases read

/-- How far something can be seen may be left out in front of it. -/
theorem exact_visibility : Careful setting start here visibility fun found there =>
    Exact True found ∧ Written setting here found there ∧ Written setting here [] there := by
  have group {here : List TokenTree} {phrase : Phrase}
      (careful : ∀ content, Careful setting.inside content content phrase fun found _ => Exact True found) :
      Careful setting start here (enclosed .parenthesis phrase) fun found there =>
        Exact True found ∧ Written setting here found there := by
    refine .bind (Advances.inside _ fun content => (careful content).imp fun _ _ exact _ => exact).careful ?_
    intro there found ⟨exact, noOperator⟩
    have whole : Exact True [.group .parenthesis found.1 found.2] := .group _ exact
    exact .pure ⟨whole, (whole.anyway.solid noOperator).written⟩
  have restriction {here : List TokenTree} : Careful setting start here restriction fun found there =>
      Exact True found ∧ Written setting here found there := by
    have composes := exact_composes setting.inside
    refine .choice (group fun _ => ?_) (.choice (group fun content => ?_) (.pure ⟨.nil, .nil⟩))
    · exact (exact_word fun _ _ => rfl).imp fun _ _ found => found.1
    · refine Careful.imp (composes.inOrder ⟨?_, exact_plainPath⟩) fun _ _ found => found.1
      exact exact_word fun _ _ => rfl
  refine .choice (careful_nothingGiven.imp fun _ _ ⟨empty, skipped⟩ => ?_) (.ifNextOr ?_ ⟨.nil, .nil, .nil⟩)
  · rw [empty]
    exact ⟨.nil, skipped, skipped⟩
  · refine .bind (Advances.word_single _).careful fun word ⟨single, solid, noOperator⟩ => ?_
    have composes := exact_composes setting
    refine .bind (composes.inOrder restriction) fun rest ⟨exact, written⟩ => .pure ?_
    exact ⟨single.exact.append exact, solid.written.append written, .skip noOperator⟩

theorem careful_visibility : Careful setting start here visibility (Written setting here) :=
  exact_visibility.imp fun _ _ found => found.2.1

/-- In front of a name no operator is ahead. -/
theorem noOperator_of_name {α : Type} {behind : Reading TokenTree α} (stands : Stands setting start here)
    (named : starts (name *> behind) here = true) : setting.ahead here = false := by
  obtain ⟨found, read⟩ := Option.isSome_iff_exists.mp named
  obtain ⟨⟨word, there⟩, readName, _⟩ := Option.bind_eq_some_iff.mp read
  exact (Advances.name_single stands word there readName).1.1.2.2

namespace IsCareful
variable (careful : g.IsCareful)
include careful

theorem unnamedType : Careful setting start here (unnamedType g) (Written setting here) := by
  refine .peek (.ask fun _ => .ask fun _ => .branch ?_ (careful.typeTrees true))
  exact .bind (.inOrder ⟨.anyWord, careful.fields⟩) fun _ _ => .since

theorem namedField : Careful setting start here (namedField g) (Written setting here) := by
  refine .bind (.inOrder ⟨careful.writtenAttributes, careful_visibility⟩) fun opening written => .choice ?_ ?_
  · exact .bind (.inOrder ⟨.word _, .mark rfl, careful.unnamedType⟩) fun _ further => .pure (written.append further)
  · exact .bind (.inOrder ⟨.name, .mark rfl, careful.typeTrees true⟩) fun _ further => .pure (written.append further)

theorem numberedField : Careful setting start here (numberedField g) (Written setting here) :=
  .inOrder ⟨careful.writtenAttributes, careful_visibility, careful.typeTrees true⟩

theorem namedFields : Careful setting start here (namedFields g) (Written setting here) :=
  .enclosed _ fun _ => .precedes (.list careful.namedField)

theorem numberedFields : Careful setting start here (numberedFields g) (Written setting here) :=
  .enclosed _ fun _ => .precedes (.list careful.numberedField)

theorem whereTrees : Careful setting start here (whereTrees g) (Written setting here) :=
  .bind careful.whereClause fun _ written => .pure written

theorem parameterTrees : Careful setting start here (parameterTrees g) fun found _ => Exact setting.calm found :=
  .map careful.parameters fun _ exact => exact

theorem structBody : Careful setting start here (structBody g) fun found => Written setting here found.2.2 := by
  refine .bind careful.whereClause fun clause? written => .ask fun _ => .either (fun missing => ?_) fun _ => .choice ?_ ?_
  · rw [Bool.and_eq_true, Option.isNone_iff_eq_none] at missing
    rw [missing.1] at written
    refine .bind careful.numberedFields fun fields further => .bind careful.whereClause fun late? beyond => ?_
    refine .bind (.mark rfl) fun semicolon last => .pure ?_
    exact written.append ((further.append beyond).append last)
  · exact .bind careful.namedFields fun fields further => .pure (written.append further)
  · exact .bind (.mark rfl) fun semicolon further => .pure (written.append further)

theorem structAfter {attributes : List Attribute} {visibility origin : List TokenTree}
    (written : Written setting origin (Attribute.flat attributes ++ visibility) here) :
    Careful setting start here (structAfter g attributes visibility) fun item => Written setting origin item.trees := by
  refine .bind (.word _) fun keyword further => .bind .name_solid fun name solid => ?_
  refine .bind careful.parameters fun parameters exact => .bind careful.structBody fun body last => .pure ?_
  exact (((written.append further).append_solid solid).append_exact exact).append_precedes last.toPrecedes

end IsCareful

/-! ## Functions -/

theorem careful_functionModes (safety : List String) :
    Careful setting start here (functionModes safety) (Written setting here) :=
  .inOrder ⟨.perhaps (.word _), .perhaps (.word _), .perhaps (.oneWordOf _), careful_convention⟩

theorem exact_anonymous {calm : Prop} : Exact calm anonymous := by
  have lowLine : Exact calm [.leaf (.word "_") .callSite] := .single (.word (by unfold IsWordText; decide)) rfl
  exact lowLine.append (.single (.operator (by decide)) rfl)

namespace IsCareful
variable (careful : g.IsCareful)
include careful

theorem receiver : Careful setting start here (receiver g) (Written setting here) :=
  .choice (.inOrder ⟨.mark rfl, .perhaps .lifetime, .perhaps (.word _), .word _⟩)
    (.inOrder ⟨.perhaps (.word _), .word _, .ifNext (.inOrder ⟨.mark rfl, careful.typeTrees true⟩)⟩)

theorem functionParameter : Careful setting start here (functionParameter g) fun found => Written setting here found.2 := by
  refine .bind careful.writtenAttributes fun opening written => .choice ?_ (.choice ?_ (.asked fun only only? => ?_))
  · exact .bind (.mark rfl) fun dots further => .pure (written.append further)
  · exact .bind careful.receiver fun receiver further => .pure (written.append further)
  refine .either (fun isOnly => .known fun stands => ?_) fun _ => ?_
  · rw [isOnly] at only?
    refine .bind (careful.typeTrees true) fun type further => .pure ?_
    have solid := exact_anonymous.solid (noOperator_of_name stands only?)
    exact (written.append_solid solid).append_precedes further.toPrecedes
  · refine .bind careful.pattern fun pattern further => .bind (.mark rfl) fun colon beyond => ?_
    have named := (written.append further).append beyond
    refine .choice (.bind (.mark rfl) fun dots last => .pure (named.append last)) ?_
    exact .bind (careful.typeTrees true) fun type last => .pure (named.append last)

theorem functionParameters : Careful setting start here (functionParameters g) (Written setting here) :=
  .bind (.itemsToEnd careful.functionParameter) fun _ listed => .refuse fun _ => .pure listed.written

theorem signature (safety : List String) : Careful setting start here (signature g safety) (Written setting here) := by
  refine .inOrder_cons (careful_functionModes safety) (.inOrder_cons (.word _) (.inOrder_solid .name_solid ?_))
  refine .inOrder_exact careful.parameterTrees (.precedes (.inOrder ⟨?_, careful.answerType true, careful.whereTrees⟩))
  exact .enclosed _ fun _ => careful.functionParameters.precedes

/-! ## Members -/

theorem constantDeclaration : Careful setting start here (constantDeclaration g)
    fun found => Written setting here found.trees := by
  have named {here : List TokenTree} : Careful setting start here (do if ← nextIs (word "_") then word "_" else name)
      fun found _ => Solid setting here found := .choice (.word_solid _) .name_solid
  refine .bind (.solid_behind (.word _) (.solid_then named .exact_nothing)) fun opening solid => .ask fun _ => ?_
  have typed {here : List TokenTree} : Careful setting start here (inOrder [mark ":", g.typeTrees true])
      (Written setting here) := .inOrder ⟨.mark rfl, careful.typeTrees true⟩
  refine .bind (.inOrder_exact careful.parameterTrees (.precedes typed)) fun middle precedes => ?_
  refine .bind (.ifNext (.inOrder ⟨.mark rfl, careful.exprTrees true⟩)) fun value written => ?_
  refine .bind careful.whereClause fun clause? further => .bind (.mark rfl) fun semicolon beyond => .pure ?_
  exact (((solid.append_precedes precedes).append written).append further).append beyond

theorem typeDeclaration (before after : Bool) :
    Careful setting start here (typeDeclaration g before after) fun found => Written setting here found.trees := by
  have opening := @Careful.solid_behind setting start here _ _ (.word "type")
    (.solid_then .name_solid (.exact_then careful.parameterTrees .exact_nothing))
  refine .bind opening fun opening solid => .bind (.perhaps (.mark rfl)) fun colon further => ?_
  refine .branchThen (.pure .nil) (.bind (.sequence rfl careful.boundTrees)) fun bounds beyond => ?_
  refine .branchThen careful.whereClause (.bind (.pure .nil)) fun early? early => ?_
  refine .bind (.ifNext (.inOrder ⟨.mark rfl, careful.typeTrees true⟩)) fun meaning middle => ?_
  refine .branchThen careful.whereClause (.bind (.pure .nil)) fun late? late => ?_
  refine .bind (.mark rfl) fun semicolon last => .pure ?_
  have bounded := solid.append_precedes (precedes_bounds further beyond)
  exact (((bounded.append early).append middle).append late).append last

end IsCareful

theorem careful_declaringCall {naming : Phrase}
    (careful : ∀ {here}, Careful setting start here naming (Written setting here)) :
    Careful setting start here (declaringCall naming) (Written setting here) := by
  refine .bind (.inOrder ⟨careful_plainPath, .mark rfl, careful⟩) fun opening written => ?_
  refine .bind Advances.anyGroup.careful fun body solid => ?_
  have whole := written.append_solid solid
  split
  · exact .pure whole.written
  · exact .bind (.mark rfl) fun semicolon further => .pure (whole.append_precedes further.toPrecedes)

/-- What is not kept as it stands is written as it was read. -/
def IsReadOrKept (setting : Setting) (here : List TokenTree) (found : Bool × List TokenTree) (there : List TokenTree) :
    Prop :=
  found.1 = false → Written setting here found.2 there

theorem careful_asRead {phrase : Phrase} (careful : Careful setting start here phrase (Written setting here)) :
    Careful setting start here (asRead phrase) (IsReadOrKept setting here) :=
  .bind careful fun _ written => .pure fun _ => written

/-- A macro call is a member behind nothing. -/
theorem careful_memberCall {seen origin : List TokenTree} (written : Written setting origin seen here) :
    Careful setting start here (do if seen.isEmpty then return (false, ← declaringCall (pure [])) else failure)
      (IsReadOrKept setting origin) := by
  refine .either (fun none => ?_) fun _ => .fail
  exact .bind (careful_declaringCall (.pure .nil)) fun _ further => .pure fun _ => (written.skipped none).append further

namespace IsCareful
variable (careful : g.IsCareful)
include careful

theorem traitMemberAfter : Careful setting start here (traitMemberAfter g) (IsReadOrKept setting here) := by
  refine .bind (.inOrder ⟨careful_visibility, .perhaps (.word _)⟩) fun seen written => ?_
  refine .choice ?_ (.choice ?_ (.choice ?_ ?_))
  · refine .bind (careful.signature _) fun opening further => .ask fun _ => ?_
    refine .branchThen careful.attributedBlock (.bind (.mark rfl)) fun body beyond => .pure fun kept => ?_
    exact (written.skipped ((Bool.not_eq_false' _).mp kept)).append (further.append beyond)
  · refine .bind careful.constantDeclaration fun constant further => .pure fun kept => ?_
    exact (written.skipped ((Bool.not_eq_false' _).mp (Bool.or_eq_false_iff.mp kept).1)).append further
  · refine .bind (careful.typeDeclaration _ _) fun _ further => .pure fun kept => ?_
    exact (written.skipped ((Bool.not_eq_false' _).mp kept)).append further
  · exact careful_memberCall written

theorem implMemberAfter : Careful setting start here (implMemberAfter g) (IsReadOrKept setting here) := by
  refine .bind (.inOrder ⟨careful_visibility, .choice (.pure .nil) (.perhaps (.word _))⟩) fun seen written => ?_
  refine .choice ?_ (.choice ?_ (.choice ?_ ?_))
  · refine .bind (careful.signature _) fun opening further => .choice ?_ ?_
    · exact .bind (.mark rfl) fun _ _ => .pure nofun
    · exact .bind careful.attributedBlock fun body beyond => .pure fun _ => (written.append further).append beyond
  · exact .bind careful.constantDeclaration fun _ further => .pure fun _ => written.append further
  · exact .bind (careful.typeDeclaration _ _) fun _ further => .pure fun _ => written.append further
  · exact careful_memberCall written

theorem foreignVariable : Careful setting start here (foreignVariable g) fun found => Written setting here found.2 := by
  refine .bind (.inOrder ⟨.word _, .perhaps (.word _), .name, .mark rfl, careful.typeTrees true⟩) fun opening written => ?_
  refine .bind (.ifNext (.inOrder ⟨.mark rfl, careful.exprTrees true⟩)) fun value further => ?_
  exact .bind (.mark rfl) fun semicolon beyond => .pure ((written.append further).append beyond)

theorem foreignMemberAfter : Careful setting start here (foreignMemberAfter g) (IsReadOrKept setting here) := by
  refine .bind careful_visibility fun seen written => .choice ?_ (.choice ?_ (.choice ?_ ?_))
  · refine .ask fun _ => .bind (careful.signature _) fun opening further => .choice ?_ ?_
    · exact .bind careful.attributedBlock fun _ _ => .pure nofun
    · exact .bind (.mark rfl) fun semicolon beyond => .pure fun _ => (written.append further).append beyond
  · refine .bind (.perhaps (.oneWordOf _)) fun safety further => .bind careful.foreignVariable fun place beyond => ?_
    refine .pure fun kept => ?_
    have noSafety := (Bool.not_eq_false' _).mp (Bool.or_eq_false_iff.mp kept).2
    exact written.append ((further.skipped noSafety).append beyond)
  · exact .bind (careful.typeDeclaration _ _) fun _ further => .pure fun _ => written.append further
  · exact careful_memberCall written

theorem members {after : Reading TokenTree (Bool × List TokenTree)}
    (read : ∀ {start here}, Careful setting start here after (IsReadOrKept setting here)) :
    Careful setting start here (members g after) (Written setting here) := by
  refine .whileNext (.peek (.bind careful.writtenAttributes fun attributes written => .bind read fun found further => ?_))
  exact .keptSince fun kept => written.append (further kept)

theorem membersInBraces {after : Reading TokenTree (Bool × List TokenTree)}
    (read : ∀ {setting start here}, Careful setting start here after (IsReadOrKept setting here)) :
    Careful setting start here (membersInBraces g after) (Written setting here) :=
  .enclosed _ fun _ => .precedes (.inOrder ⟨careful.innerAttributes, careful.members read⟩)

/-! ## Declarations -/

theorem staticDeclaration : Careful setting start here (staticDeclaration g) fun found => Written setting here found.2 := by
  refine .bind (.inOrder ⟨.word _, .perhaps (.word _), .name⟩) fun opening written => ?_
  have typed {here : List TokenTree} : Careful setting start here (inOrder [mark ":", g.typeTrees true])
      (Written setting here) := .inOrder ⟨.mark rfl, careful.typeTrees true⟩
  refine .ask fun _ => .branchThen (.pure .nil) (.bind typed) fun type further => ?_
  refine .bind (.ifNext (.inOrder ⟨.mark rfl, careful.exprTrees true⟩)) fun value beyond => ?_
  refine .bind (.mark rfl) fun semicolon last => .pure ?_
  exact ((written.append further).append beyond).append last

theorem variant : Careful setting start here (variant g) (Written setting here) := by
  refine .bind careful.writtenAttributes fun attributes written => .bind exact_visibility fun _ ⟨_, _, skipped⟩ => ?_
  refine .bind .name fun name named => .ask fun _ => .ask fun _ => ?_
  refine .branchThen careful.namedFields (.branchThen careful.numberedFields (.bind (.pure .nil))) fun fields further => ?_
  refine .bind (.ifNext (.inOrder ⟨.mark rfl, careful.exprTrees true⟩)) fun value beyond => .pure ?_
  have seen := written.append skipped
  rw [List.append_nil] at seen
  exact ((seen.append named).append further).append beyond

/-- A word and a name, and parameters that may be missing. -/
theorem named (text : String) {phrases : List Phrase}
    (others : ∀ {there}, Careful setting start there (inOrder phrases) (Written setting there)) :
    Careful setting start here (inOrder (word text :: name :: Grammar.parameterTrees g :: phrases)) (Written setting here) :=
  .inOrder_cons (.word _) (.inOrder_solid .name_solid (.inOrder_exact careful.parameterTrees others.precedes))

theorem enumDeclaration : Careful setting start here (enumDeclaration g) (Written setting here) :=
  careful.named _ (.inOrder ⟨careful.whereTrees, .enclosed _ fun _ => .precedes (.list careful.variant)⟩)

theorem unionDeclaration : Careful setting start here (unionDeclaration g) (Written setting here) :=
  careful.named _ (.inOrder ⟨careful.whereTrees, careful.namedFields⟩)

end IsCareful

theorem careful_nameOrLowLine : Careful setting start here nameOrLowLine (Written setting here) := .choice (.word _) .name

theorem careful_importTree (depth : Nat) (roots : Bool) :
    Careful setting start here (importTree depth roots) fun found => Written setting here found.2 := by
  induction depth generalizing setting start here roots with
  | zero => exact .fail
  | succ depth ih =>
    refine .choice (.bind (.mark rfl) fun _ written => .pure written) (.choice ?_ ?_)
    · have item {content here : List TokenTree} : Careful setting.inside content here (do
          let root ← if roots then perhaps (mark "::") else pure []
          let found ← importTree depth (roots && root.isEmpty)
          return (found.1 || !root.isEmpty, found.2))
          fun found : Bool × List TokenTree => Precedes setting.inside found.2 := by
        refine .branchThen (Careful.perhaps (.mark rfl)) (.bind (.pure .nil)) fun root _ => ?_
        exact .bind (ih _) fun _ written => .pure written.toPrecedes
      refine .bind (Advances.inside_solid _ (fun items : List ((Bool × List TokenTree) × List TokenTree) =>
        flat (items.map fun item => (item.1.2, item.2))) fun content => ?_).careful fun _ solid => .pure solid.written
      exact .bind (.itemsPrecede rfl item) fun _ precedes => .atEnd (.pure precedes)
    · refine .ask fun _ => .branchThen .name (.bind (.oneWordOf _)) fun segment written => ?_
      refine .choice ?_ (.choice ?_ (.pure written))
      · refine .bind (.mark rfl) fun colons further => .bind (ih _) fun rest beyond => .pure ?_
        exact (written.append further).append beyond
      · refine .bind (.word _) fun word further => .bind careful_nameOrLowLine fun name beyond => .pure ?_
        exact (written.append further).append beyond

theorem careful_importDeclaration :
    Careful setting start here importDeclaration fun found => Written setting here found.2 := by
  refine .bind (.inOrder ⟨.word _, .perhaps (.mark rfl)⟩) fun opening written => .peek ?_
  refine .bind (careful_importTree _ _) fun tree further => .bind (.mark rfl) fun semicolon beyond => .pure ?_
  exact (written.append further).append beyond

theorem careful_libraryDeclaration : Careful setting start here libraryDeclaration (Written setting here) :=
  .inOrder ⟨.word _, .word _, .choice (.word _) .name, .ifNext (.inOrder ⟨.word _, careful_nameOrLowLine⟩), .mark rfl⟩

theorem careful_rulesDeclaration : Careful setting start here rulesDeclaration (Written setting here) :=
  .inOrder ⟨.word _, .name, .perhaps (.groupOf _), .groupOf _⟩

namespace IsCareful
variable (careful : g.IsCareful)
include careful

theorem foreignBlock : Careful setting start here (foreignBlock g) (Written setting here) :=
  .inOrder ⟨.perhaps (.word _), .word _, .perhaps careful_textLiteral,
    careful.membersInBraces careful.foreignMemberAfter⟩

theorem moduleDeclaration : Careful setting start here (moduleDeclaration g) (Written setting here) := by
  refine .bind (.inOrder ⟨.perhaps (.word _), .word _, .choice (.word _) .name⟩) fun opening written => .choice ?_ ?_
  · exact .bind (.mark rfl) fun semicolon further => .pure (written.append further)
  · refine .bind (.enclosed _ fun _ => .precedes (.inOrder ⟨careful.innerAttributes, .whileNext careful.declaration⟩)) ?_
    exact fun body further => .pure (written.append further)

theorem traitDeclaration : Careful setting start here (traitDeclaration g) (Written setting here) := by
  have opening {here : List TokenTree} := @Careful.solid_behind setting start here _ _ (.word "trait")
    (.solid_then .name_solid (.exact_then careful.parameterTrees .exact_nothing))
  refine .bind (.inOrder ⟨.perhaps (.word _), .perhaps (.word _)⟩) fun modes written => ?_
  refine .bind opening fun opening solid => .ask fun _ => .either (fun none => ?_) fun _ => ?_
  · rw [Bool.and_eq_true] at none
    refine .bind (.inOrder ⟨.mark rfl, .sequence rfl careful.boundTrees, careful.whereTrees, .mark rfl⟩) ?_
    exact fun rest further => .pure ((written.skipped none.1).append (solid.written.append further))
  · refine .bind (.perhaps (.mark rfl)) fun colon further => ?_
    refine .branchThen (.pure .nil) (.bind (.sequence rfl careful.boundTrees)) fun above beyond => ?_
    refine .bind (.inOrder ⟨careful.whereTrees, careful.membersInBraces careful.traitMemberAfter⟩) ?_
    refine fun rest last => .pure (.append ?_ last)
    exact (written.append_solid solid).append_precedes (precedes_bounds further beyond)

/-- Behind its keyword anything may be left out. -/
theorem implementation : Careful setting start here (implementation g) fun found => Written setting here found.2 := by
  have opening := @Careful.solid_behind setting start here _ _ (.perhaps (.word "default"))
    (.solid_behind (.perhaps (.word "unsafe")) (.solid_then (.word_solid "impl") .exact_nothing))
  refine .bind opening fun modes solid => ?_
  refine .ask fun _ => .branchThen careful.parameterTrees (.bind (.pure .nil)) fun parameters exact => ?_
  refine .ask fun _ => .branchThen (.inOrder ⟨.mark rfl, .word _⟩) (.bind (.perhaps (.word _))) fun constant _ => ?_
  refine .ask fun _ => .branchThen (.pure .nil) (.bind (.perhaps (.mark rfl))) fun negation written => ?_
  refine .bind (careful.type true) fun first read => .ask fun _ => .refuse fun _ => ?_
  refine .bind (.ifNext (.inOrder ⟨.word _, careful.typeTrees true⟩)) fun implemented further => ?_
  refine .bind (.inOrder ⟨careful.whereTrees, careful.membersInBraces careful.implMemberAfter⟩) ?_
  refine fun rest beyond => .pure ?_
  have opening := (solid.append_exact exact).append_precedes written.toPrecedes
  exact ((opening.append read.written).append further).append beyond

theorem functionDeclaration : Careful setting start here (functionDeclaration g) (IsReadOrKept setting here) := by
  refine .bind (careful.signature _) fun opening written => .choice ?_ ?_
  · exact .bind (.mark rfl) fun _ _ => .pure nofun
  · exact .bind careful.attributedBlock fun body further => .pure fun _ => written.append further

theorem publicDeclaration : Careful setting start here (publicDeclaration g) (IsReadOrKept setting here) := by
  refine .choice careful.functionDeclaration (.choice (careful_asRead careful_libraryDeclaration) (.choice ?_ ?_))
  · exact careful_importDeclaration.imp fun _ _ written _ => written
  refine .choice (careful.staticDeclaration.imp fun _ _ written _ => written) (.choice ?_ ?_)
  · exact .bind careful.constantDeclaration fun _ written => .pure fun _ => written
  refine .choice (careful_asRead careful.traitDeclaration) (.choice (careful_asRead careful.moduleDeclaration) ?_)
  refine .choice ?_ (.choice (careful_asRead ?_) ?_)
  · exact .bind (careful.typeDeclaration _ _) fun _ written => .pure fun _ => written
  · exact .map (careful.structAfter .nil) fun _ written => written
  refine .choice (careful_asRead careful.enumDeclaration) ?_
  refine .choice (careful_asRead careful.unionDeclaration) (.choice ?_ .fail)
  exact .bind careful_rulesDeclaration fun _ _ => .pure nofun

theorem declarationAfter : Careful setting start here (declarationAfter g) (IsReadOrKept setting here) := by
  refine .bind exact_visibility fun seen ⟨_, written, skipped⟩ => .choice ?_ (.ask fun _ => .branch ?_ ?_)
  · exact .bind careful.implementation fun _ further => .pure fun _ => skipped.append further
  · exact (careful_asRead careful.foreignBlock).imp fun _ _ further kept => skipped.append (further kept)
  · refine .ask fun _ => .branch ?_ ?_
    · refine (careful_asRead (careful_declaringCall ?_)).imp fun _ _ further kept => skipped.append (further kept)
      exact .choice (.word _) (.perhaps .name)
    · exact .bind careful.publicDeclaration fun _ further => .pure fun kept => written.append (further kept)

theorem declarationBehind {attributes : List TokenTree} (written : Written setting start attributes here) :
    Careful setting start here (declarationBehind g start attributes) (Written setting start) :=
  .bind careful.declarationAfter fun _ further => .keptSince fun kept => written.append (further kept)

theorem anyDeclaration : Careful setting start here (anyDeclaration g) (Written setting here) :=
  .peek (.bind careful.writtenAttributes fun _ written => careful.declarationBehind written)

/-! ## Statements -/

theorem letStatement : Careful setting start here (letStatement g) (Written setting here) := by
  refine .bind (.inOrder ⟨.word _, careful.patternTrees, .ifNext (.inOrder ⟨.mark rfl, careful.typeTrees true⟩)⟩)
    fun opening written => .choice ?_ ?_
  · refine .bind (.mark rfl) fun equals further => .bind (careful.expr true).careful fun value read => ?_
    refine .branchThen (.pure .nil) (.bind (.ifNext (.inOrder ⟨.word _, careful.block⟩))) fun otherwise beyond => ?_
    refine .bind (.mark rfl) fun semicolon last => .pure ?_
    exact (((written.append further).append read.written).append beyond).append last
  · exact .bind (.mark rfl) fun semicolon further => .pure (written.append further)

end IsCareful

theorem careful_bracedMacro : Careful setting start here bracedMacro (Written setting here) := by
  refine .bind careful_plainPath fun path written => .bind careful_macroCall fun call further => .refuse fun _ => ?_
  exact .ask fun _ => .ask fun _ => .ask fun _ => .refuse fun _ => .pure (written.append further)

theorem careful_namingCall : Careful setting start here namingCall (Written setting here) :=
  careful_declaringCall (.choice (.word _) .name)

namespace IsCareful
variable (careful : g.IsCareful)
include careful

theorem statementAfter {attributes : List TokenTree} (written : Written setting start attributes here)
    (ends : EndsInAttribute start here) :
    Careful setting start here (statementAfter g start attributes) fun found => Written setting start found.2 := by
  refine .choice ?_ (.choice ?_ (.choice ?_ (.choice ?_ (.known fun stands => ?_))))
  · refine .bind (.inOrder ⟨careful_bracedMacro, .perhaps (.mark rfl)⟩) fun _ further => ?_
    exact .pure (written.append further)
  · exact .bind careful.letStatement fun _ further => .pure (written.append further)
  · exact .bind careful_namingCall fun _ further => .pure (written.append further)
  · exact .bind (careful.declarationBehind written) fun _ declared => .pure declared
  · refine .bind careful.leadingExpr fun expr read => ?_
    have behind := read.behind stands.stable written ends
    exact .choice (.bind (.mark rfl) fun semicolon further => .pure (behind.written.append further)) (.pure behind.written)

theorem anyStatements : Careful setting start here (anyStatements g) (Written setting here) := by
  refine .fuelled fun fuel => ?_
  induction fuel generalizing start here with
  | zero => exact .fail
  | succ fuel ih =>
    refine .bind (.whileNext (.mark rfl)) fun semicolons written => .choice (.pure written) (.peek ?_)
    refine .bind careful.attributeTrees fun attributes ⟨writtenAttributes, ends⟩ => ?_
    refine .bind (careful.statementAfter writtenAttributes ends) fun first further => .ask fun _ => .refuse fun _ => ?_
    exact .bind ih fun others beyond => .pure ((written.append further).append beyond)

end IsCareful
end SlotArray.Source.Grammar
