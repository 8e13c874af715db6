import SlotArray.Source.Grammar.Operand
import SlotArray.Proofs.Written.Patterns

/-! Careful readers of expressions. A slash is the one operator that may be joined to something that does
not belong to it, so its reader stops where only what the slash is joined to may follow; the operand
behind it is what makes up for it. -/
namespace SlotArray.Source
open Phrase TokenTree

namespace Expr

theorem trees_withTrees (trees : List TokenTree) (expr : Expr) : (expr.withTrees trees).trees = trees := by
  cases expr <;> rfl

theorem form_withTrees (trees : List TokenTree) (expr : Expr) : (expr.withTrees trees).form = expr.form := by
  cases expr <;> rfl

theorem withTrees_ne_path (trees : List TokenTree) (expr : Expr) (path : PathPhrase) : expr.withTrees trees ≠ .path path := by
  cases expr <;> nofun

namespace IsRead
variable {setting : Setting} {origin here there trees : List TokenTree} {expr : Expr}

/-- An expression that is no path and takes attributes. -/
theorem other (written : Written setting here expr.trees there) (noPath : ∀ path, expr ≠ .path path)
    (takes : expr.form ≠ .asWritten) : expr.IsRead setting here there :=
  ⟨written, fun path same => absurd same (noPath path), fun _ asWritten => absurd asWritten takes⟩

theorem compound {form : Form} (takes : form ≠ .asWritten) (written : Written setting here trees there) :
    (Expr.compound form trees).IsRead setting here there :=
  other written nofun takes

theorem ofPath {path : PathPhrase} (read : path.IsRead setting here there) : (Expr.path path).IsRead setting here there :=
  ⟨read.written, fun _ same => by cases same; exact read, fun _ asWritten => by cases asWritten⟩

theorem outside {rest content left : List TokenTree} {span : Span} (read : expr.IsRead (setting.before rest) content left)
    (nothing : stream left = []) : expr.IsRead setting (.invisible content span :: rest) rest := by
  refine ⟨read.written.outside nothing, fun path same => (read.path path same).outside nothing, ?_⟩
  intro isCalm asWritten
  obtain ⟨text, behind, bare, begins⟩ := read.asWritten isCalm asWritten
  exact ⟨text, behind ++ stream rest, bare, by rw [stream, ownStream, begins, List.cons_append]⟩

end IsRead
end Expr

/-! ### Attributes in front of an expression -/

/-- No attribute stands in front of what is kept as it stands. -/
theorem Expr.IsRead.nothing_before {setting : Setting} {origin here there : List TokenTree} {expr : Expr}
    (read : expr.IsRead setting here there) (stable : Stable setting origin) (ends : EndsInAttribute origin here)
    (isCalm : setting.calm) (asWritten : expr.form = .asWritten) : stream origin = stream here := by
  rcases ends with same | ⟨before, same⟩
  · exact same
  · obtain ⟨text, behind, bare, begins⟩ := read.asWritten isCalm asWritten
    rw [begins] at same
    exact absurd bare (stable.quiet isCalm before text behind same)

theorem Expr.IsRead.behind {setting : Setting} {origin here there attributes : List TokenTree} {expr : Expr}
    (read : expr.IsRead setting here there) (stable : Stable setting origin)
    (written : Written setting origin attributes here) (ends : EndsInAttribute origin here) :
    (expr.behind attributes).IsRead setting origin there := by
  unfold Expr.behind
  split
  · rename_i kept
    rw [Bool.or_eq_true, decide_eq_true_eq] at kept
    have skipped : Written setting origin [] here := by
      rcases kept with asWritten | none
      · refine ⟨Exact.nil.precedes, fun isCalm leads => ?_⟩
        rwa [Setting.ahead, read.nothing_before stable ends isCalm asWritten] at leads
      · exact written.skipped none
    refine ⟨skipped.append read.written, fun path same => (read.path path same).skip skipped, ?_⟩
    intro isCalm asWritten
    rw [read.nothing_before stable ends isCalm asWritten]
    exact read.asWritten isCalm asWritten
  · rename_i apart
    rw [Bool.or_eq_true, decide_eq_true_eq] at apart
    refine .other ?_ (Expr.withTrees_ne_path _ expr) ?_
    · rw [Expr.trees_withTrees]
      exact written.append read.written
    · rw [Expr.form_withTrees]
      exact fun asWritten => apart (.inl asWritten)

namespace Grammar
variable {g : Grammar} {setting : Setting} {start here : List TokenTree}

/-! ## Operators -/

theorem advances_rangeDots : Advances setting start here rangeDots (Written setting here) :=
  .choice (.mark rfl) (.choice .fail (.mark rfl))

/-- The sign that assigns a quotient begins with a slash that what follows it belongs to. -/
theorem careful_divideAssign : Careful setting start here (mark "/=") (Written setting here) := by
  intro stands value there read
  have chars : "/=".toList = ['/', '='] := by decide
  rw [mark, chars] at read
  obtain ⟨joint, span, left, others, same, joined, readOthers, rfl⟩ := exists_of_markChars read
  obtain rfl : joint = true := joined
  obtain ⟨jointToo, spanToo, left, others, sameToo, _, none, rfl⟩ := exists_of_markChars readOthers
  cases none
  have follows : FollowsSlash (.mark '=' false) := ⟨'=', [], rfl, by decide, by decide⟩
  have sound : Sound [.leaf (.mark '/' true) span, .leaf (.mark '=' false) spanToo] :=
    .cons (.joinedSlash follows) (.cons (.operator (by decide)) .nil)
  obtain ⟨passes, _⟩ := Stands.takeTwo same sameToo (.single (dangles_operator (by decide) _)) (List.cons_ne_nil _ _)
  exact ⟨Solid.written ⟨⟨sound, fun _ => ⟨fun _ => rfl, .cons rfl .nil⟩⟩, fun _ _ => rfl⟩, passes⟩

/-- An operator is a slash, or it can be taken by itself. -/
theorem careful_operator {trees : List TokenTree} {text : String} {precedence : Precedence}
    (ahead : operationAhead trees = some (.binary text precedence)) :
    text = "/" ∨ ∀ {setting start here}, Careful setting start here (mark text) (Written setting here) := by
  have known : (binaryOperators.all fun operator =>
      operator.1 == "/" || operator.1 == "/=" || isPlainSign operator.1) = true := by decide
  simp only [List.all_eq_true, Bool.or_eq_true, beq_iff_eq] at known
  unfold operationAhead at ahead
  split at ahead
  · rename_i found
    cases ahead
    rcases known _ (List.mem_of_find?_eq_some found) with (slash | assigns) | plain
    · exact .inl slash
    · right
      intro setting start here
      rw [show text = "/=" from assigns]
      exact careful_divideAssign
    · exact .inr (.mark plain)
  · split at ahead
    · cases ahead
      exact .inr (.mark rfl)
    · split at ahead
      · cases ahead
      · split at ahead <;> cases ahead

/-- Behind a slash and its operand something else may follow. -/
theorem careful_quotient {α : Type} {operand : Reading TokenTree Expr}
    {onward : List TokenTree → Expr → Reading TokenTree α} {post : α → List TokenTree → Prop}
    (advances : ∀ {here}, Advances setting here here operand (Expr.IsRead setting here))
    (further : ∀ {between there} sign expr, Written setting here sign between → expr.IsRead setting between there →
      Careful setting start there (onward sign expr) post) :
    Careful setting start here (mark "/" >>= fun sign => operand >>= onward sign) post := by
  intro stands value there read
  obtain ⟨⟨sign, behind⟩, readSign, readOperand⟩ := Option.bind_eq_some_iff.mp read
  obtain ⟨⟨expr, left⟩, readExpr, readRest⟩ := Option.bind_eq_some_iff.mp readOperand
  obtain ⟨joint, span, same, rfl⟩ := exists_of_mark (show "/".toList = ['/'] by decide) readSign
  have slash := Stands.stream_eq same
  have stable : Stable setting behind := stands.ahead.reached (Stands.reaches same) slash
  obtain ⟨⟨readOperand, shorter⟩, ⟨reaches, taken, cut, closed⟩⟩ := advances (.refl stable) expr left readExpr
  have filled : taken ≠ [] := by
    rintro rfl
    rw [cut] at shorter
    exact absurd shorter (Nat.lt_irrefl _)
  have passes : Passes here left := by
    refine ⟨(Stands.reaches same).trans reaches, _, ?_, closed.behind filled [.leaf (.mark '/' joint)]⟩
    rw [slash, cut]
    rfl
  have solid : Solid setting here [.leaf (.mark '/' false) span] := ⟨.single .slash rfl, fun _ _ => rfl⟩
  obtain ⟨holds, passesRest⟩ := further _ expr solid.written readOperand (stands.pass passes) value there readRest
  exact ⟨holds, passes.trans passesRest⟩

theorem advances_sign : Advances setting start here sign (Written setting here) :=
  .choice (.mark rfl) (.choice (.mark rfl) (.mark rfl))

namespace IsCareful
variable (careful : g.IsCareful)
include careful

theorem climb (structs : Bool) (fuel base : Nat) {left : Expr} {origin : List TokenTree}
    (read : left.IsRead setting origin here) :
    Careful setting start here (climb g structs fuel base left) (Expr.IsRead setting origin) := by
  induction fuel generalizing base left start here origin with
  | zero => exact .fail
  | succ fuel ih =>
    refine .peek ?_
    cases ahead : operationAhead here with
    | none => exact .pure read
    | some operation =>
      refine .branch (.pure read) ?_
      cases operation with
      | binary text precedence =>
        have form : (if precedence = .comparison then Form.comparison else .other) ≠ .asWritten := by split <;> nofun
        have further {between there : List TokenTree} (sign : List TokenTree) (operand : Expr)
            (written : Written setting here sign between) (readOperand : operand.IsRead setting between there) :
            Careful setting here there (do
              let right ← Grammar.climb g structs fuel precedence.rightRank operand
              let form := if precedence = .comparison then Form.comparison else .other
              Grammar.climb g structs fuel base (.compound form (left.trees ++ sign ++ right.trees)))
              (Expr.IsRead setting origin) :=
          .bind (ih _ readOperand) fun right readRight =>
            ih _ (.compound form ((read.written.append written).append readRight.written))
        refine .refuse fun _ => ?_
        rcases careful_operator ahead with rfl | careful_mark
        · exact careful_quotient (careful.operand structs) further
        · refine .bind careful_mark fun sign written => ?_
          exact .bind (careful.operand structs).careful fun operand readOperand => further _ _ written readOperand
      | range =>
        refine .bind advances_rangeDots.careful fun dots written => .ask fun _ => .branch ?_ ?_
        · exact ih _ (.compound nofun (read.written.append written))
        · refine .bind (careful.operand structs).careful fun operand readOperand => ?_
          refine .bind (ih _ readOperand) fun upper readUpper => ?_
          exact ih _ (.compound nofun ((read.written.append written).append readUpper.written))
      | cast =>
        refine .bind (.word _) fun keyword written => ?_
        refine .ask fun _ => .branchThen (careful.groupedType false) (.bind (careful.type false)) fun type readType => ?_
        exact .ask fun _ => .refuse fun _ => ih _ (.compound nofun ((read.written.append written).append readType.written))

theorem operations (structs : Bool) (base : Precedence) {left : Expr} {origin : List TokenTree}
    (read : left.IsRead setting origin here) :
    Careful setting start here (operations g structs base left) (Expr.IsRead setting origin) :=
  .fuelled fun fuel => careful.climb structs fuel _ read

theorem rangeFromStart (structs : Bool) :
    Advances setting start here (rangeFromStart g structs) (Expr.IsRead setting here) := by
  refine .first advances_rangeDots fun dots written => .ask fun _ => .branch (.pure (.compound nofun written)) ?_
  refine .bind (careful.operand structs).careful fun operand read => ?_
  refine .bind (careful.operations structs .disjunction read) fun upper further => .pure ?_
  exact .compound nofun (written.append further.written)

theorem anyExpr (structs : Bool) : Advances setting start here (anyExpr g structs) (Expr.IsRead setting here) :=
  .first (careful.operand structs) fun _ read => careful.operations structs .any read

/-! ## What follows an expression -/

theorem callArguments : Careful setting start here (callArguments g) (Written setting here) :=
  .enclosed _ fun _ => .precedes (.list (careful.exprTrees true))

end IsCareful

/-- The fields that a number stands for. -/
theorem exact_pointNumber : Careful setting start here pointNumber fun found _ => Exact setting.calm found.1 := by
  intro stands value there read
  dsimp only [pointNumber, inSight] at read
  split at read
  · rename_i text span rest same
    split at read
    · obtain ⟨fields, found, last⟩ := Option.map_eq_some_iff.mp read
      cases last
      obtain ⟨further, _⟩ := Stands.take same (.single rfl) (List.cons_ne_nil _ _)
      refine ⟨?_, further⟩
      have number (n : Nat) (place : Span) : Exact setting.calm [.leaf (.literal (toString n)) place] :=
        .single (.literal (isLiteralText_toString n)) rfl
      have dot (place : Span) : Exact setting.calm [.leaf (.mark '.' false) place] :=
        .single (.operator (by decide)) rfl
      unfold pointFields at found
      simp only at found
      split at found
      · split at found
        · cases found
          exact (number _ _).append (dot _)
        · split at found
          · cases found
            exact ((number _ _).append (dot _)).append (number _ _)
          · cases found
      · cases found
    · cases read
  · cases read

namespace IsCareful
variable (careful : g.IsCareful)
include careful

theorem access : Careful setting start here (access g) (Written setting here) := by
  refine .choice (.word _) (.ask fun _ => .bind careful_member fun field written => .branch (.pure written) ?_)
  refine .bind (.ifNext (.inOrder ⟨.mark rfl, careful.angleArguments⟩)) fun types further => .ask fun _ => ?_
  refine .either (fun _ => .bind careful.callArguments fun arguments beyond => .pure ?_) fun none => .pure ?_
  · exact (written.append further).append beyond
  · rw [Bool.or_eq_true, not_or, Bool.not_eq_true', Bool.not_eq_false] at none
    have whole := written.append (further.skipped none.1)
    rwa [List.append_nil] at whole

theorem dotAccess : Careful setting start here (dotAccess g) (Written setting here) := by
  refine .bind (Advances.mark_solid rfl).careful fun dot solid => .choice ?_ ?_
  · refine .bind exact_pointNumber fun found exact => ?_
    obtain ⟨fields, goesOn⟩ := found
    have whole := solid.append_exact exact
    refine .branch (.bind careful.access fun field written => .pure ?_) (.pure whole.written)
    exact whole.append_precedes written.toPrecedes
  · exact .bind careful.access fun field written => .pure (solid.written.append written)

theorem trailers {expr : Expr} {origin : List TokenTree} (read : expr.IsRead setting origin here) :
    Careful setting start here (trailers g expr) (Expr.IsRead setting origin) := by
  refine @Careful.fuelled _ _ _ _ _ (fun trees => totalSteps trees + 1) (fun fuel => trailers.go g fuel expr) fun fuel => ?_
  induction fuel generalizing expr here with
  | zero => exact .fail
  | succ fuel ih =>
    have onward (trailer : Phrase) (careful : Careful setting start here trailer (Written setting here)) :
        Careful setting start here (do trailers.go g fuel (.compound .other (expr.trees ++ (← trailer))))
          (Expr.IsRead setting origin) :=
      .bind careful fun _ further => ih (.compound nofun (read.written.append further))
    refine .choice (onward _ careful.callArguments) (.ask fun _ => .ask fun _ => .branch (onward _ careful.dotAccess) ?_)
    refine .choice (onward _ (.enclosed _ fun _ => .precedes (careful.exprTrees true))) ?_
    exact .ask fun _ => .branch (onward _ (.mark rfl)) (.pure read)

/-! ## Expressions that end with their own braces -/

theorem conditional : Advances setting start here (conditional g) (Written setting here) := by
  refine Careful.fuelled fun fuel => ?_
  induction fuel generalizing here with
  | zero => exact .fail
  | succ fuel ih =>
    refine Advances.first (.inOrder (.word _) ⟨careful.exprTrees false, careful.block⟩) fun opening written => ?_
    refine .choice (.bind (.word _) fun between further => .choice ?_ ?_) (.pure written)
    · exact .bind (Advances.careful ih) fun others beyond => .pure ((written.append further).append beyond)
    · exact .bind careful.block fun block beyond => .pure ((written.append further).append beyond)

theorem whileLoop : Advances setting start here (whileLoop g) (Written setting here) :=
  .inOrder (.word _) ⟨careful.exprTrees false, careful.attributedBlock⟩

theorem forLoop : Advances setting start here (forLoop g) (Written setting here) :=
  .inOrder (.word _) ⟨careful.alternativeTrees, .word _, careful.exprTrees false, careful.attributedBlock⟩

theorem endlessLoop : Advances setting start here (endlessLoop g) (Written setting here) :=
  .inOrder (.word _) careful.attributedBlock

theorem labeled : Advances setting start here (labeled g) (Written setting here) := by
  have label : Advances setting start here lifetime (Written setting here) :=
    Advances.lifetime.imp fun _ _ solid => solid.written
  refine .first (.inOrder label (.mark rfl)) fun label written => .choice ?_ (.choice ?_ (.choice ?_ ?_))
  · exact .bind careful.whileLoop.careful fun loop further => .pure (written.append further)
  · exact .bind careful.forLoop.careful fun loop further => .pure (written.append further)
  · exact .bind careful.endlessLoop.careful fun loop further => .pure (written.append further)
  · exact .bind careful.attributedBlock fun block further => .pure (written.append further)

end IsCareful

theorem advances_compound {form : Form} (takes : form ≠ .asWritten) {phrase : Phrase}
    (advances : Advances setting start here phrase (Written setting here)) :
    Advances setting start here (compound form phrase) (Expr.IsRead setting here) :=
  .first advances fun _ written => .pure (.compound takes written)

namespace IsCareful
variable (careful : g.IsCareful)
include careful

theorem advances_attributedBlock : Advances setting start here (Grammar.attributedBlock g) (Written setting here) :=
  .enclosed _ fun _ => .precedes (.inOrder ⟨careful.innerAttributes, careful.statements⟩)

theorem blockLike : Advances setting start here (blockLike g) (Expr.IsRead setting here) := by
  refine advances_compound (by decide)
    (.choice careful.conditional (.choice careful.whileLoop (.choice careful.forLoop ?_)))
  refine .choice careful.endlessLoop (.choice ?_ (.choice ?_ (.choice ?_ ?_)))
  · exact .inOrder (.word _) ⟨careful.exprTrees false,
      .enclosed _ fun _ => .precedes (.inOrder ⟨careful.innerAttributes, careful.arms⟩)⟩
  · exact .inOrder (.leafThat fun _ _ => rfl) careful.attributedBlock
  · exact .inOrder (.word _) careful.block
  · exact .choice careful.labeled careful.advances_attributedBlock

/-! ## What begins with a path -/

theorem fieldValue : Careful setting start here (fieldValue g) (Written setting here) := by
  refine .bind careful.attributeTrees fun attributes ⟨written, _⟩ => .ask fun _ => ?_
  refine .bind careful_member fun field further => ?_
  refine .ask fun _ => .ask fun _ => .branch ?_ (.pure (written.append further))
  refine .bind (.mark rfl) fun colon beyond => .bind (careful.exprTrees true) fun value last => .pure ?_
  exact ((written.append further).append beyond).append last

theorem fieldValues : Careful setting start here (fieldValues g) (Written setting here) := by
  refine .bind (@Careful.itemsUntil _ _ _ _ _ _ _ id rfl careful.fieldValue) fun items listed => ?_
  refine .choice (.pure listed.flat) (.refuse fun _ => ?_)
  refine .bind (.mark rfl) fun dots further => .choice (.pure (listed.flat.append further)) ?_
  exact .bind (careful.exprTrees true) fun value beyond => .pure ((listed.flat.append further).append beyond)

theorem behindPath (structs : Bool) {path : PathPhrase} {origin : List TokenTree} (read : path.IsRead setting origin here) :
    Careful setting start here (behindPath g structs path) (Expr.IsRead setting origin) := by
  refine .ask fun _ => .branch ?_ (.ask fun _ => .branch ?_ (.pure (.ofPath read)))
  · refine .bind careful_macroCall fun call further => .pure (.compound ?_ (read.written.append further))
    split <;> nofun
  · refine .bind (.enclosed _ fun _ => .precedes careful.fieldValues) fun fields further => .pure ?_
    exact .compound nofun (read.written.append further)

theorem pathExpr (structs : Bool) : Advances setting start here (pathExpr g structs) (Expr.IsRead setting here) :=
  .first (careful.qualifiedPath true) fun _ read => careful.behindPath structs read

/-! ## Invisible groups -/

theorem exprAttributes : Careful setting start here (exprAttributes g) fun found there =>
    Written setting here found there ∧ EndsInAttribute here there := by
  refine .map careful.eachAttribute fun found ⟨written, _, contents, begins, _⟩ => ⟨written, begins.exists_closing⟩

theorem groupedExpr (structs : Bool) : Advances setting start here (groupedExpr g structs) (Expr.IsRead setting here) := by
  have inner : Advances setting start here (insideInvisible (g.expr true)) fun found there =>
      found.1.IsRead setting here there := by
    refine .insideInvisible fun content span rest same => ?_
    subst same
    exact (careful.expr true).imp fun _ _ read nothing => read.outside nothing
  refine .first inner fun found read => ?_
  obtain ⟨inner, span⟩ := found
  have kept {there : List TokenTree} (expr : Expr) (read : expr.IsRead setting here there) :
      (Expr.grouped expr [.invisible expr.trees span]).IsRead setting here there := .other read.written.invisible nofun nofun
  cases inner with
  | path path =>
    refine .bind (careful.furtherSegments true (read.path path rfl)) fun longer readLonger => ?_
    refine .bind (careful.behindPath structs readLonger) fun found readFound => ?_
    cases found with
    | path whole => exact .branch (.pure (kept _ readFound)) (.pure readFound)
    | _ => exact .pure readFound
  | _ => exact .pure (kept _ read)

/-! ## At the beginning of a statement -/

theorem leadingExpr : Careful setting start here (leadingExpr g) (Expr.IsRead setting here) := by
  refine .known fun stands => .bind careful.exprAttributes fun attributes ⟨written, ends⟩ => ?_
  have closedAfter {between there : List TokenTree} {expr : Expr} (written : Written setting here attributes between)
      (ends : EndsInAttribute here between) (read : expr.IsRead setting between there) :
      Careful setting start there (leadingExpr.closedAfter g attributes expr) (Expr.IsRead setting here) := by
    refine .ask fun _ => .ask fun _ => .ask fun _ => .branch ?_ (.pure (read.behind stands.ahead written ends))
    refine .bind (careful.trailers read) fun expr readOn => ?_
    exact careful.operations true .any (readOn.behind stands.ahead written ends)
  refine .choice ?_ (.choice ?_ ?_)
  · refine .bind (careful.groupedExpr true).careful fun expr read => .branch (closedAfter written ends read) ?_
    refine .bind (careful.trailers read) fun expr readOn => ?_
    exact careful.operations true .any (readOn.behind stands.ahead written ends)
  · exact .bind careful.blockLike.careful fun expr read => closedAfter written ends read
  · refine .bind (careful.operand true).careful fun expr read => ?_
    exact careful.operations true .any (read.behind stands.ahead written ends)

theorem anyArms : Careful setting start here (anyArms g) (Written setting here) := by
  refine .whileNext (.bind (.inOrder ⟨careful.writtenAttributes, careful.alternativeTrees,
    .ifNext (.inOrder ⟨.word _, careful.exprTrees true⟩), .mark rfl⟩) fun opening written => ?_)
  refine .bind careful.leadingExpr fun body read => .ask fun _ => ?_
  refine .branchThen (.mark rfl) (.bind (.perhaps (.mark rfl))) fun comma further => .pure ?_
  exact (written.append read.written).append further

end IsCareful

/-! ## What stands alone -/

theorem advances_literalExpr : Advances setting start here literalExpr (Expr.IsRead setting here) := by
  refine .first .literal fun found solid => ?_
  split
  · exact .pure (.other solid.written nofun nofun)
  · exact .pure (.other solid.written nofun nofun)
  · exact .fail

/-- What is kept as it stands begins with its word. -/
theorem advances_asIs {text : String} {phrases : List Phrase} (bare : text ∈ bareWords)
    (careful : ∀ {here there}, Careful setting here there (inOrder phrases) (Written setting there)) :
    Advances setting start here (asIs (inOrder (word text :: phrases))) (Expr.IsRead setting here) := by
  have word : Advances setting here here (word text) fun _ _ => ∃ behind, stream here = .leaf (.word text) :: behind := by
    intro stands value there read
    obtain ⟨span, same, _⟩ := exists_of_word read
    obtain ⟨⟨_, shorter⟩, passes⟩ := Advances.word text stands value there read
    exact ⟨⟨⟨_, Stands.stream_eq same⟩, shorter⟩, passes⟩
  have whole : Advances setting here here (inOrder (Phrase.word text :: phrases))
      fun _ _ => ∃ behind, stream here = .leaf (.word text) :: behind :=
    .first word fun _ begins => .bind careful fun _ _ => .pure begins
  refine .peek (.first whole fun _ ⟨behind, begins⟩ => .bind .since fun _ written => .pure ?_)
  exact ⟨written, nofun, fun _ _ => ⟨text, behind, bare, begins⟩⟩

theorem careful_referenceMode : Careful setting start here referenceMode (Written setting here) :=
  .choice (.inOrder ⟨.word _, .oneWordOf _⟩) (.perhaps (.word _))

namespace IsCareful
variable (careful : g.IsCareful)
include careful

theorem parenthesized : Advances setting start here (parenthesized g) (Expr.IsRead setting here) := by
  have content (content : List TokenTree) : Careful setting.inside content content (do
      if ← ask List.isEmpty then return Expr.tuple [] []
      let first ← g.expr true
      if ← ask List.isEmpty then return Expr.parenthesized first first.trees
      let comma ← mark ","
      let others ← itemsToEnd (g.expr true)
      return Expr.tuple (first :: others.map Prod.fst)
        (first.trees ++ comma ++ flat (others.map fun item => (item.1.trees, item.2))))
      fun expr there => stream there = [] → Exact setting.calm expr.trees ∧ expr.form = .other := by
    have item {here : List TokenTree} : Careful setting.inside content here (g.expr true)
        fun expr => Written setting.inside here expr.trees := (careful.expr true).careful.imp fun _ _ read => read.written
    refine .choice (.pure fun _ => ⟨.nil, rfl⟩) (.bind item fun first written => .choice ?_ ?_)
    · exact .pure fun nothing => ⟨written.toPrecedes.toEnd rfl nothing, rfl⟩
    refine .bind (.mark rfl) fun comma further => .bind (.itemsToEnd item) fun others listed => .pure fun nothing => ?_
    exact ⟨((written.append further).append listed.written).toPrecedes.toEnd rfl nothing, rfl⟩
  refine .first (.inside _ content) fun found ⟨⟨exact, other⟩, noOperator⟩ => .pure ?_
  obtain ⟨inner, span⟩ := found
  have solid : Solid setting here [.group .parenthesis inner.trees span] := Exact.solid (.group _ exact) noOperator
  refine .other ?_ (Expr.withTrees_ne_path _ inner) ?_
  · rw [Expr.trees_withTrees]
    exact solid.written
  · rw [Expr.form_withTrees, other]
    nofun

theorem array : Advances setting start here (array g) (Written setting here) := by
  refine .enclosed _ fun _ => .precedes (.choice (.pure .nil) (.bind (careful.exprTrees true) fun first written => ?_))
  refine .choice (.pure written) (.choice ?_ ?_)
  · refine .bind (.mark rfl) fun comma further => .bind (.list (careful.exprTrees true)) fun others beyond => .pure ?_
    exact (written.append further).append beyond
  · refine .bind (.mark rfl) fun mark further => .bind (careful.exprTrees true) fun number beyond => .pure ?_
    exact (written.append further).append beyond

theorem closureParameter : Careful setting start here (closureParameter g) (Written setting here) :=
  .inOrder ⟨careful.writtenAttributes, careful.patternTrees,
    .ifNext (.inOrder ⟨.mark rfl, careful.typeTrees true⟩)⟩

theorem closure (structs : Bool) : Advances setting start here (closure g structs) (Written setting here) := by
  have parameters {here : List TokenTree} : Careful setting start here
      (sequence (starts (mark "|")) "," (Grammar.closureParameter g)) (Written setting here) :=
    .sequence rfl careful.closureParameter
  refine .first (.behind (.ifNext careful.binder) (.behind (.perhaps (.word _)) (.behind (.perhaps (.word _)) ?_)))
    fun opening written => .choice ?_ ?_
  · exact .behind (.perhaps (.word _)) (.behind (.perhaps (.word _)) (.inOrder (.mark rfl) ⟨parameters, .mark rfl⟩))
  · refine .bind (.inOrder ⟨.mark rfl, careful.typeTrees true, careful.block⟩) fun body further => ?_
    exact .pure (written.append further)
  · exact .bind (careful.exprTrees structs) fun body further => .pure (written.append further)

theorem breakExpr (structs : Bool) : Advances setting start here (breakExpr g structs) (Written setting here) := by
  refine .first (.word _) fun opening written => .bind (.perhaps .lifetime) fun label further => ?_
  refine .ask fun _ => .refuse fun _ => ?_
  refine .ask fun _ => .ask fun _ => .branch ?_ (.pure (written.append further))
  exact .bind (careful.exprTrees structs) fun value beyond => .pure ((written.append further).append beyond)

theorem returnExpr : Advances setting start here (returnExpr g) (Written setting here) :=
  .first (.word _) fun _ written => .choice
    (.bind (careful.exprTrees true) fun _ further => .pure (written.append further)) (.pure written)

theorem yieldExpr : Advances setting start here (yieldExpr g) (Written setting here) := by
  refine .first (.word _) fun opening written => .ask fun _ => .ask fun _ => .ask fun _ => .branch (.pure written) ?_
  exact .bind (careful.exprTrees true) fun value further => .pure (written.append further)

theorem letExpr (structs : Bool) : Advances setting start here (letExpr g structs) (Written setting here) := by
  refine .first (.inOrder (.word _) ⟨careful.alternativeTrees, .mark rfl⟩) fun opening written => ?_
  refine .bind (careful.operand structs).careful fun operand read => ?_
  refine .bind (careful.operations structs .comparison read) fun value readOn => ?_
  exact .pure (written.append readOn.written)

theorem atom (structs : Bool) : Advances setting start here (atom g structs) (Expr.IsRead setting here) := by
  refine .choice (careful.groupedExpr structs) (.choice advances_literalExpr (.choice ?_ (.choice careful.blockLike ?_)))
  · exact advances_compound (by decide) (.inOrder (.word _) ⟨.perhaps (.word _), careful.block⟩)
  refine .choice (advances_compound (by decide) (careful.closure structs)) (.choice ?_ ?_)
  · exact advances_asIs (by decide) (.inOrder ⟨.mark rfl, .name, .groupOf _⟩)
  refine .ask fun _ => .ask fun _ => .branch (careful.pathExpr structs) (.choice careful.parenthesized (.choice ?_ ?_))
  · exact advances_compound (by decide) (careful.breakExpr structs)
  refine .choice ?_ (.choice (advances_compound (by decide) careful.returnExpr) (.choice ?_ ?_))
  · exact advances_compound (by decide) (.inOrder (.word _) (.perhaps .lifetime))
  · exact advances_asIs (by decide) (.inOrder (careful.exprTrees true))
  refine .choice (advances_compound (by decide) careful.array) (.choice ?_ ?_)
  · exact advances_compound (by decide) (careful.letExpr structs)
  refine .choice (advances_compound (by decide) careful.yieldExpr) (.choice (careful.rangeFromStart structs) ?_)
  exact advances_compound (by decide) (.word _)

/-! ## Signs in front -/

theorem anyOperand (structs : Bool) : Advances setting start here (anyOperand g structs) (Expr.IsRead setting here) := by
  refine .peek (Careful.known fun stands => ?_)
  refine Advances.second careful.exprAttributes fun attributes ⟨written, ends⟩ => .choice ?_ (.choice ?_ ?_)
  · refine .first (.inOrder (.mark rfl) careful_referenceMode) fun reference further => ?_
    refine .bind (careful.operand structs).careful fun inner read => .pure ?_
    exact .compound nofun ((written.append further).append read.written)
  · refine .ask fun _ => .first advances_sign fun sign further => ?_
    refine .bind (careful.operand structs).careful fun inner read => ?_
    have whole := (written.append further).append read.written
    cases inner with
    | literal text trees =>
      refine .pure ?_
      split
      · exact .other whole nofun nofun
      · exact .compound nofun whole
    | _ => exact .pure (.compound nofun whole)
  · refine .first (careful.atom structs) fun atom readAtom => .bind (careful.trailers readAtom) fun expr read => ?_
    refine .either (fun asWritten => ?_) fun _ => .branch .fail (.pure (read.behind stands.ahead written ends))
    refine .bind .since fun trees kept => .pure ⟨kept, nofun, fun isCalm _ => ?_⟩
    rw [read.nothing_before stands.ahead ends isCalm asWritten]
    exact read.asWritten isCalm asWritten

end IsCareful
end Grammar
end SlotArray.Source
