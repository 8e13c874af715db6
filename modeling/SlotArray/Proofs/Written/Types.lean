import SlotArray.Source.Grammar.Type
import SlotArray.Proofs.Written.Careful

/-! Careful readers of paths, attributes, parameters and types. -/
namespace SlotArray.Source
open Phrase TokenTree

/-! ## What is known of what was read -/

section Read
variable (setting : Setting) (here : List TokenTree)

/-- A segment of a path between two places. A word alone may have anything behind it. -/
structure IsReadSegment (found : Segment × List TokenTree) (there : List TokenTree) : Prop where
  written : Written setting here found.2 there
  bare : found.1.arguments = .none → Solid setting here found.2

/-- A path between two places. If it ends with a word, it may have anything behind it. -/
structure PathPhrase.IsRead (path : PathPhrase) (there : List TokenTree) : Prop where
  written : Written setting here path.trees there
  bare : path.endsBare = true → Solid setting here path.trees

/-- A type between two places, which may be a path. -/
structure TypePhrase.IsRead (type : TypePhrase) (there : List TokenTree) : Prop where
  written : Written setting here type.trees there
  path : ∀ path, type.path? = some path → path.IsRead setting here there

/-- An expression between two places, which may be a path, or kept as it stands behind the word it begins with. -/
structure Expr.IsRead (expr : Expr) (there : List TokenTree) : Prop where
  written : Written setting here expr.trees there
  path : ∀ path, expr = .path path → path.IsRead setting here there
  asWritten : setting.calm → expr.form = .asWritten →
    ∃ text behind, text ∈ bareWords ∧ stream here = .leaf (.word text) :: behind

end Read

/-- A grammar whose readers are careful. -/
structure Grammar.IsCareful (g : Grammar) : Prop where
  expr {setting : Setting} {start here : List TokenTree} (structs : Bool) :
    Advances setting start here (g.expr structs) (Expr.IsRead setting here)
  operand {setting : Setting} {start here : List TokenTree} (structs : Bool) :
    Advances setting start here (g.operand structs) (Expr.IsRead setting here)
  type {setting : Setting} {start here : List TokenTree} (sums : Bool) :
    Careful setting start here (g.type sums) (TypePhrase.IsRead setting here)
  pattern {setting : Setting} {start here : List TokenTree} :
    Careful setting start here g.pattern fun pattern => Written setting here pattern.trees
  bound {setting : Setting} {start here : List TokenTree} :
    Careful setting start here g.bound fun bound => Written setting here bound.trees
  statements {setting : Setting} {start here : List TokenTree} :
    Careful setting start here g.statements (Written setting here)
  arms {setting : Setting} {start here : List TokenTree} : Careful setting start here g.arms (Written setting here)
  fields {setting : Setting} {start here : List TokenTree} : Careful setting start here g.fields (Written setting here)
  declaration {setting : Setting} {start here : List TokenTree} :
    Careful setting start here g.declaration (Written setting here)

/-! ### Attributes -/

/-- An attribute that was read from the tokens between its brackets. It is read again as it is if they are orderly. -/
structure Attribute.IsWritten (tag : Attribute) (content : List Token) : Prop where
  exact : Exact (Orderly content) tag.trees
  list : ∀ inner, tag.list? = some inner → ∃ setting, Stable setting inner

/-- Tokens that begin with attributes with some contents. -/
inductive BeginsWith : List Token → List (List Token) → List Token → Prop where
  | nil (rest : List Token) : BeginsWith rest [] rest
  | cons {joint : Bool} {content between rest : List Token} {contents : List (List Token)}
      (begins : BeginsWith between contents rest) :
      BeginsWith (.leaf (.mark '#' joint) :: .opening .bracket :: (content ++ .closing .bracket :: between))
        (content :: contents) rest

/-- Between two places there is nothing, or the bracket of an attribute comes last. -/
def EndsInAttribute (here there : List TokenTree) : Prop :=
  stream here = stream there ∨ ∃ before, stream here = before ++ .closing .bracket :: stream there

theorem BeginsWith.exists_closing {tokens rest : List Token} {contents : List (List Token)}
    (begins : BeginsWith tokens contents rest) : tokens = rest ∨ ∃ before, tokens = before ++ .closing .bracket :: rest := by
  induction begins with
  | nil => exact .inl rfl
  | @cons joint content between rest contents _ ih =>
    right
    rcases ih with rfl | ⟨before, rfl⟩
    · exact ⟨.leaf (.mark '#' joint) :: .opening .bracket :: content, rfl⟩
    · exact ⟨.leaf (.mark '#' joint) :: .opening .bracket :: (content ++ .closing .bracket :: before), by simp⟩

/-- What stands in their brackets is joined to nothing behind it. -/
theorem BeginsWith.tied {operator : Bool} {tokens rest : List Token} {contents : List (List Token)}
    (begins : BeginsWith tokens contents rest) (tied : Tied operator tokens) : ∀ content ∈ contents, Tied false content := by
  induction begins with
  | nil => exact fun _ mem => absurd mem List.not_mem_nil
  | cons _ ih =>
    obtain ⟨inside, behind⟩ := Tied.append_iff.mp tied.2.2
    exact List.forall_mem_cons.mpr ⟨inside, ih behind.2⟩

namespace PathPhrase
variable {setting : Setting} {here there between : List TokenTree} {path : PathPhrase}

theorem IsRead.skip (read : path.IsRead setting between there) (skipped : Written setting here [] between) :
    path.IsRead setting here there :=
  ⟨skipped.append read.written, fun bare => skipped.append_solid (read.bare bare)⟩

theorem IsRead.outside {rest content left : List TokenTree} {span : Span}
    (read : path.IsRead (setting.before rest) content left) (nothing : stream left = []) :
    path.IsRead setting (.invisible content span :: rest) rest :=
  ⟨read.written.outside nothing, fun bare => (read.bare bare).outside⟩

/-- A segment is a path, and a rooted or a qualified one behind something else. -/
theorem IsRead.first {opening : List TokenTree} {found : Segment × List TokenTree} {qualified rooted : Bool}
    (written : Written setting here opening between) (segment : IsReadSegment setting between found there) :
    PathPhrase.IsRead setting here ⟨qualified, rooted, [found.1], opening ++ found.2⟩ there := by
  refine ⟨written.append segment.written, fun bare => written.append_solid (segment.bare ?_)⟩
  simpa [endsBare, last?] using bare

/-- A path goes on with a segment. -/
theorem IsRead.next (read : path.IsRead setting here between) {found : Segment × List TokenTree}
    (segment : IsReadSegment setting between found there) :
    PathPhrase.IsRead setting here
      { path with segments := path.segments ++ [found.1], trees := path.trees ++ found.2 } there := by
  refine ⟨read.written.append segment.written, fun bare => read.written.append_solid (segment.bare ?_)⟩
  simpa [endsBare, last?] using bare

/-- Behind arguments a path does not end with a word. -/
theorem endsBare_applied {kind : SegmentArguments} (filled : kind ≠ .none) (path : PathPhrase)
    (arguments : List TokenTree) : (path.applied kind arguments).endsBare = false := by
  cases last : path.last? with
  | none =>
    have none : path.segments = [] := List.getLast?_eq_none_iff.mp last
    simp [endsBare, last?, applied, none]
  | some segment =>
    have ends : path.segments.getLast? = some segment := last
    simp [endsBare, last?, applied, ends, filled]

/-- Arguments may be written behind a word. -/
theorem IsRead.applied (read : path.IsRead setting here between) (bare : path.endsBare = true) {kind : SegmentArguments}
    (filled : kind ≠ .none) {arguments : List TokenTree} (precedes : Precedes setting arguments there) :
    (path.applied kind arguments).IsRead setting here there :=
  ⟨(read.bare bare).append_precedes precedes, fun impossible => by
    rw [endsBare_applied filled] at impossible
    cases impossible⟩

end PathPhrase

theorem TypePhrase.IsRead.outside {setting : Setting} {rest content left : List TokenTree} {span : Span}
    {type : TypePhrase} (read : type.IsRead (setting.before rest) content left) (nothing : stream left = []) :
    type.IsRead setting (.invisible content span :: rest) rest :=
  ⟨read.written.outside nothing, fun path same => (read.path path same).outside nothing⟩

theorem TypePhrase.IsRead.skip {setting : Setting} {here between there : List TokenTree} {type : TypePhrase}
    (read : type.IsRead setting between there) (skipped : Written setting here [] between) :
    type.IsRead setting here there :=
  ⟨skipped.append read.written, fun path same => (read.path path same).skip skipped⟩

theorem TypePhrase.IsRead.ofPath {setting : Setting} {here there : List TokenTree} {path : PathPhrase}
    (read : path.IsRead setting here there) : (TypePhrase.ofPath path).IsRead setting here there :=
  ⟨read.written, fun _ same => by cases same; exact read⟩

theorem TypePhrase.IsRead.other {setting : Setting} {here there trees : List TokenTree} {form ungrouped : TypeForm}
    (written : Written setting here trees there) : TypePhrase.IsRead setting here ⟨form, none, ungrouped, trees⟩ there :=
  ⟨written, fun _ same => by cases same⟩

namespace Grammar
variable {g : Grammar} {setting : Setting} {start here : List TokenTree}

/-! ## Paths -/

theorem exact_word {test : Leaf → Bool} (noMark : ∀ c joint, test (.mark c joint) = false) :
    Careful setting start here (leafThat test) fun found there => Exact True found ∧ Written setting here found there :=
  (Advances.leafThat_exact noMark).careful.imp fun _ _ found => ⟨found.1.exact, found.2.written⟩

theorem exact_mark {text : String} (plain : isPlainSign text = true) :
    Careful setting start here (mark text) fun found there => Exact True found ∧ Written setting here found there :=
  (Advances.mark_exact plain).careful.imp fun _ _ found => ⟨found.1, Solid.written ⟨found.1.anyway, fun _ _ => found.2⟩⟩

/-- The mark of an attribute is a token of the source. -/
theorem exact_hash : Careful setting start here (mark "#") fun found there => Exact True found ∧
    Written setting here found there ∧ ∃ joint, stream here = .leaf (.mark '#' joint) :: stream there := by
  intro stands value there read
  obtain ⟨⟨exact, written⟩, passes⟩ := exact_mark rfl stands value there read
  obtain ⟨joint, span, same, _⟩ := exists_of_mark (show "#".toList = ['#'] by decide) read
  exact ⟨⟨exact, written, joint, Stands.stream_eq same⟩, passes⟩

theorem exact_composes (setting : Setting) :
    Composes fun here trees there => Exact True trees ∧ Written setting here trees there :=
  ⟨fun _ => ⟨.nil, .nil⟩, fun first second => ⟨first.1.append second.1, first.2.append second.2⟩⟩

theorem exact_plainPath :
    Careful setting start here plainPath fun found there => Exact True found ∧ Written setting here found there := by
  have composes := exact_composes setting
  have segment {here : List TokenTree} : Careful setting start here plainSegment fun found there =>
      Exact True found ∧ Written setting here found there :=
    .choice (exact_word fun _ _ => rfl) (exact_word fun _ _ => rfl)
  exact composes.inOrder ⟨composes.perhaps (exact_mark rfl), segment,
    composes.whileNext (composes.inOrder ⟨exact_mark rfl, segment⟩)⟩

theorem careful_plainPath : Careful setting start here plainPath (Written setting here) :=
  exact_plainPath.imp fun _ _ found => found.2

/-- A comma that no source has is read as it is. -/
private theorem exact_comma {calm : Prop} : Exact calm [comma] := .single (.operator (by decide)) rfl

/-- Lifetimes that are put first are separated from what follows them. -/
theorem precedes_lifetimesFirst {items : List ((Bool × List TokenTree) × List TokenTree)} {there : List TokenTree}
    (listed : Listed setting Prod.snd here items there) : Precedes setting (lifetimesFirst items) there := by
  have others := listed.precedes_filter fun item => !item.1.1
  unfold lifetimesFirst
  simp only
  split
  · rename_i apart
    rw [List.append_nil]
    rw [Bool.or_eq_true] at apart
    rcases apart with separated | none
    · exact (listed.exact_filter (fun item => item.1.1) separated).append_precedes others
    · rw [List.isEmpty_iff.mp none, List.map_nil]
      have lifetimes := listed.precedes_filter fun item => item.1.1
      rwa [show flat [] = [] from rfl, List.append_nil]
  · exact ((listed.precedes_filter fun item => item.1.1).append_operator exact_comma rfl).append_precedes others

theorem careful_macroCall : Careful setting start here macroCall fun call => Written setting here call.2 := by
  refine .bind (.mark rfl) fun bang written => .bind Advances.anyGroup.careful fun group solid => ?_
  split
  · exact .pure (written.append solid.written)
  · exact .fail

/-- A type that gets its angle brackets may be written in front of anything. -/
private theorem solid_angled {type : List TokenTree} {there : List TokenTree} (span : Span)
    (written : Written setting here type there) : Solid setting here (angled type span) := by
  have opening : Exact setting.calm [.leaf (.mark '<' false) span] := .single (.operator (by decide)) rfl
  have closing : Exact setting.calm [.leaf (.mark '>' false) span] := .single (.operator (by decide)) rfl
  have whole := opening.append (written.toPrecedes.append_operator closing rfl)
  rw [← List.append_assoc] at whole
  exact ⟨whole, fun _ _ => rfl⟩

namespace IsCareful
variable (careful : g.IsCareful)
include careful

theorem exprTrees (structs : Bool) : Careful setting start here (g.exprTrees structs) (Written setting here) :=
  .bind (careful.expr structs).careful fun _ read => .pure read.written

theorem typeTrees (sums : Bool) : Careful setting start here (g.typeTrees sums) (Written setting here) :=
  .bind (careful.type sums) fun _ read => .pure read.written

theorem boundTrees : Careful setting start here g.boundTrees (Written setting here) :=
  .bind careful.bound fun _ written => .branch .fail (.pure written)

theorem block : Careful setting start here g.block (Written setting here) :=
  .enclosed _ fun _ => careful.statements.precedes

theorem constant : Careful setting start here (constant g) (Written setting here) :=
  .choice .literal (.choice .name careful.block)

theorem constraintBounds : Careful setting start here (constraintBounds g) (Written setting here) :=
  .sequence rfl careful.boundTrees

theorem associated : Careful setting start here (associated g) (Written setting here) := by
  refine .choice ?_ (.choice (.inOrder ⟨.mark rfl, careful.constraintBounds⟩) (.pure .nil))
  refine .bind (.mark rfl) fun equals written => .choice ?_ ?_
  · exact .bind careful.constant fun value further => .pure (written.append further)
  · exact .bind (careful.typeTrees true) fun type further => .pure (written.append further)

theorem argument : Careful setting start here (argument g) fun found => Written setting here found.2 := by
  refine .ask fun _ => .ask fun _ => .branch ?_ (.choice ?_ ?_)
  · exact .bind .lifetime fun _ written => .pure written
  · exact .bind careful.constant fun _ written => .pure written
  · refine .bind (careful.type true) fun type read => .branch ?_ (.pure read.written)
    exact .bind careful.associated fun more further => .pure (read.written.append further)

theorem angleArguments : Careful setting start here (angleArguments g) (Written setting here) := by
  have inner {here : List TokenTree} : Careful setting start here
      (lifetimesFirst <$> itemsUntil (starts (mark ">")) "," (Grammar.argument g)) (Precedes setting) :=
    .map (.itemsUntil rfl careful.argument) fun _ listed => precedes_lifetimesFirst listed
  exact .inOrder_solid (Advances.mark_solid rfl).careful (.inOrder_precedes inner (.inOrder (.mark rfl)))

/-! ### Segments -/

theorem segment (inExpr : Bool) : Advances setting start here (segment g inExpr) (IsReadSegment setting here) := by
  have bare {there : List TokenTree} {word : List TokenTree} (solid : Solid setting here word) :
      IsReadSegment setting here (⟨wordOf word, .none⟩, word) there := ⟨solid.written, fun _ => solid⟩
  have behind {there : List TokenTree} (word : List TokenTree) (solid : Solid setting here word) :
      Careful setting start there (do
        if ← ask (startsArguments inExpr) then
          let arguments ← inOrder [perhaps (mark "::"), Grammar.angleArguments g]
          return ((⟨wordOf word, .angled⟩ : Segment), word ++ arguments)
        else return (⟨wordOf word, .none⟩, word)) (IsReadSegment setting here) := by
    refine .choice ?_ (.pure (bare solid))
    refine .bind (.inOrder ⟨.perhaps (.mark rfl), careful.angleArguments⟩) fun arguments written => .pure ?_
    exact ⟨solid.append_precedes written.toPrecedes, nofun⟩
  refine .choice (.first (.leafThat_solid fun _ _ => rfl) fun _ solid => .pure (bare solid)) (.choice ?_ ?_)
  · exact .first (.leafThat_solid fun _ _ => rfl) behind
  · exact .first (.leafThat_solid fun _ _ => rfl) behind

theorem nextSegment (inExpr : Bool) : Careful setting start here (nextSegment g inExpr) (IsReadSegment setting here) := by
  refine .bind (.mark rfl) fun colons written => ?_
  refine .bind (careful.segment inExpr).careful fun found read => .pure ?_
  exact ⟨written.append read.written, fun bare => written.append_solid (read.bare bare)⟩

/-- A path stays one with segments behind it. -/
theorem segments {α : Type} {beginning : Reading TokenTree α} (inExpr : Bool) {path : PathPhrase}
    {origin : List TokenTree} (read : path.IsRead setting origin here) :
    Careful setting start here (each beginning (Grammar.nextSegment g inExpr)) fun rest there =>
      PathPhrase.IsRead setting origin { path with
        segments := path.segments ++ rest.map Prod.fst
        trees := path.trees ++ rest.flatMap Prod.snd } there := by
  have further : Careful setting start here (each beginning (Grammar.nextSegment g inExpr)) fun rest there =>
      ∀ path : PathPhrase, path.IsRead setting origin here → PathPhrase.IsRead setting origin { path with
        segments := path.segments ++ rest.map Prod.fst
        trees := path.trees ++ rest.flatMap Prod.snd } there := by
    refine .each (fun here rest there => ∀ path : PathPhrase, path.IsRead setting origin here →
      PathPhrase.IsRead setting origin { path with
        segments := path.segments ++ rest.map Prod.fst
        trees := path.trees ++ rest.flatMap Prod.snd } there) (fun here path read => ?_) ?_ (careful.nextSegment inExpr)
    · simpa using read
    · intro here between there first others segment further path read
      have longer := further _ (read.next segment)
      simpa using longer
  exact further.imp fun _ _ longer => longer path read

theorem furtherSegments (inExpr : Bool) {path : PathPhrase} {origin : List TokenTree}
    (read : path.IsRead setting origin here) :
    Careful setting start here (furtherSegments g inExpr path) (PathPhrase.IsRead setting origin) :=
  .bind (careful.segments inExpr read) fun _ longer => .pure longer

theorem path (inExpr : Bool) : Advances setting start here (path g inExpr) (PathPhrase.IsRead setting here) := by
  refine .second (.perhaps (.mark rfl)) fun root written => .first (careful.segment inExpr) fun first segment => ?_
  exact careful.furtherSegments inExpr (.first written segment)

theorem qualifiedPath (inExpr : Bool) :
    Advances setting start here (qualifiedPath g inExpr) (PathPhrase.IsRead setting here) := by
  have seenThrough {here : List TokenTree} :
      Careful setting start here (PathPhrase.trees <$> Grammar.path g false) (Written setting here) :=
    .map (careful.path false).careful fun _ read => read.written
  refine .choice ?_ (careful.path inExpr)
  refine .first (.inOrder (.mark rfl) ⟨careful.typeTrees true, .ifNext (.inOrder ⟨.word _, seenThrough⟩), .mark rfl⟩)
    fun opening written => ?_
  refine .bind (careful.nextSegment inExpr) fun first segment => ?_
  exact .bind (careful.segments inExpr (.first written segment)) fun rest longer => .pure longer

/-! ### Arguments of functions -/

theorem answerType (sums : Bool) : Careful setting start here (answerType g sums) (Written setting here) :=
  .ifNext (.inOrder ⟨.mark rfl, careful.typeTrees sums⟩)

/-- What stands in front of the parentheses is left out. -/
theorem functionArguments : Careful setting start here (functionArguments g) (Precedes setting) := by
  refine .bind (Careful.perhaps (.mark rfl)) fun colons _ => .precedes (.inOrder ⟨?_, careful.answerType false⟩)
  exact .enclosed _ fun _ => .precedes (.list (careful.typeTrees true))

theorem withFunctionArguments {reader : Reading TokenTree PathPhrase}
    (read : Careful setting start here reader (PathPhrase.IsRead setting here)) :
    Careful setting start here (withFunctionArguments g reader) (PathPhrase.IsRead setting here) := by
  refine .bind read fun path read => .ask fun _ => .ask fun _ => .either (fun ends => ?_) fun _ => .pure read
  rw [Bool.and_eq_true] at ends
  exact .bind careful.functionArguments fun trees precedes => .pure (read.applied ends.1 (by decide) precedes)

/-! ### Types in invisible groups -/

theorem groupedType (arguments : Bool) :
    Careful setting start here (groupedType g arguments) (TypePhrase.IsRead setting here) := by
  have inner : Careful setting start here (insideInvisible (g.type true)) fun found there =>
      found.1.IsRead setting here there := by
    refine .insideInvisible fun content span rest same => ?_
    subst same
    exact (careful.type true).imp fun _ _ read none => read.outside none
  refine .bind inner fun found read => .ask fun _ => .ask fun _ => .ask fun _ => ?_
  obtain ⟨inner, span⟩ := found
  have kept {there : List TokenTree} (read : inner.IsRead setting here there) :
      Written setting here [.invisible inner.trees span] there := read.written.invisible
  cases isPath : inner.path? with
  | some path =>
    have readPath := read.path path isPath
    refine .branch ?_ (.either (fun ends => ?_) fun _ => .pure (.other (kept read)))
    · exact .bind (careful.furtherSegments false readPath) fun _ longer => .pure (.ofPath longer)
    · rw [Bool.and_eq_true] at ends
      refine .bind (.inOrder ⟨.perhaps (.mark rfl), careful.angleArguments⟩) fun trees written => ?_
      have applied : (path.applied .angled trees).IsRead setting here _ :=
        readPath.applied ends.2 (by decide) written.toPrecedes
      exact .bind (careful.furtherSegments false applied) fun _ longer => .pure (.ofPath longer)
  | none =>
    refine .branch (.bind (careful.nextSegment false) fun first segment => ?_) (.pure (.other (kept read)))
    refine .bind (careful.furtherSegments false (.first (solid_angled span read.written).written segment)) ?_
    exact fun _ longer => .pure (.ofPath longer)

/-! ## Attributes -/

theorem attributeContent : Careful setting start here (attributeContent g) fun found there =>
    Written setting here found.trees there ∧ ∀ inner, found.list? = some inner → ∃ setting, Stable setting inner := by
  refine .ask fun _ => .branchThen (.word _) (.bind careful_plainPath) fun path written => .choice ?_ (.choice ?_ ?_)
  · refine .bind (.mark rfl) fun equals further => .ask fun _ => .ask fun _ => .refuse fun _ => ?_
    exact .bind (careful.exprTrees true) fun value beyond => .pure ⟨(written.append further).append beyond, nofun⟩
  · refine .bind Advances.anyGroup_content.careful fun group ⟨solid, content⟩ => ?_
    split
    · refine .pure ⟨written.append solid.written, fun inner same => ?_⟩
      cases same
      exact ⟨_, content _ _ _ rfl⟩
    · exact .fail
  · exact .pure ⟨written, nofun⟩

/-- An attribute is written as what stands between its brackets. -/
theorem attributeAfter {opening : Phrase} (begins : List TokenTree → List TokenTree → Prop)
    (read : Careful setting start here opening fun found there =>
      Exact True found ∧ Written setting here found there ∧ begins here there) :
    Careful setting start here (attributeAfter g opening) fun tag there =>
      Written setting here tag.trees there ∧ Exact setting.calm tag.trees ∧ ∃ between content, begins here between ∧
        stream between = .opening .bracket :: (content ++ .closing .bracket :: stream there) ∧
        tag.IsWritten content := by
  have inner {here : List TokenTree} : Careful setting start here (inside .bracket (Grammar.attributeContent g))
      fun found there => setting.ahead here = false ∧ ∃ content, Stable setting.inside content ∧
        found.1.IsWritten (stream content) ∧
        stream here = .opening .bracket :: (stream content ++ .closing .bracket :: stream there) := by
    refine (@Advances.insideOf _ _ _ _ _ .bracket (fun content tag => Attribute.IsWritten tag (stream content))
      fun content stable inner rest readInner nothing => ?_).careful
    obtain ⟨written, list⟩ := (careful.attributeContent (.refl stable.alone) inner rest readInner).1
    exact ⟨written.toPrecedes.toEnd rfl nothing, list⟩
  refine .bind read fun opening ⟨exact, written, begins⟩ => .bind inner fun found holds => .pure ?_
  obtain ⟨tag, span⟩ := found
  obtain ⟨noOperator, content, stable, ⟨exactTag, list⟩, same⟩ := holds
  have calm : setting.calm → Orderly (stream content) := fun isCalm => ⟨stable.tied isCalm, stable.quiet isCalm⟩
  have group : Exact setting.calm [.group .bracket tag.trees span] := .group _ (exactTag.imp calm)
  have solid := group.solid noOperator
  exact ⟨written.append solid.written, exact.anyway.append group, _, _, begins, same,
    exact.anyway.append (.group _ exactTag), list⟩

/-- Attributes are written as what stands between their brackets. -/
theorem eachAttribute {α : Type} {beginning : Reading TokenTree α} :
    Careful setting start here (each beginning (Grammar.attributeAfter g (mark "#"))) fun found there =>
      Written setting here (Attribute.flat found) there ∧ Exact setting.calm (Attribute.flat found) ∧
        ∃ contents, BeginsWith (stream here) contents (stream there) ∧
          List.Forall₂ Attribute.IsWritten found contents := by
  refine .each (fun here found there => Written setting here (Attribute.flat found) there ∧
    Exact setting.calm (Attribute.flat found) ∧ ∃ contents, BeginsWith (stream here) contents (stream there) ∧
      List.Forall₂ Attribute.IsWritten found contents) (fun here => ⟨.nil, .nil, [], .nil _, .nil⟩) ?_
    (careful.attributeAfter (fun here there => ∃ joint, stream here = .leaf (.mark '#' joint) :: stream there) exact_hash)
  rintro here between there tag others ⟨written, exact, behind, content, ⟨joint, begins⟩, same, isWritten⟩
    ⟨further, exactOthers, contents, beginsOthers, all⟩
  refine ⟨written.append further, exact.append exactOthers, content :: contents, ?_, .cons isWritten all⟩
  rw [begins, same]
  exact .cons beginsOthers

theorem attributes : Careful setting start here (attributes g) fun found there =>
    Written setting here (Attribute.flat found) there ∧ Exact setting.calm (Attribute.flat found) ∧
      ∃ contents, BeginsWith (stream here) contents (stream there) ∧ List.Forall₂ Attribute.IsWritten found contents :=
  careful.eachAttribute

theorem attributeTrees : Careful setting start here (attributeTrees g) fun found there =>
    Written setting here found there ∧ EndsInAttribute here there :=
  .map careful.attributes fun _ ⟨written, _, _, begins, _⟩ => ⟨written, begins.exists_closing⟩

theorem writtenAttributes : Careful setting start here (Grammar.attributeTrees g) (Written setting here) :=
  careful.attributeTrees.imp fun _ _ read => read.1

theorem innerAttributes : Careful setting start here (innerAttributes g) (Written setting here) := by
  have composes := exact_composes setting
  have opening {here : List TokenTree} : Careful setting start here (inOrder [mark "#", mark "!"]) fun found there =>
      Exact True found ∧ Written setting here found there :=
    composes.inOrder ⟨exact_mark rfl, exact_mark rfl⟩
  have single {here : List TokenTree} := careful.attributeAfter (fun _ _ => True)
    (@Careful.imp _ _ _ here _ _ _ opening fun _ _ found => ⟨found.1, found.2, trivial⟩)
  refine .bind (.each (fun here found there => Written setting here (Attribute.flat found) there) (fun _ => .nil)
    (fun read further => read.1.append further) single) fun found written => .pure written

theorem attributedBlock : Careful setting start here (attributedBlock g) (Written setting here) :=
  .enclosed _ fun _ => .precedes (.inOrder ⟨careful.innerAttributes, careful.statements⟩)

end IsCareful

/-! ## Parameters and bounds -/

/-- Bounds behind a colon; without any the colon is left out. -/
theorem precedes_bounds {between there colon bounds : List TokenTree} (solid : Written setting here colon between)
    (written : Written setting between bounds there) :
    Precedes setting (if bounds.isEmpty then [] else colon ++ bounds) there := by
  split
  · exact Exact.nil.precedes
  · exact (solid.append written).toPrecedes

theorem careful_lifetimeBounds {stop : Ahead} : Careful setting start here (lifetimeBounds stop) (Precedes setting) := by
  refine .bind (Careful.perhaps (.mark rfl)) fun colon written => .branch (.pure Exact.nil.precedes) ?_
  exact .bind (.sequence rfl .lifetime) fun bounds further => .pure (precedes_bounds written further)

theorem careful_constness : Careful setting start here constness (Written setting here) :=
  .choice (.enclosed _ fun _ => .precedes (.word _)) (.perhaps (.word _))

theorem careful_captures : Careful setting start here captures (Written setting here) := by
  have captured {here : List TokenTree} :
      Careful setting start here captures.captured fun found there => Written setting here found.2 there := by
    refine .choice ?_ (.choice ?_ ?_)
    · exact .bind .lifetime fun _ written => .pure written
    · exact .bind (.word _) fun _ written => .pure written
    · exact .bind .name fun _ written => .pure written
  have inner {here : List TokenTree} : Careful setting start here
      (lifetimesFirst <$> itemsUntil (starts (mark ">")) "," captures.captured) (Precedes setting) :=
    .map (.itemsUntil rfl captured) fun _ listed => precedes_lifetimesFirst listed
  refine .inOrder_cons (.word _) (.inOrder_solid (Advances.mark_solid rfl).careful ?_)
  exact .inOrder_precedes inner (.inOrder (.mark rfl))

namespace IsCareful
variable (careful : g.IsCareful)
include careful

theorem typeBounds : Careful setting start here (typeBounds g) (Precedes setting) := by
  refine .bind (Careful.perhaps (.mark rfl)) fun colon written => .branch (.pure Exact.nil.precedes) ?_
  exact .bind (.sequence rfl careful.boundTrees) fun bounds further => .pure (precedes_bounds written further)

theorem parameterAfter {attributes origin : List TokenTree} (written : Written setting origin attributes here) :
    Careful setting start here (parameterAfter g attributes) fun found there => Written setting origin found.trees there := by
  refine .choice ?_ (.choice ?_ (.choice ?_ ?_))
  · refine .bind Advances.lifetime.careful fun name solid => .bind careful_lifetimeBounds fun bounds precedes => .pure ?_
    exact (written.append_solid solid).append_precedes precedes
  · refine .bind (.word _) fun word further => .bind .name fun name named => ?_
    refine .bind (.inOrder ⟨.mark rfl, careful.typeTrees true, .ifNext (.inOrder ⟨.mark rfl, careful.constant⟩)⟩)
      fun rest beyond => .pure ?_
    exact ((written.append further).append named).append beyond
  · exact .bind (.word _) fun name further => .pure (written.append further)
  · refine .bind (Advances.leafThat_solid fun _ _ => rfl).careful fun name solid => ?_
    refine .bind careful.typeBounds fun bounds precedes => ?_
    refine .bind (.ifNext (.inOrder ⟨.mark rfl, careful.typeTrees true⟩)) fun default further => .pure ?_
    exact ((written.append_solid solid).append_precedes precedes).append further

theorem parameter : Careful setting start here (parameter g) fun found => Written setting here found.trees :=
  .bind careful.attributeTrees fun _ read => careful.parameterAfter read.1

/-- Parameters may be written in front of anything. -/
theorem parameters : Careful setting start here (parameters g) fun found _ => Exact setting.calm found.2 := by
  refine .choice ?_ (.pure .nil)
  refine .bind (exact_mark rfl) fun opening ⟨exact, _⟩ => .bind (.itemsUntil rfl careful.parameter) fun items listed => ?_
  refine .bind (Advances.mark_exact rfl).careful fun closing ⟨exactClosing, operator⟩ => .branch (.pure .nil) (.pure ?_)
  have written := precedes_lifetimesFirst (listed.map Prod.snd
    (fun parameter : Parameter => (decide (parameter.kind = .lifetime), parameter.trees)) fun _ => rfl)
  have whole := exact.anyway.append (written.append_operator exactClosing.anyway operator)
  rw [← List.append_assoc] at whole
  exact whole

theorem binder : Careful setting start here (binder g) (Written setting here) :=
  .inOrder ⟨.word _, .mark rfl, .sequence rfl (.map careful.parameter fun _ written => written), .mark rfl⟩

/-- What something holds for may be left out. -/
theorem perhapsBinder : Careful setting start here (ifNext (word "for") (Grammar.binder g)) fun found there =>
    Written setting here found there ∧ Written setting here [] there := by
  refine .ifNextOr (.bind (Advances.word_single _).careful fun word ⟨_, solid, noOperator⟩ => ?_) ⟨.nil, .nil⟩
  refine .bind (.inOrder ⟨.mark rfl, .sequence rfl (.map careful.parameter fun _ written => written), .mark rfl⟩)
    fun rest written => .pure ?_
  exact ⟨solid.written.append written, .skip noOperator⟩

theorem traitBound : Careful setting start here (traitBound g) fun found => Written setting here found.trees := by
  refine .bind (.ifNext careful.binder) fun binder written => ?_
  refine .bind careful_constness fun constant further => ?_
  refine .bind (.perhaps (.mark rfl)) fun permitted beyond => .refuse fun _ => ?_
  refine .bind (careful.withFunctionArguments (careful.path false).careful) fun path read => .pure ?_
  exact ((written.append further).append beyond).append read.written

theorem anyBound : Careful setting start here (anyBound g) fun found => Written setting here found.trees := by
  refine .peek (.choice ?_ (.choice ?_ ?_))
  · exact .bind .lifetime fun _ written => .pure written
  · exact .bind careful_captures fun _ written => .pure written
  · have behind {there : List TokenTree} (bound : BoundPhrase) (written : Written setting here bound.trees there) :
        Careful setting here there (do
          return { bound with trees := ← keptSince here (bound.kind = .constantTrait) bound.trees })
          fun found => Written setting here found.trees :=
      .bind (.keptSince fun _ => written) fun _ kept => .pure kept
    refine .choice (.bind (Advances.inside_solid _ BoundPhrase.trees fun _ => ?_).careful fun inner solid => ?_) ?_
    · exact careful.traitBound.imp fun _ _ written => written.toPrecedes
    · exact .bind (.pure solid.written) behind
    · exact .bind careful.traitBound behind

theorem boundSum : Careful setting start here (boundSum g) fun found => Written setting here found.2 :=
  .bind (.itemsUntil rfl careful.bound) fun _ listed => .pure listed.written

theorem bounds (sums : Bool) : Careful setting start here (bounds g sums) fun found => Written setting here found.2 := by
  refine .ask fun _ => .refuse fun _ => .branch careful.boundSum ?_
  exact .bind careful.bound fun _ written => .pure written

theorem predicate : Careful setting start here (predicate g) (Written setting here) := by
  refine .ask fun _ => .ask fun _ => .branch ?_ ?_
  · exact .inOrder ⟨.lifetime, .mark rfl, .sequence rfl .lifetime⟩
  · exact .inOrder ⟨.ifNext careful.binder, careful.typeTrees true, .mark rfl, .sequence rfl careful.boundTrees⟩

theorem whereClause : Careful setting start here (whereClause g) fun found => Written setting here (found.getD []) := by
  refine .choice ?_ (.pure .nil)
  refine .bind (Advances.word_single _).careful fun word ⟨_, solid, noOperator⟩ => ?_
  refine .bind (.sequence rfl careful.predicate) fun predicates further => .pure ?_
  rw [Option.getD_some]
  split
  · exact .skip noOperator
  · exact solid.written.append further

end IsCareful

/-! ## Types -/

theorem careful_otherType {phrase : Phrase} (careful : Careful setting start here phrase (Written setting here)) :
    Careful setting start here (otherType phrase) (TypePhrase.IsRead setting here) :=
  .bind careful fun _ written => .pure (.other written)

theorem careful_textLiteral : Careful setting start here textLiteral (Written setting here) := .leafThat fun _ _ => rfl

theorem careful_convention : Careful setting start here convention (Written setting here) :=
  .ifNext (.inOrder ⟨.word _, .perhaps careful_textLiteral⟩)

theorem careful_argumentName : Careful setting start here argumentName (Written setting here) :=
  .ask fun _ => .ask fun _ => .ask fun _ => .ask fun _ => .branch (.inOrder ⟨.anyWord, .mark rfl⟩) (.pure .nil)

namespace IsCareful
variable (careful : g.IsCareful)
include careful

theorem furtherBounds : Careful setting start here (furtherBounds g) (Written setting here) := by
  refine .whileNext (.bind (.mark rfl) fun plus written => .bind careful.bound fun bound further => ?_)
  exact .branch (.pure (written.append further)) .fail

theorem objectBounds (sums : Bool) : Careful setting start here (objectBounds g sums) (Written setting here) :=
  .bind (careful.bounds sums) fun _ written => .branch (.pure written) .fail

theorem hiddenBounds (sums : Bool) : Careful setting start here (hiddenBounds g sums) (Written setting here) :=
  .bind (careful.bounds sums) fun _ written => .branch (.pure written) .fail

theorem parenthesizedContent :
    Careful setting start here (parenthesizedContent g) fun found => Written setting here found.2 := by
  refine .choice (.pure .nil) (.choice ?_ (.choice ?_ ?_))
  · exact .bind (careful.objectBounds true) fun _ written => .pure written
  · exact .bind careful.bound fun _ written => .branch (.pure written) .fail
  · refine .bind (careful.type true) fun first read => .choice ?_ (.pure read.written)
    refine .bind (.mark rfl) fun comma further => .bind (.list (careful.typeTrees true)) fun others beyond => .pure ?_
    exact (read.written.append further).append beyond

theorem parenthesizedType (sums : Bool) :
    Careful setting start here (parenthesizedType g sums) (TypePhrase.IsRead setting here) := by
  refine .bind (Advances.inside_solid _ Prod.snd fun _ => ?_).careful fun found solid => ?_
  · exact careful.parenthesizedContent.imp fun _ _ written => written.toPrecedes
  obtain ⟨⟨content, inner⟩, span⟩ := found
  have behind {between there others : List TokenTree} (written : Written setting between others there) :
      Written setting here ([.group .parenthesis inner span] ++ others) there := solid.append_precedes written.toPrecedes
  cases content with
  | complete => exact .pure (.other solid.written)
  | permitted => exact .bind careful.furtherBounds fun others written => .pure (.other (behind written))
  | single form =>
    refine .ask fun _ => .branch ?_ (.pure (.other solid.written))
    exact .bind careful.furtherBounds fun others written => .pure (.other (behind written))

theorem functionArgument : Careful setting start here (functionArgument g) (Written setting here) := by
  refine .bind (.inOrder ⟨careful.writtenAttributes, careful_argumentName⟩) fun opening written => .choice ?_ ?_
  · exact .bind (.mark rfl) fun dots further => .pure (written.append further)
  · exact .bind (careful.typeTrees true) fun type further => .pure (written.append further)

theorem functionType : Careful setting start here (functionType g) (Written setting here) :=
  .inOrder ⟨.perhaps (.word _), careful_convention, .word _,
    .enclosed _ fun _ => .precedes (.list careful.functionArgument), careful.answerType false⟩

/-- What a type holds for may be left out in front of it. -/
theorem pathType (sums : Bool) {origin binder : List TokenTree} (written : Written setting origin binder here)
    (skipped : Written setting origin [] here) :
    Careful setting start here (pathType g sums binder) (TypePhrase.IsRead setting origin) := by
  refine .bind (careful.withFunctionArguments (careful.qualifiedPath false).careful) fun path read => ?_
  have readFrom := read.skip skipped
  refine .branch (.pure (.ofPath readFrom)) (.ask fun _ => .branch ?_ (.ask fun _ => .branch ?_ (.branch ?_ ?_)))
  · exact .bind careful_macroCall fun call further => .pure (.other (readFrom.written.append further))
  · refine .bind (.mark rfl) fun plus further => .bind careful.boundSum fun others beyond => .refuse fun _ => .pure ?_
    exact .other (((written.append read.written).append further).append beyond)
  · exact .pure (.ofPath readFrom)
  · exact .pure (.other (written.append read.written))

theorem dynamicType (sums : Bool) : Careful setting start here (dynamicType g sums) (Written setting here) := by
  refine .peek (.bind (.word _) fun word written => .bind (.perhaps (.mark rfl)) fun star further => ?_)
  refine .bind (careful.objectBounds sums) fun bounds beyond => .either (fun none => .pure ?_) fun _ => .since
  exact written.append ((further.skipped none).append beyond)

theorem elementsType : Careful setting start here (elementsType g) (Written setting here) :=
  .enclosed _ fun _ => .precedes
    (.inOrder ⟨careful.typeTrees true, .ifNext (.inOrder ⟨.mark rfl, careful.exprTrees true⟩)⟩)

theorem referenceType : Careful setting start here (referenceType g) (Written setting here) :=
  .inOrder ⟨.mark rfl, .perhaps .lifetime, .perhaps (.word _), careful.typeTrees false⟩

theorem pointerType : Careful setting start here (pointerType g) (Written setting here) :=
  .inOrder ⟨.mark rfl, .oneWordOf _, careful.typeTrees false⟩

theorem ungroupedType (sums : Bool) :
    Careful setting start here (ungroupedType g sums) (TypePhrase.IsRead setting here) := by
  refine .bind careful.perhapsBinder fun binder ⟨written, skipped⟩ => .choice ?_ (.branch ?_ ?_)
  · exact .bind careful.functionType fun type further => .pure (.other (written.append further))
  · exact .ask fun _ => .ask fun _ => .branch (careful.pathType sums written skipped) .fail
  refine .imp ?_ fun type _ read => TypePhrase.IsRead.skip read skipped
  refine .choice (careful.parenthesizedType sums) (.choice (careful.pathType sums .nil .nil) ?_)
  refine .choice (careful_otherType (careful.dynamicType sums)) (.choice (careful_otherType careful.elementsType) ?_)
  refine .choice (careful_otherType careful.pointerType) (.choice (careful_otherType careful.referenceType) ?_)
  refine .choice (careful_otherType (.mark rfl)) ?_
  refine .choice (careful_otherType (.inOrder ⟨.word _, careful.hiddenBounds sums⟩)) ?_
  exact .choice (careful_otherType (.word _)) (.choice (careful_otherType (careful.objectBounds true)) .fail)

theorem anyType (sums : Bool) : Careful setting start here (anyType g sums) (TypePhrase.IsRead setting here) :=
  .choice (careful.groupedType true) (careful.ungroupedType sums)

end IsCareful
end Grammar
end SlotArray.Source
