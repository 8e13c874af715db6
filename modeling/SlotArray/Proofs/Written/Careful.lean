import SlotArray.Proofs.Written.Places

/-! Readers that hand back what can be written again.

A reader of a stable source is careful if what it hands back can be written for what it has passed, and if it
stops where something else may follow. A reader that puts others one after another is careful if they are;
the rules below take it apart as it is put together. -/
namespace SlotArray.Source
open SlotArray.Text TokenTree

/-! ## Sources -/

/-- The words in front of which attributes of a statement are left out. -/
def bareWords : List String := ["become", "builtin"]

/-- Tokens among which no attribute stands in front of such a word. -/
def Quiet (tokens : List Token) : Prop :=
  ∀ before text behind, tokens = before ++ .closing .bracket :: .leaf (.word text) :: behind → text ∉ bareWords

theorem Quiet.within {before tokens behind : List Token} (quiet : Quiet (before ++ tokens ++ behind)) : Quiet tokens := by
  intro front text rest same
  refine quiet (before ++ front) text (rest ++ behind) ?_
  rw [same]
  simp

/-- Tokens in which an operator goes on wherever one of its characters is joined to something, and no attribute
stands in front of such a word. -/
structure Orderly (tokens : List Token) : Prop where
  tied : Tied false tokens
  quiet : Quiet tokens

/-- Trees of a source, in invisible groups or not. -/
structure Stable (setting : Setting) (trees : List TokenTree) : Prop where
  areSealed : AreSealed trees
  settled : Settled (stream trees)
  tied : setting.calm → Tied setting.operator (stream trees)
  quiet : setting.calm → Quiet (stream trees)

namespace Stable
variable {setting : Setting} {trees rest inner : List TokenTree} {span : Span}

/-- What stands in brackets is calm by itself if it is orderly. -/
theorem alone (stable : Stable setting trees) : Stable ⟨Orderly (stream trees), false⟩ trees :=
  ⟨stable.areSealed, stable.settled, Orderly.tied, Orderly.quiet⟩

/-- Trees as they stand are read again. -/
theorem sound (stable : Stable setting trees) : Sound trees :=
  (loosened_flatten trees stable.areSealed).settled_iff.mpr stable.settled

/-- What a reader comes to is a source itself. -/
theorem reached {there : List TokenTree} {taken : List Token} (stable : Stable setting trees) (reaches : ComesTo trees there)
    (same : stream trees = taken ++ stream there) : Stable setting there := by
  obtain ⟨areSealed, settled, tied, quiet⟩ := stable
  have whole : stream trees = taken ++ stream there ++ [] := by rw [same, List.append_nil]
  rw [same] at settled tied
  rw [whole] at quiet
  exact ⟨reaches.areSealed areSealed, settled.of_append, fun isCalm => (Tied.append_iff.mp (tied isCalm)).2,
    fun isCalm => (quiet isCalm).within⟩

theorem content {delimiter : Delimiter} (stable : Stable setting (.group delimiter inner span :: rest)) :
    Stable setting.inside inner := by
  have noOperator : (Token.closing delimiter).beginsOperator = false := by cases delimiter <;> decide
  have tokens : stream (.group delimiter inner span :: rest) =
      [.opening delimiter] ++ stream inner ++ .closing delimiter :: stream rest := by
    simp [stream, ownStream]
  obtain ⟨areSealed, settled, tied, quiet⟩ := stable
  rw [tokens] at settled tied quiet
  refine ⟨areSealed.1, ?_, fun isCalm => ?_, fun isCalm => (quiet isCalm).within⟩
  · rw [List.append_assoc] at settled
    exact settled.tail.before_bracket
  · have inner := (Tied.append_iff.mp (tied isCalm)).1.2
    rwa [Token.leads, noOperator] at inner

theorem invisible (stable : Stable setting (.invisible inner span :: rest)) : Stable (setting.before rest) inner := by
  have tokens : stream (.invisible inner span :: rest) = [] ++ stream inner ++ stream rest := rfl
  obtain ⟨areSealed, settled, tied, quiet⟩ := stable
  rw [tokens] at settled tied quiet
  exact ⟨areSealed.1.2, settled.before_closed areSealed.1.1, fun isCalm => (Tied.append_iff.mp (tied isCalm)).1,
    fun isCalm => (quiet isCalm).within⟩

end Stable

/-! ## Readers -/

/-- What a reader has passed on its way, something else may follow. -/
structure Passes (here there : List TokenTree) : Prop where
  reaches : ComesTo here there
  closed : ∃ taken, stream here = taken ++ stream there ∧ Token.AreClosed taken

namespace Passes
variable {here between there : List TokenTree}

theorem refl (trees : List TokenTree) : Passes trees trees := ⟨.here trees, [], rfl, .nil⟩

theorem trans (passes : Passes here between) (further : Passes between there) : Passes here there := by
  obtain ⟨reaches, taken, same, closed⟩ := passes
  obtain ⟨reachesOn, more, sameMore, closedMore⟩ := further
  refine ⟨reaches.trans reachesOn, taken ++ more, ?_, closed.append closedMore⟩
  rw [same, sameMore, List.append_assoc]

theorem seen (trees : List TokenTree) : Passes trees (seen trees) :=
  ⟨(reaches_seen trees).1, [], (reaches_seen trees).2.symm, .nil⟩

theorem one (tree : TokenTree) (rest : List TokenTree) (closed : Token.AreClosed tree.ownStream) :
    Passes (tree :: rest) rest :=
  ⟨.past tree (.here rest), tree.ownStream, rfl, closed⟩

theorem length_le (passes : Passes here there) : (stream there).length ≤ (stream here).length := by
  obtain ⟨taken, same, _⟩ := passes.closed
  rw [same, List.length_append]
  exact Nat.le_add_left _ _

end Passes

/-- Where a reader stands in a source: something else may follow what it has passed. -/
structure Stands (setting : Setting) (start here : List TokenTree) : Prop where
  stable : Stable setting start
  passes : Passes start here

namespace Stands
variable {setting : Setting} {start here there : List TokenTree}

theorem refl (stable : Stable setting here) : Stands setting here here := ⟨stable, .refl here⟩

theorem pass (stands : Stands setting start here) (passes : Passes here there) : Stands setting start there :=
  ⟨stands.stable, stands.passes.trans passes⟩

/-- What is ahead is a source itself. -/
theorem ahead (stands : Stands setting start here) : Stable setting here := by
  obtain ⟨stable, reaches, taken, same, _⟩ := stands
  exact stable.reached reaches same

end Stands

/-- A reader that hands back what is as it should be, and stops where something else may follow. -/
def Careful {α : Type} (setting : Setting) (start here : List TokenTree) (reader : Reading TokenTree α)
    (post : α → List TokenTree → Prop) : Prop :=
  Stands setting start here → ∀ value there, reader here = some (value, there) → post value there ∧ Passes here there

/-- A careful reader that takes something whenever it succeeds. -/
def Advances {α : Type} (setting : Setting) (start here : List TokenTree) (reader : Reading TokenTree α)
    (post : α → List TokenTree → Prop) : Prop :=
  Careful setting start here reader fun value there => post value there ∧ (stream there).length < (stream here).length

section Weaken
variable {α : Type} {setting : Setting} {start here : List TokenTree} {reader : Reading TokenTree α}
  {post weaker : α → List TokenTree → Prop}

theorem Careful.imp (careful : Careful setting start here reader post)
    (weaken : ∀ value there, post value there → weaker value there) : Careful setting start here reader weaker := by
  intro stands value there read
  obtain ⟨holds, passes⟩ := careful stands value there read
  exact ⟨weaken value there holds, passes⟩

theorem Advances.careful (advances : Advances setting start here reader post) : Careful setting start here reader post :=
  Careful.imp advances fun _ _ holds => holds.1

theorem Advances.imp (advances : Advances setting start here reader post)
    (weaken : ∀ value there, post value there → weaker value there) : Advances setting start here reader weaker :=
  Careful.imp advances fun value there holds => ⟨weaken value there holds.1, holds.2⟩

end Weaken

/-! ### Leaves and groups -/

/-- An operator none of whose characters is a slash or a quote. -/
def isPlainSign (text : String) : Bool := !text.toList.isEmpty && text.toList.all isPlainOperator

/-- Of an operator, the first character is taken and then the others, to which it has to be joined. -/
theorem exists_of_markChars {c : Char} {chars : List Char} {trees value rest : List TokenTree}
    (read : Phrase.markChars (c :: chars) trees = some (value, rest)) :
    ∃ joint span left others, seen trees = .leaf (.mark c joint) span :: left ∧ (chars.isEmpty || joint) = true ∧
      Phrase.markChars chars left = some (others, rest) ∧
      value = .leaf (.mark c !chars.isEmpty) span :: others := by
  unfold Phrase.markChars at read
  split at read
  · rename_i joint span left same
    split at read
    · rename_i matching
      rw [Bool.and_eq_true, decide_eq_true_eq] at matching
      obtain ⟨rfl, joined⟩ := matching
      split at read
      · rename_i others left readOthers
        cases read
        exact ⟨joint, span, _, others, same, joined, readOthers, rfl⟩
      · cases read
    · cases read
  · cases read

/-- What a character by itself is taken from. -/
theorem exists_of_mark {text : String} {c : Char} (single : text.toList = [c]) {trees value rest : List TokenTree}
    (read : Phrase.mark text trees = some (value, rest)) :
    ∃ joint span, seen trees = .leaf (.mark c joint) span :: rest ∧ value = [.leaf (.mark c false) span] := by
  rw [Phrase.mark, single] at read
  obtain ⟨joint, span, left, others, same, _, none, rfl⟩ := exists_of_markChars read
  cases none
  exact ⟨joint, span, same, rfl⟩

/-- What a word is taken from. -/
theorem exists_of_word {text : String} {trees value rest : List TokenTree}
    (read : Phrase.word text trees = some (value, rest)) :
    ∃ span, seen trees = .leaf (.word text) span :: rest ∧ value = [.leaf (.word text) span] := by
  dsimp only [Phrase.word, Phrase.leafThat, Phrase.inSight] at read
  split at read
  · rename_i leaf span left same
    cases leaf with
    | word found =>
      by_cases matching : (found == text) = true
      · rw [if_pos matching] at read
        cases read
        obtain rfl := beq_iff_eq.mp matching
        exact ⟨span, same, rfl⟩
      · rw [if_neg matching] at read
        cases read
    | literal | mark => cases read
  · cases read

/-- A reader that has to take everything leaves nothing but empty invisible groups. -/
theorem exists_of_whole {α : Type} {reader : Reading TokenTree α} {content : List TokenTree} {value : α}
    (read : Reading.whole (Phrase.toEnd reader) content = some value) :
    ∃ rest, reader content = some (value, rest) ∧ stream rest = [] := by
  rw [Reading.whole_eq_some_iff] at read
  obtain ⟨⟨found, rest⟩, readFound, readEnd⟩ := Option.bind_eq_some_iff.mp read
  obtain ⟨⟨_, none⟩, atEnd, same⟩ := Option.bind_eq_some_iff.mp readEnd
  cases same
  refine ⟨rest, readFound, ?_⟩
  unfold Phrase.noneLeft at atEnd
  split at atEnd
  · rename_i empty
    rw [← (reaches_seen rest).2, List.isEmpty_iff.mp empty, stream]
  · cases atEnd

/-- Trees that are one leaf that passes a test. -/
structure IsLeafThat (test : Leaf → Bool) (trees : List TokenTree) : Prop where
  exact : Exact True trees
  leaf : ∃ leaf span, trees = [.leaf leaf span] ∧ test leaf = true

/-- Trees that are one word. -/
structure IsOneWord (text : String) (trees : List TokenTree) : Prop where
  isWord : IsWordText text.toList
  single : ∃ span, trees = [.leaf (.word text) span]

theorem IsOneWord.exact {calm : Prop} {text : String} {trees : List TokenTree} (one : IsOneWord text trees) :
    Exact calm trees := by
  obtain ⟨isWord, span, rfl⟩ := one
  exact .single (.word isWord) rfl

theorem IsWordText.beginsOperator_eq {text : String} (isWord : IsWordText text.toList) :
    (Token.leaf (.word text)).beginsOperator = false := by
  obtain ⟨first, letters, spelled, goesOn, _⟩ := isWord.exists_cons
  rw [Token.beginsOperator, Token.text, Leaf.text, spelled, List.head?_cons, Option.any_some]
  rw [Bool.eq_false_iff]
  intro operator
  rw [isOperator_eq, List.contains_iff_mem] at operator
  rw [isIdentContinue_of_mem_operators operator] at goesOn
  cases goesOn

theorem Exact.imp {calm calmer : Prop} {trees : List TokenTree} (exact : Exact calm trees) (implies : calmer → calm) :
    Exact calmer trees :=
  ⟨exact.sound, fun isCalm => exact.tied (implies isCalm)⟩

theorem Exact.anyway {calm : Prop} {trees : List TokenTree} (exact : Exact True trees) : Exact calm trees :=
  exact.imp fun _ => trivial

namespace Stands
variable {setting : Setting} {start here rest : List TokenTree} {tree : TokenTree}

theorem atSeen (stands : Stands setting start here) (same : seen here = tree :: rest) :
    Stands setting start (tree :: rest) := by
  rw [← same]
  exact stands.pass (.seen here)

theorem ahead_eq (same : seen here = tree :: rest) (setting : Setting) :
    setting.ahead here = setting.ahead (tree :: rest) := by
  rw [← same, setting.ahead_seen]

theorem stream_eq (same : seen here = tree :: rest) : stream here = tree.ownStream ++ stream rest := by
  rw [← (reaches_seen here).2, same, stream]

/-- Behind what is ahead comes what a reader is left with. -/
theorem reaches (same : seen here = tree :: rest) : ComesTo here rest := by
  have sight := (reaches_seen here).1
  rw [same] at sight
  exact sight.trans (.past tree (.here rest))

/-- A tree may be taken if something else may follow it. -/
theorem take (same : seen here = tree :: rest) (closed : Token.AreClosed tree.ownStream) (filled : tree.ownStream ≠ []) :
    Passes here rest ∧ (stream rest).length < (stream here).length := by
  refine ⟨⟨reaches same, tree.ownStream, stream_eq same, closed⟩, ?_⟩
  have some := List.length_pos_iff.mpr filled
  rw [stream_eq same, List.length_append]
  omega

/-- So may two of them, whatever the first one is joined to. -/
theorem takeTwo {behind : List TokenTree} {next : TokenTree} (same : seen here = tree :: behind)
    (sameNext : seen behind = next :: rest) (closed : Token.AreClosed next.ownStream) (filled : next.ownStream ≠ []) :
    Passes here rest ∧ (stream rest).length < (stream here).length := by
  have whole : stream here = (tree.ownStream ++ next.ownStream) ++ stream rest := by
    rw [stream_eq same, stream_eq sameNext, List.append_assoc]
  refine ⟨⟨(reaches same).trans (reaches sameNext), _, whole, closed.behind filled _⟩, ?_⟩
  have some := List.length_pos_iff.mpr filled
  rw [whole, List.length_append, List.length_append]
  omega

/-- A leaf that nothing has to follow is read again by itself. -/
theorem fits {leaf : Leaf} {span : Span} (stands : Stands setting start here) (same : seen here = .leaf leaf span :: rest)
    (closed : (Token.leaf leaf).dangles = false) : Fits (.leaf leaf) [] :=
  (@Settled.before_closed [.leaf leaf] _ (stands.atSeen same).ahead.settled (.single closed)).head

/-- What begins with the leaf that is ahead may be written behind anything. -/
theorem solid {leaf : Leaf} {span : Span} (same : seen here = .leaf leaf span :: rest) {trees : List TokenTree}
    (exact : Exact setting.calm trees)
    (begins : (Token.leaf leaf).beginsOperator = true → Token.leads false (flatten trees) = true) :
    Solid setting here trees :=
  ⟨exact, fun _ leads => begins (by rwa [ahead_eq same] at leads)⟩

end Stands

namespace Advances
variable {α β : Type} {setting : Setting} {start here : List TokenTree} {post : α → Prop}
  {reader : Reading TokenTree α}

/-- A leaf that is no operator may be taken. -/
theorem leafThat_exact {test : Leaf → Bool} (noMark : ∀ c joint, test (.mark c joint) = false) :
    Advances setting start here (Phrase.leafThat test) fun found _ => IsLeafThat test found ∧ Solid setting here found := by
  intro stands value there read
  dsimp only [Phrase.leafThat, Phrase.inSight] at read
  split at read
  · rename_i leaf span rest same
    split at read
    · rename_i passes
      cases read
      have plain : (Token.leaf leaf).dangles = false ∧ (Token.leaf leaf).joins = false := by
        cases leaf with
        | word | literal => exact ⟨rfl, rfl⟩
        | mark c joint =>
          rw [noMark] at passes
          cases passes
      obtain ⟨further, shorter⟩ := Stands.take same (.single plain.1) (List.cons_ne_nil _ _)
      have exact {calm : Prop} : Exact calm [.leaf leaf span] := .single (stands.fits same plain.1) plain.2
      exact ⟨⟨⟨⟨exact, leaf, span, rfl, passes⟩, Stands.solid same exact id⟩, shorter⟩, further⟩
    · cases read
  · cases read

/-- A word is no operator. -/
theorem wordThat {test : Leaf → Bool} (words : ∀ leaf, test leaf = true → ∃ text, leaf = .word text) :
    Advances setting start here (Phrase.leafThat test) fun found _ =>
      (∃ text, IsOneWord text found ∧ test (.word text) = true) ∧ Solid setting here found ∧
        setting.ahead here = false := by
  intro stands value there read
  dsimp only [Phrase.leafThat, Phrase.inSight] at read
  split at read
  · rename_i leaf span rest same
    split at read
    · rename_i passes
      cases read
      obtain ⟨text, rfl⟩ := words leaf passes
      obtain ⟨further, shorter⟩ := Stands.take same (.single rfl) (List.cons_ne_nil _ _)
      have fits := stands.fits same rfl
      have isWord : IsWordText text.toList := by
        cases fits
        assumption
      refine ⟨⟨⟨⟨text, ⟨isWord, span, rfl⟩, passes⟩, Stands.solid same (.single fits rfl) id, ?_⟩, shorter⟩, further⟩
      rw [Stands.ahead_eq same]
      exact isWord.beginsOperator_eq
    · cases read
  · cases read

theorem word_single (text : String) : Advances setting start here (Phrase.word text) fun found _ =>
    IsOneWord text found ∧ Solid setting here found ∧ setting.ahead here = false := by
  refine (wordThat fun leaf passes => ?_).imp fun found _ ⟨⟨own, single, passes⟩, solid, noOperator⟩ => ?_
  · cases leaf with
    | word own => exact ⟨own, rfl⟩
    | literal | mark => cases passes
  · obtain rfl : own = text := beq_iff_eq.mp passes
    exact ⟨single, solid, noOperator⟩

theorem name_single : Advances setting start here Phrase.name fun found _ =>
    (∃ text, IsOneWord text found ∧ isName text = true) ∧ Solid setting here found ∧ setting.ahead here = false := by
  refine wordThat fun leaf passes => ?_
  cases leaf with
  | word text => exact ⟨text, rfl⟩
  | literal | mark => cases passes

theorem leafThat_solid {test : Leaf → Bool} (noMark : ∀ c joint, test (.mark c joint) = false) :
    Advances setting start here (Phrase.leafThat test) fun found _ => Solid setting here found :=
  (leafThat_exact noMark).imp fun _ _ found => found.2

theorem leafThat {test : Leaf → Bool} (noMark : ∀ c joint, test (.mark c joint) = false) :
    Advances setting start here (Phrase.leafThat test) (Written setting here) :=
  (leafThat_solid noMark).imp fun _ _ solid => solid.written

private theorem markChars {here : List TokenTree} {c : Char} {chars : List Char}
    (plain : ∀ d ∈ c :: chars, isPlainOperator d = true) :
    Advances setting start here (Phrase.markChars (c :: chars)) fun found _ =>
      Exact True found ∧ Token.leads false (flatten found) = true := by
  intro stands value there read
  have own := plain c List.mem_cons_self
  obtain ⟨operator, _, noQuote⟩ := isPlainOperator_iff.mp own
  obtain ⟨joint, span, left, others, same, _, readOthers, rfl⟩ := exists_of_markChars read
  obtain ⟨further, shorter⟩ := Stands.take same (.single (dangles_operator own joint)) (List.cons_ne_nil _ _)
  have sound : Sound [.leaf (.mark c !chars.isEmpty) span] := .single (.operator own)
  cases chars with
  | nil =>
    cases readOthers
    exact ⟨⟨⟨.single (.operator own) rfl, operator⟩, shorter⟩, further⟩
  | cons d chars =>
    have plainMore : ∀ e ∈ d :: chars, isPlainOperator e = true :=
      fun e mem => plain e (List.mem_cons_of_mem _ mem)
    obtain ⟨⟨⟨exactMore, leads⟩, shorterMore⟩, passes⟩ := markChars plainMore (stands.pass further) _ _ readOthers
    refine ⟨⟨⟨⟨sound.append exactMore.sound, fun _ => ⟨fun _ => leads, exactMore.tied trivial⟩⟩, operator⟩, ?_⟩,
      further.trans passes⟩
    exact Nat.lt_trans shorterMore shorter

/-- An operator without slashes may be taken. -/
theorem mark_exact {text : String} (plain : isPlainSign text = true) :
    Advances setting start here (Phrase.mark text) fun found _ =>
      Exact True found ∧ Token.leads false (flatten found) = true := by
  unfold isPlainSign at plain
  rw [Phrase.mark]
  cases same : text.toList with
  | nil =>
    rw [same] at plain
    cases plain
  | cons c chars =>
    rw [same] at plain
    simp only [List.isEmpty_cons, Bool.not_false, Bool.true_and, List.all_eq_true] at plain
    exact markChars plain

theorem mark_solid {text : String} (plain : isPlainSign text = true) :
    Advances setting start here (Phrase.mark text) fun found _ => Solid setting here found :=
  (mark_exact plain).imp fun _ _ found => ⟨found.1.anyway, fun _ _ => found.2⟩

theorem mark {text : String} (plain : isPlainSign text = true) :
    Advances setting start here (Phrase.mark text) (Written setting here) :=
  (mark_solid plain).imp fun _ _ solid => solid.written

theorem lifetime : Advances setting start here Phrase.lifetime fun found _ => Solid setting here found := by
  intro stands value there read
  dsimp only [Phrase.lifetime, Phrase.inSight] at read
  split at read
  · rename_i quoteSpan behind same
    split at read
    · rename_i text span rest sameToo
      cases read
      have settled : Settled (.leaf (.mark '\'' true) :: stream behind) := (stands.atSeen same).ahead.settled
      rw [Stands.stream_eq sameToo] at settled
      have closed : Token.AreClosed [.leaf (.mark '\'' true), .leaf (.word text)] :=
        Token.AreClosed.behind (List.cons_ne_nil _ _) (.single rfl) [_]
      have sound : Sound [.leaf (.mark '\'' true) quoteSpan, .leaf (.word text) span] :=
        @Settled.before_closed [_, _] _ settled closed
      obtain ⟨further, shorter⟩ := Stands.takeTwo same sameToo (.single rfl) (List.cons_ne_nil _ _)
      exact ⟨⟨Stands.solid same ⟨sound, fun _ => .cons rfl (.cons rfl .nil)⟩ id, shorter⟩, further⟩
    · cases read
  · cases read

theorem literal : Advances setting start here Phrase.literal fun found _ => Solid setting here found := by
  intro stands value there read
  dsimp only [Phrase.literal, Phrase.inSight] at read
  split at read
  · rename_i text span rest same
    cases read
    obtain ⟨further, shorter⟩ := Stands.take same (.single rfl) (List.cons_ne_nil _ _)
    exact ⟨⟨Stands.solid same (.single (stands.fits same rfl) rfl) id, shorter⟩, further⟩
  · rename_i text span rest same
    split at read
    · cases read
      obtain ⟨further, shorter⟩ := Stands.take same (.single rfl) (List.cons_ne_nil _ _)
      exact ⟨⟨Stands.solid same (.single (stands.fits same rfl) rfl) id, shorter⟩, further⟩
    · cases read
  · rename_i joint markSpan behind same
    split at read
    · rename_i text span rest sameToo
      split at read
      · cases read
        obtain ⟨further, shorter⟩ := Stands.takeTwo same sameToo (.single rfl) (List.cons_ne_nil _ _)
        have settled : Settled (.leaf (.mark '-' joint) :: stream behind) := (stands.atSeen same).ahead.settled
        rw [Stands.stream_eq sameToo] at settled
        have fits := (@Settled.before_closed [.leaf (.literal text)] _ settled.tail (.single rfl)).head
        have minus : Exact setting.calm [.leaf (.mark '-' false) markSpan] := .single (.operator (by decide)) rfl
        exact ⟨⟨Stands.solid same (minus.append (.single fits rfl)) id, shorter⟩, further⟩
      · cases read
    · cases read
  · cases read

/-- A group of the source is read as it stands. -/
private theorem group_solid {delimiter : Delimiter} {content rest : List TokenTree} {span : Span}
    (stands : Stands setting start here) (same : seen here = .group delimiter content span :: rest) :
    (Solid setting here [.group delimiter content span] ∧ (stream rest).length < (stream here).length) ∧
      Passes here rest := by
  have stable := (stands.atSeen same).ahead.content
  have closed : Token.AreClosed (TokenTree.group delimiter content span).ownStream :=
    Token.AreClosed.behind (List.cons_ne_nil _ _) (.single rfl) (.opening delimiter :: stream content)
  obtain ⟨further, shorter⟩ := Stands.take same closed (List.cons_ne_nil _ _)
  refine ⟨⟨⟨.group delimiter ⟨stable.sound, fun isCalm => ?_⟩, fun _ leads => ?_⟩, shorter⟩, further⟩
  · exact (loosened_flatten content stable.areSealed).tied (stable.tied isCalm)
  · rwa [Stands.ahead_eq same] at leads

/-- So is its content by itself. -/
theorem anyGroup_content : Advances setting start here Phrase.anyGroup fun found _ => Solid setting here found ∧
    ∀ delimiter content span, found = [.group delimiter content span] → Stable setting.inside content := by
  intro stands value there read
  unfold Phrase.anyGroup at read
  split at read
  · cases read
    obtain ⟨⟨solid, shorter⟩, further⟩ := group_solid stands rfl
    refine ⟨⟨⟨solid, fun _ _ _ same => ?_⟩, shorter⟩, further⟩
    cases same
    exact stands.ahead.content
  · cases read

theorem anyGroup : Advances setting start here Phrase.anyGroup fun found _ => Solid setting here found :=
  anyGroup_content.imp fun _ _ found => found.1

theorem groupOf (delimiter : Delimiter) :
    Advances setting start here (Phrase.groupOf delimiter) fun found _ => Solid setting here found := by
  intro stands value there read
  dsimp only [Phrase.groupOf, Phrase.inSight] at read
  split at read
  · rename_i found content span rest same
    split at read
    · cases read
      exact group_solid stands same
    · cases read
  · cases read

/-- The content of a group is a source by itself. -/
theorem insideOf (delimiter : Delimiter) {post : List TokenTree → α → Prop}
    (careful : ∀ content, Stable setting.inside content → ∀ value rest, reader content = some (value, rest) →
      stream rest = [] → post content value) :
    Advances setting start here (Phrase.inside delimiter reader) fun found there => setting.ahead here = false ∧
      ∃ content, Stable setting.inside content ∧ post content found.1 ∧
        stream here = .opening delimiter :: (stream content ++ .closing delimiter :: stream there) := by
  intro stands value there read
  dsimp only [Phrase.inside, Phrase.inSight] at read
  split at read
  · rename_i kind content span rest same
    split at read
    · rename_i asked
      obtain ⟨inner, whole, found⟩ := Option.map_eq_some_iff.mp read
      cases found
      obtain ⟨left, readInner, nothing⟩ := exists_of_whole whole
      have stable := (stands.atSeen same).ahead.content
      obtain ⟨⟨_, shorter⟩, further⟩ := group_solid stands same
      refine ⟨⟨⟨?_, content, stable, careful content stable inner left readInner nothing, ?_⟩, shorter⟩, further⟩
      · rw [Stands.ahead_eq same]
        cases kind <;> rfl
      · rw [Stands.stream_eq same, ownStream, asked]
        simp
    · cases read
  · cases read

theorem inside (delimiter : Delimiter) (careful : ∀ content, Careful setting.inside content content reader
      fun value rest => stream rest = [] → post value) :
    Advances setting start here (Phrase.inside delimiter reader) fun found _ =>
      post found.1 ∧ setting.ahead here = false := by
  refine (insideOf delimiter fun content stable value rest read =>
    (careful content (.refl stable) value rest read).1).imp ?_
  intro found there ⟨noOperator, content, _, holds, _⟩
  exact ⟨holds, noOperator⟩

end Advances

/-! ### One after another -/

namespace Careful
variable {α β : Type} {setting : Setting} {start here : List TokenTree} {post mid : α → List TokenTree → Prop}
  {after : β → List TokenTree → Prop} {reader other : Reading TokenTree α} {onward : α → Reading TokenTree β}

theorem pure {value : α} (holds : post value here) : Careful setting start here (Pure.pure value) post := by
  intro stands _ there read
  cases read
  exact ⟨holds, .refl here⟩

theorem fail : Careful setting start here (failure : Reading TokenTree α) post := by
  intro _ value there read
  cases read

theorem bind (careful : Careful setting start here reader mid)
    (further : ∀ {there} value, mid value there → Careful setting start there (onward value) after) :
    Careful setting start here (reader >>= onward) after := by
  intro stands value there read
  obtain ⟨⟨first, between⟩, readFirst, readRest⟩ := Option.bind_eq_some_iff.mp read
  obtain ⟨holds, passes⟩ := careful stands first between readFirst
  obtain ⟨holdsRest, passesRest⟩ := further first holds (stands.pass passes) value there readRest
  exact ⟨holdsRest, passes.trans passesRest⟩

theorem map {write : α → β} (careful : Careful setting start here reader mid)
    (holds : ∀ {there} value, mid value there → after (write value) there) :
    Careful setting start here (write <$> reader) after := by
  intro stands value there read
  obtain ⟨⟨first, between⟩, readFirst, same⟩ := Option.bind_eq_some_iff.mp read
  cases same
  obtain ⟨holdsFirst, passes⟩ := careful stands first there readFirst
  exact ⟨holds first holdsFirst, passes⟩

/-- What is known of the source at a place may be used there. -/
theorem known (careful : Stands setting start here → Careful setting start here reader post) :
    Careful setting start here reader post :=
  fun stands => careful stands stands

/-- What a question is answered with. -/
theorem asked {question : Ahead} {onward : Bool → Reading TokenTree β}
    (further : ∀ answer, question here = answer → Careful setting start here (onward answer) after) :
    Careful setting start here (Phrase.ask question >>= onward) after :=
  fun stands value there read => further (question here) rfl stands value there read

/-- Mostly it does not matter. -/
theorem ask {question : Ahead} {onward : Bool → Reading TokenTree β}
    (further : ∀ answer, Careful setting start here (onward answer) after) :
    Careful setting start here (Phrase.ask question >>= onward) after :=
  asked fun answer _ => further answer

/-- One of two readers under a condition. -/
theorem either {condition : Prop} [Decidable condition] (ifSo : condition → Careful setting start here reader post)
    (ifNot : ¬ condition → Careful setting start here other post) :
    Careful setting start here (if condition then reader else other) post := by
  split
  · rename_i holds
    exact ifSo holds
  · rename_i holds
    exact ifNot holds

theorem branch {condition : Prop} [Decidable condition] (ifSo : Careful setting start here reader post)
    (ifNot : Careful setting start here other post) :
    Careful setting start here (if condition then reader else other) post :=
  either (fun _ => ifSo) fun _ => ifNot

/-- A question that decides between two readers. -/
theorem choice {question : Ahead} (ifSo : Careful setting start here reader post)
    (ifNot : Careful setting start here other post) :
    Careful setting start here (Phrase.ask question >>= fun answer => if answer = true then reader else other) post :=
  ask fun _ => branch ifSo ifNot

/-- Readers that are chosen between, and what follows all of them. -/
theorem branchThen {condition : Prop} [Decidable condition] {others : Reading TokenTree β}
    (careful : Careful setting start here reader mid)
    (carefulOthers : (∀ {there} value, mid value there → Careful setting start there (onward value) after) →
      Careful setting start here others after)
    (further : ∀ {there} value, mid value there → Careful setting start there (onward value) after) :
    Careful setting start here (if condition then reader >>= onward else others) after :=
  branch (bind careful further) (carefulOthers further)

/-- A condition under which nothing is read. -/
theorem refuse {γ : Type} {condition : Prop} [Decidable condition] {unreached : γ → Reading TokenTree α}
    (careful : ¬ condition → Careful setting start here other post) :
    Careful setting start here (if condition then failure >>= unreached else other) post := by
  split
  · intro _ value there read
    cases read
  · rename_i holds
    exact careful holds

/-- What is read from a moment on may refer to it. -/
theorem peek {onward : List TokenTree → Reading TokenTree β}
    (further : Careful setting here here (onward here) after) :
    Careful setting start here (Reading.peek >>= onward) after :=
  fun stands value there read => further (.refl stands.ahead) value there read

/-- The content of an invisible group is a source by itself, in front of what follows the group. -/
theorem insideInvisible (careful : ∀ content span rest, here = .invisible content span :: rest →
      Careful (setting.before rest) content content reader fun value left => stream left = [] → post value rest) :
    Careful setting start here (Phrase.insideInvisible reader) fun found there => post found.1 there := by
  intro stands value there read
  unfold Phrase.insideInvisible at read
  split at read
  · rename_i content span rest
    obtain ⟨inner, whole, found⟩ := Option.map_eq_some_iff.mp read
    cases found
    obtain ⟨left, readInner, nothing⟩ := exists_of_whole whole
    have stable := stands.ahead
    obtain ⟨holds, _⟩ := careful content span there rfl (.refl stable.invisible) inner left readInner
    exact ⟨holds nothing, .one _ there stable.areSealed.1.1⟩
  · cases read

/-- Nothing may be left. -/
theorem atEnd {onward : Unit → Reading TokenTree β} (further : Careful setting start here (onward ()) after) :
    Careful setting start here (Reading.atEnd >>= onward) after := by
  intro stands value there read
  cases here with
  | nil => exact further stands value there read
  | cons => cases read

end Careful

/-! ### What takes something -/

namespace Advances
variable {α β : Type} {setting : Setting} {start here : List TokenTree} {post mid : α → List TokenTree → Prop}
  {after : β → List TokenTree → Prop} {reader other : Reading TokenTree α} {onward : α → Reading TokenTree β}

theorem fail : Advances setting start here (failure : Reading TokenTree α) post := Careful.fail

/-- The first of two readers takes something. -/
theorem first (advances : Advances setting start here reader mid)
    (further : ∀ {there} value, mid value there → Careful setting start there (onward value) after) :
    Advances setting start here (reader >>= onward) after := by
  refine Careful.bind advances fun value ⟨holds, shorter⟩ stands found there read => ?_
  obtain ⟨holdsRest, passes⟩ := further value holds stands found there read
  exact ⟨⟨holdsRest, Nat.lt_of_le_of_lt passes.length_le shorter⟩, passes⟩

/-- The second of two readers takes something. -/
theorem second (careful : Careful setting start here reader mid)
    (further : ∀ {there} value, mid value there → Advances setting start there (onward value) after) :
    Advances setting start here (reader >>= onward) after := by
  intro stands value there read
  obtain ⟨⟨found, between⟩, readFirst, readRest⟩ := Option.bind_eq_some_iff.mp read
  obtain ⟨holds, passes⟩ := careful stands found between readFirst
  obtain ⟨⟨holdsRest, shorter⟩, passesRest⟩ := further found holds (stands.pass passes) value there readRest
  exact ⟨⟨holdsRest, Nat.lt_of_lt_of_le shorter passes.length_le⟩, passes.trans passesRest⟩

theorem ask {question : Ahead} {onward : Bool → Reading TokenTree β}
    (further : ∀ answer, Advances setting start here (onward answer) after) :
    Advances setting start here (Phrase.ask question >>= onward) after :=
  Careful.ask further

theorem branch {condition : Prop} [Decidable condition] (ifSo : Advances setting start here reader post)
    (ifNot : Advances setting start here other post) :
    Advances setting start here (if condition then reader else other) post :=
  Careful.branch ifSo ifNot

theorem choice {question : Ahead} (ifSo : Advances setting start here reader post)
    (ifNot : Advances setting start here other post) :
    Advances setting start here (Phrase.ask question >>= fun answer => if answer = true then reader else other) post :=
  Careful.choice ifSo ifNot

theorem peek {onward : List TokenTree → Reading TokenTree β}
    (further : Advances setting here here (onward here) after) :
    Advances setting start here (Reading.peek >>= onward) after :=
  Careful.peek further

/-- What takes something in an invisible group takes the group. -/
theorem insideInvisible (advances : ∀ content span rest, here = .invisible content span :: rest →
      Advances (setting.before rest) content content reader fun value left => stream left = [] → post value rest) :
    Advances setting start here (Phrase.insideInvisible reader) fun found there => post found.1 there := by
  refine @Careful.insideInvisible _ _ _ _
    (fun value rest => post value rest ∧ (stream rest).length < (stream here).length) _ fun content span rest same => ?_
  refine Careful.imp (advances content span rest same) fun value left ⟨holds, shorter⟩ nothing => ⟨holds nothing, ?_⟩
  have whole : stream here = stream content ++ stream rest := by rw [same, stream, ownStream]
  rw [whole, List.length_append]
  exact Nat.lt_add_of_pos_left (Nat.lt_of_le_of_lt (Nat.zero_le _) shorter)

/-- What is written of the content of a group may stand in one. -/
theorem inside_solid (delimiter : Delimiter) (write : α → List TokenTree)
    (careful : ∀ content, Careful setting.inside content content reader fun value => Precedes setting.inside (write value)) :
    Advances setting start here (Phrase.inside delimiter reader) fun found _ =>
      Solid setting here [.group delimiter (write found.1) found.2] := by
  refine (inside delimiter fun content => (careful content).imp fun _ _ precedes nothing =>
    precedes.toEnd rfl nothing).imp fun found _ ⟨exact, noOperator⟩ => ?_
  exact Exact.solid (.group delimiter exact) noOperator

theorem enclosed_solid (delimiter : Delimiter) {phrase : Phrase}
    (careful : ∀ content, Careful setting.inside content content phrase (Precedes setting.inside)) :
    Advances setting start here (Phrase.enclosed delimiter phrase) fun found _ => Solid setting here found :=
  first (inside_solid delimiter id careful) fun _ solid => .pure solid

end Advances

/-! ### Phrases -/

namespace Careful
variable {α β : Type} {setting : Setting} {start here : List TokenTree} {post : α → List TokenTree → Prop}
  {reader : Reading TokenTree α} {phrase : Phrase} {phrases : List Phrase} {beginning : Reading TokenTree β}

theorem leafThat {test : Leaf → Bool} (noMark : ∀ c joint, test (.mark c joint) = false) :
    Careful setting start here (Phrase.leafThat test) (Written setting here) :=
  (Advances.leafThat noMark).careful

theorem word (text : String) : Careful setting start here (Phrase.word text) (Written setting here) :=
  leafThat fun _ _ => rfl

theorem oneWordOf (texts : List String) : Careful setting start here (Phrase.oneWordOf texts) (Written setting here) :=
  leafThat fun _ _ => rfl

theorem anyWord : Careful setting start here Phrase.anyWord (Written setting here) := leafThat fun _ _ => rfl

theorem name : Careful setting start here Phrase.name (Written setting here) := leafThat fun _ _ => rfl

theorem mark {text : String} (plain : isPlainSign text = true) :
    Careful setting start here (Phrase.mark text) (Written setting here) :=
  (Advances.mark plain).careful

theorem lifetime : Careful setting start here Phrase.lifetime (Written setting here) :=
  Advances.lifetime.careful.imp fun _ _ solid => solid.written

theorem literal : Careful setting start here Phrase.literal (Written setting here) :=
  Advances.literal.careful.imp fun _ _ solid => solid.written

theorem groupOf (delimiter : Delimiter) : Careful setting start here (Phrase.groupOf delimiter) (Written setting here) :=
  (Advances.groupOf delimiter).careful.imp fun _ _ solid => solid.written

theorem precedes {phrase : Phrase} (careful : Careful setting start here phrase (Written setting here)) :
    Careful setting start here phrase (Precedes setting) :=
  careful.imp fun _ _ written => written.toPrecedes

/-- A reader that is given as many steps as the trees ahead need. -/
theorem fuelled {steps : List TokenTree → Nat} {reader : Nat → Reading TokenTree α}
    (careful : ∀ fuel, Careful setting start here (reader fuel) post) :
    Careful setting start here (fun trees => reader (steps trees) trees) post :=
  careful (steps here)

/-- What is true of nothing, and stays true behind one more, is true of as many as are ahead. -/
theorem each {beginning : Reading TokenTree β} {post : List TokenTree → α → List TokenTree → Prop}
    (whole : List TokenTree → List α → List TokenTree → Prop) (nothing : ∀ here, whole here [] here)
    (more : ∀ {here between there first others},
      post here first between → whole between others there → whole here (first :: others) there)
    (careful : ∀ {here}, Careful setting start here reader (post here)) :
    Careful setting start here (Phrase.each beginning reader) (whole here) := by
  refine fuelled fun fuel => ?_
  induction fuel generalizing here with
  | zero => exact fail
  | succ fuel ih =>
    refine choice ?_ (pure (nothing here))
    exact bind careful fun first holds => bind ih fun others all => pure (more holds all)

theorem enclosed_solid (delimiter : Delimiter)
    (careful : ∀ content, Careful setting.inside content content phrase (Precedes setting.inside)) :
    Careful setting start here (Phrase.enclosed delimiter phrase) fun found _ => Solid setting here found :=
  (Advances.enclosed_solid delimiter careful).careful

theorem enclosed (delimiter : Delimiter)
    (careful : ∀ content, Careful setting.inside content content phrase (Precedes setting.inside)) :
    Careful setting start here (Phrase.enclosed delimiter phrase) (Written setting here) :=
  (enclosed_solid delimiter careful).imp fun _ _ solid => solid.written

/-- A phrase and what follows it. -/
theorem inOrder_cons (careful : Careful setting start here phrase (Written setting here))
    (others : ∀ {there}, Careful setting start there (Phrase.inOrder phrases) (Written setting there)) :
    Careful setting start here (Phrase.inOrder (phrase :: phrases)) (Written setting here) :=
  bind careful fun _ written => bind others fun _ further => pure (written.append further)

/-- Behind what is solid something may be left out. -/
theorem inOrder_solid (careful : Careful setting start here phrase fun found _ => Solid setting here found)
    (others : ∀ {there}, Careful setting start there (Phrase.inOrder phrases) (Precedes setting)) :
    Careful setting start here (Phrase.inOrder (phrase :: phrases)) (Written setting here) :=
  bind careful fun _ solid => bind others fun _ precedes => pure (solid.append_precedes precedes)

theorem inOrder_exact (careful : Careful setting start here phrase fun found _ => Exact setting.calm found)
    (others : ∀ {there}, Careful setting start there (Phrase.inOrder phrases) (Precedes setting)) :
    Careful setting start here (Phrase.inOrder (phrase :: phrases)) (Precedes setting) :=
  bind careful fun _ exact => bind others fun _ precedes => pure (exact.append_precedes precedes)

theorem inOrder_precedes (careful : Careful setting start here phrase (Precedes setting))
    (others : ∀ {there}, Careful setting start there (Phrase.inOrder phrases) (Written setting there)) :
    Careful setting start here (Phrase.inOrder (phrase :: phrases)) (Precedes setting) :=
  bind careful fun _ precedes => bind others fun _ written => pure (precedes.append written)

/-! What ends with something solid may have anything behind it. -/

theorem exact_nothing : Careful setting start here (Phrase.inOrder []) fun found _ => Exact setting.calm found := pure .nil

theorem exact_then (careful : Careful setting start here phrase fun found _ => Exact setting.calm found)
    (others : ∀ {there}, Careful setting start there (Phrase.inOrder phrases) fun found _ => Exact setting.calm found) :
    Careful setting start here (Phrase.inOrder (phrase :: phrases)) fun found _ => Exact setting.calm found :=
  bind careful fun _ exact => bind others fun _ further => pure (exact.append further)

theorem solid_then (careful : Careful setting start here phrase fun found _ => Solid setting here found)
    (others : ∀ {there}, Careful setting start there (Phrase.inOrder phrases) fun found _ => Exact setting.calm found) :
    Careful setting start here (Phrase.inOrder (phrase :: phrases)) fun found _ => Solid setting here found :=
  bind careful fun _ solid => bind others fun _ exact => pure (solid.append_exact exact)

theorem solid_behind (careful : Careful setting start here phrase (Written setting here))
    (others : ∀ {there}, Careful setting start there (Phrase.inOrder phrases) fun found _ => Solid setting there found) :
    Careful setting start here (Phrase.inOrder (phrase :: phrases)) fun found _ => Solid setting here found :=
  bind careful fun _ written => bind others fun _ solid => pure (written.append_solid solid)

theorem name_solid : Careful setting start here Phrase.name fun found _ => Solid setting here found :=
  (Advances.leafThat_solid fun _ _ => rfl).careful

theorem word_solid (text : String) : Careful setting start here (Phrase.word text) fun found _ => Solid setting here found :=
  (Advances.leafThat_solid fun _ _ => rfl).careful

/-- A phrase that may be missing. -/
theorem ifNextOr {post : List TokenTree → List TokenTree → Prop} (careful : Careful setting start here phrase post)
    (nothing : post [] here) : Careful setting start here (Phrase.ifNext beginning phrase) post :=
  choice careful (pure nothing)

end Careful

/-- A property of what is written between two places that is true of nothing, and of things behind one another. -/
structure Composes (property : List TokenTree → List TokenTree → List TokenTree → Prop) : Prop where
  nil (here : List TokenTree) : property here [] here
  append {here trees between more there : List TokenTree} : property here trees between →
    property between more there → property here (trees ++ more) there

theorem Written.composes (setting : Setting) : Composes (Written setting) := ⟨fun _ => .nil, .append⟩

namespace Composes
variable {β : Type} {setting : Setting} {start here : List TokenTree} {phrase : Phrase} {phrases : List Phrase}
  {beginning : Reading TokenTree β} {property : List TokenTree → List TokenTree → List TokenTree → Prop}
  (composes : Composes property)
include composes

theorem inOrder (careful : phrases.Forall fun phrase => ∀ {here}, Careful setting start here phrase (property here)) :
    Careful setting start here (Phrase.inOrder phrases) (property here) := by
  induction phrases generalizing here with
  | nil => exact .pure (composes.nil here)
  | cons phrase phrases ih =>
    rw [List.forall_cons] at careful
    exact .bind careful.1 fun first holds => .bind (ih careful.2) fun others further => .pure (composes.append holds further)

theorem ifNext (careful : Careful setting start here phrase (property here)) :
    Careful setting start here (Phrase.ifNext beginning phrase) (property here) :=
  .ifNextOr careful (composes.nil here)

theorem perhaps (careful : Careful setting start here phrase (property here)) :
    Careful setting start here (Phrase.perhaps phrase) (property here) :=
  composes.ifNext careful

theorem whileNext (careful : ∀ {here}, Careful setting start here phrase (property here)) :
    Careful setting start here (Phrase.whileNext beginning phrase) (property here) :=
  .bind (.each (fun here found there => property here found.flatten there) composes.nil composes.append careful)
    fun _ holds => .pure holds

end Composes

namespace Careful
variable {α β : Type} {setting : Setting} {start here : List TokenTree} {post : α → List TokenTree → Prop}
  {reader : Reading TokenTree α} {phrase : Phrase} {phrases : List Phrase} {beginning : Reading TokenTree β}

theorem inOrder (careful : phrases.Forall fun phrase => ∀ {here}, Careful setting start here phrase (Written setting here)) :
    Careful setting start here (Phrase.inOrder phrases) (Written setting here) :=
  (Written.composes setting).inOrder careful

theorem ifNext (careful : Careful setting start here phrase (Written setting here)) :
    Careful setting start here (Phrase.ifNext beginning phrase) (Written setting here) :=
  (Written.composes setting).ifNext careful

theorem perhaps (careful : Careful setting start here phrase (Written setting here)) :
    Careful setting start here (Phrase.perhaps phrase) (Written setting here) :=
  (Written.composes setting).perhaps careful

theorem whileNext (careful : ∀ {here}, Careful setting start here phrase (Written setting here)) :
    Careful setting start here (Phrase.whileNext beginning phrase) (Written setting here) :=
  (Written.composes setting).whileNext careful

/-- What is true of nothing and of one thing, and stays true behind one more with its separator, is true of as
many as are taken. -/
theorem items {stop : Ahead} {separator : String} {post : List TokenTree → α → List TokenTree → Prop}
    (whole : List TokenTree → List (α × List TokenTree) → List TokenTree → Prop) (plain : isPlainSign separator = true)
    (nothing : ∀ here, whole here [] here)
    (last : ∀ {here there found}, post here found there → whole here [(found, [])] there)
    (more : ∀ {here between beyond there first mark others}, post here first between → Solid setting between mark →
      whole beyond others there → whole here ((first, mark) :: others) there)
    (careful : ∀ {here}, Careful setting start here reader (post here)) :
    Careful setting start here (Phrase.itemsUntil stop separator reader) (whole here) := by
  refine fuelled fun fuel => ?_
  induction fuel generalizing here with
  | zero => exact fail
  | succ fuel ih =>
    refine choice (pure (nothing here)) (bind careful fun first holds => choice ?_ (pure (last holds)))
    exact bind (Advances.mark_solid plain).careful fun mark solid => bind ih fun others all => pure (more holds solid all)

/-- What is true of each by itself is true of all. -/
theorem itemsThat {stop : Ahead} {separator : String} {good : α → Prop} (plain : isPlainSign separator = true)
    (careful : ∀ {here}, Careful setting start here reader fun found _ => good found) :
    Careful setting start here (Phrase.itemsUntil stop separator reader) fun items _ => ∀ item ∈ items, good item.1 := by
  refine items (fun _ items _ => ∀ item ∈ items, good item.1) plain (fun _ _ mem => absurd mem List.not_mem_nil)
    (fun holds => List.forall_mem_singleton.mpr holds) (fun holds _ all => ?_) careful
  exact List.forall_mem_cons.mpr ⟨holds, all⟩

theorem itemsUntil {stop : Ahead} {separator : String} {write : α → List TokenTree}
    (plain : isPlainSign separator = true)
    (careful : ∀ {here}, Careful setting start here reader fun found => Written setting here (write found)) :
    Careful setting start here (Phrase.itemsUntil stop separator reader) (Listed setting write here) :=
  items (Listed setting write) plain .nil .last .cons careful

/-- What the things of a list begin with may be left out. -/
theorem itemsPrecede {stop : Ahead} {separator : String} {write : α → List TokenTree}
    (plain : isPlainSign separator = true)
    (careful : ∀ {here}, Careful setting start here reader fun found => Precedes setting (write found)) :
    Careful setting start here (Phrase.itemsUntil stop separator reader) fun items =>
      Precedes setting (Phrase.flat (items.map fun item => (write item.1, item.2))) := by
  refine items (fun _ items => Precedes setting (Phrase.flat (items.map fun item => (write item.1, item.2)))) plain
    (fun _ => Exact.nil.precedes) (fun precedes => ?_)
    (fun precedes solid all => (precedes.append_solid solid).append_precedes all) careful
  simpa [Phrase.flat] using precedes

theorem itemsToEnd {write : α → List TokenTree}
    (careful : ∀ {here}, Careful setting start here reader fun found => Written setting here (write found)) :
    Careful setting start here (Phrase.itemsToEnd reader) (Listed setting write here) :=
  bind (itemsUntil rfl careful) fun _ listed => atEnd (pure listed)

theorem sequence {stop : Ahead} {separator : String} (plain : isPlainSign separator = true)
    (careful : ∀ {here}, Careful setting start here phrase (Written setting here)) :
    Careful setting start here (Phrase.sequence stop separator phrase) (Written setting here) :=
  bind (@itemsUntil _ _ _ _ _ _ _ id plain careful) fun _ listed => pure listed.flat

theorem list (careful : ∀ {here}, Careful setting start here phrase (Written setting here)) :
    Careful setting start here (Phrase.list phrase) (Written setting here) :=
  bind (@itemsToEnd _ _ _ _ _ id careful) fun _ listed => pure listed.flat

/-! ### As it stands in the source -/

/-- What was passed may be written, since something else may follow it. -/
theorem since : Careful setting start here (Phrase.since start) (Written setting start) := by
  intro stands value there read
  cases read
  obtain ⟨⟨areSealed, settled, tied, _⟩, reaches, taken, same, closed⟩ := stands
  have cut := reaches.stream_eq
  have looser := loosened_flatten _ (areSealed_upTo start (totalSteps start - totalSteps here) areSealed)
  rw [List.append_cancel_right (cut.symm.trans same)] at looser
  rw [same] at settled tied
  refine ⟨⟨⟨looser.settled_iff.mpr (settled.before_closed closed), fun isCalm => ?_⟩, fun isCalm leads => ?_⟩, .refl here⟩
  · exact looser.tied (Tied.append_iff.mp (tied isCalm)).1
  · rw [looser.leads]
    rwa [Setting.ahead, same, Token.leads_append] at leads

theorem keptSince {kept : Bool} {trees : List TokenTree} (written : kept = false → Written setting start trees here) :
    Careful setting start here (Phrase.keptSince start kept trees) (Written setting start) := by
  cases kept with
  | true => exact since
  | false => exact pure (written rfl)

end Careful

namespace Advances
variable {setting : Setting} {start here : List TokenTree}

theorem word (text : String) : Advances setting start here (Phrase.word text) (Written setting here) :=
  leafThat fun _ _ => rfl

theorem enclosed (delimiter : Delimiter) {phrase : Phrase}
    (careful : ∀ content, Careful setting.inside content content phrase (Precedes setting.inside)) :
    Advances setting start here (Phrase.enclosed delimiter phrase) (Written setting here) :=
  (enclosed_solid delimiter careful).imp fun _ _ solid => solid.written

theorem inOrder {phrase : Phrase} {phrases : List Phrase}
    (advances : Advances setting start here phrase (Written setting here))
    (careful : phrases.Forall fun phrase => ∀ {here}, Careful setting start here phrase (Written setting here)) :
    Advances setting start here (Phrase.inOrder (phrase :: phrases)) (Written setting here) := by
  refine first advances fun first written => ?_
  refine .bind (.inOrder careful) fun others further => ?_
  exact .pure (written.append further)

/-- One of the later phrases takes something. -/
theorem behind {phrase : Phrase} {phrases : List Phrase}
    (careful : Careful setting start here phrase (Written setting here))
    (advances : ∀ {there}, Advances setting start there (Phrase.inOrder phrases) (Written setting there)) :
    Advances setting start here (Phrase.inOrder (phrase :: phrases)) (Written setting here) :=
  second careful fun _ written => first advances fun _ further => .pure (written.append further)

end Advances
end SlotArray.Source
