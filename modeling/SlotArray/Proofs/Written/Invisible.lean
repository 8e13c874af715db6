import Mathlib.Data.List.Forall2
import SlotArray.Proofs.Written.Joints

/-! Invisible groups. A reader comes to what stands in one as if it stood by itself, but where such a group
is written, nothing is joined to its end. What a reader passes is cut out of the source by the number of
its steps; the groups that it leads through as a whole are kept there. -/
namespace SlotArray.Source
open TokenTree

/-! ## Marks that lose what they are joined to -/

/-- A token, or a character of an operator in its place that is joined to nothing any more. -/
def Token.Loosens (token loose : Token) : Prop :=
  loose = token ∨
    ∃ char, char ≠ '/' ∧ char ≠ '\'' ∧ token = .leaf (.mark char true) ∧ loose = .leaf (.mark char false)

namespace Token.Loosens
variable {token loose : Token}

theorem refl (token : Token) : token.Loosens token := .inl rfl

theorem text (loosens : token.Loosens loose) : loose.text = token.text := by
  rcases loosens with rfl | ⟨char, _, _, rfl, rfl⟩ <;> rfl

theorem beginsOperator (loosens : token.Loosens loose) : loose.beginsOperator = token.beginsOperator := by
  rw [Token.beginsOperator, Token.beginsOperator, loosens.text]

theorem joins (loosens : token.Loosens loose) (joins : loose.joins = true) : token.joins = true := by
  rcases loosens with rfl | ⟨char, _, _, rfl, rfl⟩
  · exact joins
  · cases joins

end Token.Loosens

/-- Tokens some of whose operators end earlier. -/
abbrev Loosened (tokens loose : List Token) : Prop := List.Forall₂ Token.Loosens tokens loose

namespace Loosened
variable {tokens loose : List Token}

theorem leads (loosened : Loosened tokens loose) (operator : Bool) :
    Token.leads operator loose = Token.leads operator tokens := by
  cases loosened with
  | nil => rfl
  | cons first _ => exact first.beginsOperator

theorem tied {operator : Bool} (loosened : Loosened tokens loose) (tied : Tied operator tokens) :
    Tied operator loose := by
  induction loosened with
  | nil => exact .nil
  | cons first rest ih => exact ⟨fun joins => (leads rest operator).trans (tied.1 (first.joins joins)), ih tied.2⟩

end Loosened

/-- Tokens that differ at most in what a character of an operator is joined to, if it may be joined to anything. -/
inductive Token.Alike : Token → Token → Prop where
  | same (token : Token) : Alike token token
  | marks {char : Char} (noSlash : char ≠ '/') (noQuote : char ≠ '\'') (joint now : Bool) :
      Alike (.leaf (.mark char joint)) (.leaf (.mark char now))

theorem Token.Alike.symm {token other : Token} (alike : token.Alike other) : other.Alike token := by
  cases alike with
  | same => exact .same _
  | marks noSlash noQuote => exact .marks noSlash noQuote _ _

theorem Token.Loosens.alike {token loose : Token} (loosens : token.Loosens loose) : token.Alike loose := by
  rcases loosens with rfl | ⟨char, noSlash, noQuote, rfl, rfl⟩
  · exact .same _
  · exact .marks noSlash noQuote _ _

/-- A leaf is as good as another one behind a slash or a quote. -/
private theorem exists_leaf_of_alike {leaf : Leaf} {other : Token} (alike : Token.Alike (.leaf leaf) other) :
    ∃ now, other = .leaf now ∧ (FollowsSlash leaf → FollowsSlash now) ∧ (FollowsQuote leaf → FollowsQuote now) := by
  cases alike with
  | same => exact ⟨leaf, rfl, id, id⟩
  | marks => exact ⟨_, rfl, id, fun follows => absurd rfl (follows.noMark _ _)⟩

private theorem Fits.alike {token other : Token} {tokens others : List Token} (fits : Fits token tokens)
    (alike : token.Alike other) (alikeRest : List.Forall₂ Token.Alike tokens others) : Fits other others := by
  cases alike with
  | marks noSlash noQuote =>
    cases fits with
    | operator plain => exact .operator plain
    | slash | joinedSlash => exact absurd rfl noSlash
    | quote => exact absurd rfl noQuote
  | same =>
    cases fits with
    | opening => exact .opening
    | closing => exact .closing
    | word isWord => exact .word isWord
    | literal isLiteral => exact .literal isLiteral
    | operator plain => exact .operator plain
    | slash => exact .slash
    | joinedSlash follows =>
      cases alikeRest with
      | cons first _ =>
        obtain ⟨now, rfl, slash, _⟩ := exists_leaf_of_alike first
        exact .joinedSlash (slash follows)
    | quote follows =>
      cases alikeRest with
      | cons first _ =>
        obtain ⟨now, rfl, _, quote⟩ := exists_leaf_of_alike first
        exact .quote (quote follows)

/-- Tokens stay settled when operators end elsewhere. -/
theorem Settled.alike {tokens others : List Token} (settled : Settled tokens)
    (alike : List.Forall₂ Token.Alike tokens others) : Settled others := by
  induction alike with
  | nil => exact .nil
  | cons first rest ih => exact .cons (settled.head.alike first rest) (ih settled.tail)

namespace Loosened
variable {tokens loose : List Token}

theorem settled_iff (loosened : Loosened tokens loose) : Settled loose ↔ Settled tokens := by
  have alike : List.Forall₂ Token.Alike tokens loose := loosened.imp fun _ _ loosens => loosens.alike
  exact ⟨fun settled => settled.alike (alike.flip.imp fun _ _ same => same.symm), fun settled => settled.alike alike⟩

/-- A character that nothing has to follow may be the last one. -/
private theorem ended_single {token loose : Token} (loosens : token.Loosens loose) (closed : token.dangles = false) :
    Loosened [token] (Token.ended [loose]) := by
  rcases loosens with rfl | ⟨char, noSlash, noQuote, rfl, rfl⟩
  · unfold Token.ended
    split
    · rename_i none
      cases none
    · rename_i char joint same
      cases same
      refine .cons ?_ .nil
      cases joint with
      | false => exact .refl _
      | true =>
        refine .inr ⟨char, ?_, ?_, rfl, rfl⟩
        · rintro rfl
          cases closed
        · rintro rfl
          cases closed
    · rename_i same
      cases same
      exact .cons (.refl _) .nil
  · exact .cons (.inr ⟨char, noSlash, noQuote, rfl, rfl⟩) .nil

/-- At the end of a group that is not written, no operator goes on. -/
theorem ended (loosened : Loosened tokens loose) (closed : Token.AreClosed tokens) :
    Loosened tokens (Token.ended loose) := by
  induction loosened with
  | nil => exact .nil
  | @cons token loose tokens others first rest ih =>
    cases rest with
    | nil => exact ended_single first (closed token rfl)
    | @cons next nextLoose tokens others second rest =>
      have step : Token.ended (loose :: nextLoose :: others) = loose :: Token.ended (nextLoose :: others) := by
        simp [Token.ended]
      rw [step]
      refine .cons first (ih fun last found => closed last ?_)
      rw [List.getLast?_cons_cons]
      exact found

end Loosened

/-- So anything may stand behind it. -/
theorem Tied.ended {operator : Bool} {tokens : List Token} (tied : Tied operator tokens) :
    Tied false (Token.ended tokens) := by
  fun_induction Token.ended tokens with
  | case1 => exact .nil
  | case2 => exact .cons rfl .nil
  | case3 token rest noMark ih =>
    refine ⟨fun joins => ?_, ih tied.2⟩
    cases rest with
    | nil =>
      cases token with
      | leaf leaf =>
        cases leaf with
        | mark char joint => exact absurd rfl (noMark char joint rfl)
        | word | literal => cases joins
      | opening | closing => cases joins
    | cons next rest =>
      have goesOn := tied.1 joins
      unfold Token.ended
      split
      · rename_i none
        cases none
      · rename_i same
        cases same
        exact goesOn
      · rename_i same
        cases same
        exact goesOn

/-! ## What a reader comes to -/

namespace TokenTree

mutual
/-- The tokens of a tree as a reader comes to them. -/
def ownStream : TokenTree → List Token
  | .leaf inner _ => [.leaf inner]
  | .group delimiter content _ => .opening delimiter :: (stream content ++ [.closing delimiter])
  | .invisible content _ => stream content

/-- The tokens of trees as a reader comes to them, in invisible groups or not. -/
def stream : List TokenTree → List Token
  | [] => []
  | tree :: rest => tree.ownStream ++ stream rest
end

mutual
/-- No invisible group in a tree ends where something has to follow. -/
def IsSealed : TokenTree → Prop
  | .leaf _ _ => True
  | .group _ content _ => AreSealed content
  | .invisible content _ => Token.AreClosed (stream content) ∧ AreSealed content

/-- No invisible group in some trees does. -/
def AreSealed : List TokenTree → Prop
  | [] => True
  | tree :: rest => tree.IsSealed ∧ AreSealed rest
end

theorem stream_append (trees more : List TokenTree) : stream (trees ++ more) = stream trees ++ stream more := by
  induction trees with
  | nil => rfl
  | cons tree rest ih => rw [List.cons_append, stream, ih, stream, List.append_assoc]

theorem areSealed_append {trees more : List TokenTree} :
    AreSealed (trees ++ more) ↔ AreSealed trees ∧ AreSealed more := by
  induction trees with
  | nil => exact ⟨fun all => ⟨trivial, all⟩, And.right⟩
  | cons tree rest ih => rw [List.cons_append, AreSealed, ih, AreSealed, and_assoc]

mutual
theorem loosened_tokens (tree : TokenTree) (closed : tree.IsSealed) : Loosened tree.ownStream tree.tokens := by
  cases tree with
  | leaf inner span => exact .cons (.refl _) .nil
  | group delimiter content span =>
    exact .cons (.refl _) (List.rel_append (loosened_flatten content closed) (.cons (.refl _) .nil))
  | invisible content span => exact (loosened_flatten content closed.2).ended closed.1

/-- Where trees are written, operators may end earlier than a reader comes to their end. -/
theorem loosened_flatten (trees : List TokenTree) (closed : AreSealed trees) :
    Loosened (stream trees) (flatten trees) := by
  cases trees with
  | nil => exact .nil
  | cons tree rest => exact List.rel_append (loosened_tokens tree closed.1) (loosened_flatten rest closed.2)
end

/-! ## Steps of a reader -/

theorem totalSteps_append (trees more : List TokenTree) :
    totalSteps (trees ++ more) = totalSteps trees + totalSteps more := by
  induction trees with
  | nil => exact (Nat.zero_add _).symm
  | cons tree rest ih => rw [List.cons_append, totalSteps, ih, totalSteps, Nat.add_assoc]

theorem totalSteps_invisible (content rest : List TokenTree) (span : Span) :
    totalSteps (.invisible content span :: rest) = totalSteps (content ++ rest) + 1 := by
  rw [totalSteps, steps, totalSteps_append, Nat.add_comm 1, Nat.add_right_comm]

theorem steps_pos (tree : TokenTree) : 0 < tree.steps := by
  cases tree <;> simp [steps]

/-- What a reader is left with is reached from where it began. -/
inductive ComesTo : List TokenTree → List TokenTree → Prop where
  | here (trees : List TokenTree) : ComesTo trees trees
  | past (tree : TokenTree) {rest there : List TokenTree} (reaches : ComesTo rest there) : ComesTo (tree :: rest) there
  | into (span : Span) {content rest there : List TokenTree} (reaches : ComesTo (content ++ rest) there) :
      ComesTo (.invisible content span :: rest) there

namespace ComesTo
variable {here there beyond : List TokenTree}

theorem trans (reaches : ComesTo here there) (further : ComesTo there beyond) : ComesTo here beyond := by
  induction reaches with
  | here => exact further
  | past tree _ ih => exact .past tree (ih further)
  | into span _ ih => exact .into span (ih further)

theorem totalSteps_le (reaches : ComesTo here there) : totalSteps there ≤ totalSteps here := by
  induction reaches with
  | here => exact Nat.le_refl _
  | past tree _ ih =>
    rw [totalSteps]
    omega
  | into span _ ih =>
    rw [totalSteps_invisible]
    omega

theorem areSealed (reaches : ComesTo here there) (closed : AreSealed here) : AreSealed there := by
  induction reaches with
  | here => exact closed
  | past tree _ ih => exact ih closed.2
  | into span _ ih => exact ih (areSealed_append.mpr ⟨closed.1.2, closed.2⟩)

end ComesTo

private theorem enterAll_eq (trees rest : List TokenTree) :
    enterAll trees rest (fun _ => seen rest) = seen (trees ++ rest) := by
  have enter_eq : ∀ tree more, enter tree more (fun _ => seen more) = seen (tree :: more) := by
    intro tree more
    cases tree <;> rfl
  induction trees with
  | nil => rfl
  | cons tree others ih =>
    rw [enterAll]
    simp only [ih]
    exact enter_eq tree (others ++ rest)

/-- What is seen of an invisible group is what stands in it and behind it. -/
theorem seen_invisible (content rest : List TokenTree) (span : Span) :
    seen (.invisible content span :: rest) = seen (content ++ rest) :=
  enterAll_eq content rest

/-- A reader comes to what it sees by entering invisible groups. -/
theorem reaches_seen : (trees : List TokenTree) → ComesTo trees (seen trees) ∧ stream (seen trees) = stream trees
  | [] => ⟨.here _, rfl⟩
  | .leaf _ _ :: _ => ⟨.here _, rfl⟩
  | .group _ _ _ :: _ => ⟨.here _, rfl⟩
  | .invisible content span :: rest => by
    obtain ⟨reaches, same⟩ := reaches_seen (content ++ rest)
    rw [seen_invisible]
    refine ⟨.into span reaches, ?_⟩
    rw [same, stream_append]
    rfl
termination_by trees => totalSteps trees
decreasing_by
  rw [totalSteps_invisible]
  exact Nat.lt_succ_self _

/-! ### What has been passed -/

private theorem upTo_zero (trees : List TokenTree) : upTo trees 0 = [] := by
  cases trees with
  | nil => rfl
  | cons tree rest =>
    have some := tree.steps_pos
    have none : tree.beginning 0 = [] := by cases tree <;> rfl
    rw [upTo, if_neg (by omega), none]

private theorem upTo_append_of_le {trees : List TokenTree} {n : Nat} (enough : totalSteps trees ≤ n)
    (rest : List TokenTree) : upTo (trees ++ rest) n = trees ++ upTo rest (n - totalSteps trees) := by
  induction trees generalizing n with
  | nil => rfl
  | cons tree others ih =>
    rw [totalSteps] at enough
    rw [List.cons_append, upTo, if_pos (by omega), ih (by omega), totalSteps, Nat.sub_sub, List.cons_append]

private theorem upTo_append_of_lt {trees : List TokenTree} {n : Nat} (inside : n < totalSteps trees)
    (rest : List TokenTree) : upTo (trees ++ rest) n = upTo trees n := by
  induction trees generalizing n with
  | nil => cases inside
  | cons tree others ih =>
    rw [totalSteps] at inside
    rw [List.cons_append, upTo, upTo]
    split
    · rw [ih (by omega)]
    · rfl

/-- What was passed of the content of a group was passed of the group. -/
private theorem stream_upTo_invisible (content rest : List TokenTree) (span : Span) (n : Nat) :
    stream (upTo (.invisible content span :: rest) (n + 1)) = stream (upTo (content ++ rest) n) := by
  rw [upTo, steps]
  by_cases enough : totalSteps content ≤ n
  · rw [if_pos (by omega), upTo_append_of_le enough, stream, stream_append, ownStream,
      show n + 1 - (1 + totalSteps content) = n - totalSteps content by omega]
  · rw [if_neg (by omega), upTo_append_of_lt (by omega), beginning]

/-- A reader has passed the tokens of what is cut out by its steps. -/
theorem ComesTo.stream_eq {here there : List TokenTree} (reaches : ComesTo here there) :
    stream here = stream (upTo here (totalSteps here - totalSteps there)) ++ stream there := by
  induction reaches with
  | here trees =>
    rw [Nat.sub_self, upTo_zero]
    rfl
  | @past tree rest there reaches ih =>
    have fewer := reaches.totalSteps_le
    rw [totalSteps, Nat.add_sub_assoc fewer, upTo, if_pos (Nat.le_add_right _ _), Nat.add_sub_cancel_left, stream,
      stream, ih, List.append_assoc]
  | @into span content rest there reaches ih =>
    have fewer := reaches.totalSteps_le
    rw [totalSteps_invisible, Nat.sub_add_comm fewer, stream_upTo_invisible, ← ih, stream, ownStream, stream_append]

mutual
private theorem areSealed_beginning (tree : TokenTree) (n : Nat) (closed : tree.IsSealed) :
    AreSealed (tree.beginning n) := by
  cases tree with
  | leaf => trivial
  | group => trivial
  | invisible content span =>
    cases n with
    | zero => trivial
    | succ n => exact areSealed_upTo content n closed.2

/-- What is cut out of sealed trees is sealed. -/
theorem areSealed_upTo (trees : List TokenTree) (n : Nat) (closed : AreSealed trees) : AreSealed (upTo trees n) := by
  cases trees with
  | nil => trivial
  | cons tree rest =>
    rw [upTo]
    split
    · exact ⟨closed.1, areSealed_upTo rest _ closed.2⟩
    · exact areSealed_beginning tree n closed.1
end

/-! ## Texts -/

mutual
/-- There is no invisible group in a tree. -/
def IsVisible : TokenTree → Prop
  | .leaf _ _ => True
  | .group _ content _ => AreVisible content
  | .invisible _ _ => False

/-- There is none in some trees. -/
def AreVisible : List TokenTree → Prop
  | [] => True
  | tree :: rest => tree.IsVisible ∧ AreVisible rest
end

theorem areVisible_iff {trees : List TokenTree} : AreVisible trees ↔ ∀ tree ∈ trees, tree.IsVisible := by
  induction trees with
  | nil => exact ⟨fun _ _ mem => absurd mem List.not_mem_nil, fun _ => trivial⟩
  | cons tree rest ih => rw [AreVisible, ih, List.forall_mem_cons]

mutual
theorem isSealed_of_isVisible (tree : TokenTree) (visible : tree.IsVisible) : tree.IsSealed := by
  cases tree with
  | leaf => trivial
  | group delimiter content span => exact areSealed_of_areVisible content visible
  | invisible => exact visible.elim

theorem areSealed_of_areVisible (trees : List TokenTree) (visible : AreVisible trees) : AreSealed trees := by
  cases trees with
  | nil => trivial
  | cons tree rest => exact ⟨isSealed_of_isVisible tree visible.1, areSealed_of_areVisible rest visible.2⟩
end

mutual
theorem ownStream_of_isVisible (tree : TokenTree) (visible : tree.IsVisible) : tree.ownStream = tree.tokens := by
  cases tree with
  | leaf => rfl
  | group delimiter content span => rw [ownStream, tokens, stream_of_areVisible content visible]
  | invisible => exact visible.elim

/-- Without such groups a reader comes to the tokens as they are written. -/
theorem stream_of_areVisible (trees : List TokenTree) (visible : AreVisible trees) : stream trees = flatten trees := by
  cases trees with
  | nil => rfl
  | cons tree rest =>
    rw [stream, flatten, ownStream_of_isVisible tree visible.1, stream_of_areVisible rest visible.2]
end

/-- Matching brackets makes no invisible group. -/
theorem areVisible_build {stack : List Open} {before trees : List TokenTree} {tokens : List (Token × Span)}
    (built : build stack before tokens = some trees) (visible : AreVisible before)
    (outer : ∀ inner ∈ stack, AreVisible inner.before) : AreVisible trees := by
  fun_induction build stack before tokens with
  | case1 before =>
    cases built
    rw [areVisible_iff] at visible ⊢
    simpa using visible
  | case2 => cases built
  | case3 stack before inner span rest ih => exact ih built ⟨trivial, visible⟩ outer
  | case4 stack before delimiter span rest ih =>
    exact ih built trivial (List.forall_mem_cons.mpr ⟨visible, outer⟩)
  | case5 => cases built
  | case6 before span rest inner stack ih =>
    obtain ⟨visibleBefore, outer⟩ := List.forall_mem_cons.mp outer
    refine ih built ⟨?_, visibleBefore⟩ outer
    rw [areVisible_iff] at visible
    rw [IsVisible, areVisible_iff]
    simpa using visible
  | case7 => cases built

/-- A text has no invisible groups. -/
theorem areVisible_ofText? {text : String} {trees : List TokenTree} (read : ofText? text = some trees) :
    AreVisible trees := by
  unfold ofText? at read
  simp only at read
  split at read
  · exact areVisible_build read trivial fun _ mem => absurd mem List.not_mem_nil
  · cases read

end TokenTree
end SlotArray.Source
