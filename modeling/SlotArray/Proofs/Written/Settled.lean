import SlotArray.Proofs.Tokens.Balance
import SlotArray.Proofs.Written.Literals

/-! Tokens that are read again as they are written. Most need nothing but a pause behind them. A slash
that is joined to something must not begin a comment with it, and a quote has to be followed by
what makes a lifetime of it. -/
namespace SlotArray.Source
open SlotArray.Text

/-! ## One token -/

/-- A literal that is cut off as a whole wherever a pause follows it. -/
structure IsLiteralText (literal : List Char) : Prop where
  filled : literal ≠ []
  cut : ∀ d, isPause d = true → ∀ more, piece? (literal ++ d :: more) = some (.literal, literal.length)

/-- A leaf that makes a lifetime of the quote in front of it. -/
structure FollowsQuote (leaf : Leaf) : Prop where
  noMark : ∀ c joint, leaf ≠ .mark c joint
  cut : ∀ d, isPause d = true → ∀ more, piece? ('\'' :: (leaf.text ++ d :: more)) = some (.punctuation, 1)

/-- A leaf that begins no comment with a slash in front of it. -/
def FollowsSlash (leaf : Leaf) : Prop :=
  ∃ c more, leaf.text = c :: more ∧ c ≠ '/' ∧ c ≠ '*'

/-- A token that is read again in front of those that follow. -/
inductive Fits : Token → List Token → Prop where
  | opening {delimiter : Delimiter} {rest : List Token} : Fits (.opening delimiter) rest
  | closing {delimiter : Delimiter} {rest : List Token} : Fits (.closing delimiter) rest
  | word {text : String} {rest : List Token} (isWord : IsWordText text.toList) : Fits (.leaf (.word text)) rest
  | literal {text : String} {rest : List Token} (isLiteral : IsLiteralText text.toList) :
      Fits (.leaf (.literal text)) rest
  | operator {char : Char} {joint : Bool} {rest : List Token} (plain : isPlainOperator char = true) :
      Fits (.leaf (.mark char joint)) rest
  | slash {rest : List Token} : Fits (.leaf (.mark '/' false)) rest
  | joinedSlash {leaf : Leaf} {rest : List Token} (follows : FollowsSlash leaf) :
      Fits (.leaf (.mark '/' true)) (.leaf leaf :: rest)
  | quote {leaf : Leaf} {rest : List Token} (follows : FollowsQuote leaf) :
      Fits (.leaf (.mark '\'' true)) (.leaf leaf :: rest)

/-- Only the next leaf matters. -/
theorem Fits.mono {token : Token} {rest other : List Token} (fits : Fits token rest)
    (next : ∀ leaf more, rest = .leaf leaf :: more → ∃ others, other = .leaf leaf :: others) :
    Fits token other := by
  cases fits with
  | opening => exact .opening
  | closing => exact .closing
  | word isWord => exact .word isWord
  | literal isLiteral => exact .literal isLiteral
  | operator plain => exact .operator plain
  | slash => exact .slash
  | joinedSlash follows =>
    obtain ⟨others, rfl⟩ := next _ _ rfl
    exact .joinedSlash follows
  | quote follows =>
    obtain ⟨others, rfl⟩ := next _ _ rfl
    exact .quote follows

/-- Tokens each of which is read again in front of the others. -/
inductive Settled : List Token → Prop where
  | nil : Settled []
  | cons {token : Token} {rest : List Token} (fits : Fits token rest) (settled : Settled rest) :
      Settled (token :: rest)

namespace Settled
variable {token : Token} {tokens more : List Token}

theorem head (settled : Settled (token :: tokens)) : Fits token tokens := by
  cases settled
  assumption

theorem tail (settled : Settled (token :: tokens)) : Settled tokens := by
  cases settled
  assumption

theorem append (settled : Settled tokens) (settledMore : Settled more) : Settled (tokens ++ more) := by
  induction settled with
  | nil => exact settledMore
  | cons fits _ ih => exact .cons (fits.mono fun _ others same => ⟨others ++ more, by rw [same]; rfl⟩) ih

theorem of_append (settled : Settled (tokens ++ more)) : Settled more := by
  induction tokens with
  | nil => exact settled
  | cons token tokens ih => exact ih settled.tail

/-- What stands in front of a bracket does not need it. -/
theorem before_bracket {delimiter : Delimiter} (settled : Settled (tokens ++ .closing delimiter :: more)) :
    Settled tokens := by
  induction tokens with
  | nil => exact .nil
  | cons token tokens ih =>
    refine .cons (settled.head.mono fun leaf others same => ?_) (ih settled.tail)
    cases tokens with
    | nil => cases (List.cons.inj same).1
    | cons next tokens => exact ⟨tokens, by rw [(List.cons.inj same).1]⟩

end Settled

/-- A token that what it is joined to has to follow. -/
def Token.dangles : Token → Bool
  | .leaf (.mark '\'' _) => true
  | .leaf (.mark '/' true) => true
  | _ => false

/-- A character that nothing has to follow. -/
theorem dangles_operator {char : Char} (plain : isPlainOperator char = true) (joint : Bool) :
    (Token.leaf (.mark char joint)).dangles = false := by
  obtain ⟨_, noSlash, noQuote⟩ := isPlainOperator_iff.mp plain
  unfold Token.dangles
  split
  · rename_i same
    cases same
    exact absurd rfl noQuote
  · rename_i same
    cases same
    exact absurd rfl noSlash
  · rfl

/-- Tokens behind which something else may follow. -/
def Token.AreClosed (tokens : List Token) : Prop :=
  ∀ token, tokens.getLast? = some token → token.dangles = false

/-- What ends where something else may follow does not need it. -/
theorem Settled.before_closed {tokens more : List Token} (settled : Settled (tokens ++ more))
    (closed : Token.AreClosed tokens) : Settled tokens := by
  induction tokens with
  | nil => exact .nil
  | cons token tokens ih =>
    cases tokens with
    | nil =>
      have own := closed token rfl
      refine .cons ?_ .nil
      cases settled.head with
      | opening => exact .opening
      | closing => exact .closing
      | word isWord => exact .word isWord
      | literal isLiteral => exact .literal isLiteral
      | operator plain => exact .operator plain
      | slash => exact .slash
      | joinedSlash => cases own
      | quote => cases own
    | cons next tokens =>
      refine .cons (settled.head.mono fun leaf others same => ⟨tokens, by rw [(List.cons.inj same).1]⟩)
        (ih settled.tail fun token last => closed token ?_)
      rw [List.getLast?_cons_cons]
      exact last

namespace Token.AreClosed
variable {tokens more : List Token}

theorem nil : AreClosed [] := fun _ none => by cases none

theorem single {token : Token} (closed : token.dangles = false) : AreClosed [token] := by
  intro other last
  cases last
  exact closed

/-- What dangles does not matter where something comes behind it. -/
theorem behind (filled : more ≠ []) (closed : AreClosed more) (tokens : List Token) : AreClosed (tokens ++ more) := by
  intro token last
  obtain ⟨next, others, rfl⟩ := List.exists_cons_of_ne_nil filled
  rw [List.getLast?_append, List.getLast?_cons, Option.some_or, ← List.getLast?_cons] at last
  exact closed token last

theorem append (closed : AreClosed tokens) (closedMore : AreClosed more) : AreClosed (tokens ++ more) := by
  cases more with
  | nil => rwa [List.append_nil]
  | cons => exact closedMore.behind (List.cons_ne_nil _ _) tokens

end Token.AreClosed

/-- Nothing dangles at the end of settled tokens. -/
theorem Settled.closed {tokens : List Token} (settled : Settled tokens) : Token.AreClosed tokens := by
  induction settled with
  | nil => exact .nil
  | @cons token rest fits _ ih =>
    cases rest with
    | cons => exact ih.behind (List.cons_ne_nil _ _) [token]
    | nil =>
      refine .single ?_
      cases fits with
      | operator plain => exact dangles_operator plain _
      | opening | closing | word | literal | slash => rfl

/-! ## Written tokens -/

/-- Whether a token begins with a character of an operator. -/
def Token.beginsOperator (token : Token) : Bool := token.text.head?.any isOperator

/-- Whether the next token belongs to the same operator as a token that was joined to it or not. Where no
token is left, it depends on what stands behind them. -/
def Token.isJoined (operator joint : Bool) : List Token → Bool
  | [] => operator
  | next :: _ => joint && next.beginsOperator

/-- A token as it is read in front of others. The quote of a lifetime is always joined to its word. -/
def Token.rejoin (operator : Bool) (token : Token) (rest : List Token) : Token :=
  match token with
  | .leaf (.mark char joint) => .leaf (.mark char (char == '\'' || isJoined operator joint rest))
  | token => token

/-- Tokens as they are read again when they have been written. -/
def Token.rejoined (operator : Bool) : List Token → List Token
  | [] => []
  | token :: rest => token.rejoin operator rest :: rejoined operator rest

/-- What stands behind the first of some tokens when they are written in front of a text. -/
def Token.behind (first : Token) (rest : List Token) (text : List Char) : List Char :=
  match rest with
  | [] => text
  | next :: _ => first.gap next ++ (Token.write rest ++ text)

theorem Token.write_cons (first : Token) (rest : List Token) (text : List Char) :
    Token.write (first :: rest) ++ text = first.text ++ first.behind rest text := by
  cases rest with
  | nil => simp [Token.write, Token.behind]
  | cons next rest => simp [Token.write, Token.behind]

/-- Two tokens have a blank between them, or nothing. -/
private theorem gap_eq (first next : Token) : first.gap next = [' '] ∨ first.gap next = [] := by
  unfold Token.gap
  split <;> simp

/-- What stands between two tokens is no token. -/
theorem tokens?_behind (first : Token) (rest : List Token) (text : List Char) :
    tokens? (first.behind rest text) = tokens? (Token.write rest ++ text) := by
  cases rest with
  | nil => rfl
  | cons next rest =>
    rcases gap_eq first next with blank | blank
    · rw [Token.behind, blank]
      exact tokens?_separator (by decide) _
    · rw [Token.behind, blank, List.nil_append]

/-- A leaf that is not joined to the next one. -/
def Leaf.IsApart (leaf : Leaf) : Prop := ∀ c, leaf ≠ .mark c true

theorem Leaf.IsApart.gap {leaf : Leaf} (apart : leaf.IsApart) {next : Token}
    (opens : ∀ delimiter, next ≠ .closing delimiter) : (Token.leaf leaf).gap next = [' '] := by
  have ordinary : ∀ leaf : Leaf, leaf.IsApart → ∀ delimiter,
      (Token.leaf leaf).gap (.opening delimiter) = [' '] ∧ ∀ inner, (Token.leaf leaf).gap (.leaf inner) = [' '] := by
    intro leaf apart delimiter
    cases leaf with
    | word => exact ⟨rfl, fun _ => rfl⟩
    | literal => exact ⟨rfl, fun _ => rfl⟩
    | mark c joint =>
      cases joint with
      | false => exact ⟨rfl, fun _ => rfl⟩
      | true => exact absurd rfl (apart c)
  cases next with
  | leaf inner => exact (ordinary leaf apart .brace).2 inner
  | opening delimiter => exact (ordinary leaf apart delimiter).1
  | closing delimiter => exact absurd rfl (opens delimiter)

theorem Fits.exists_text {token : Token} {rest : List Token} (fits : Fits token rest) :
    ∃ c letters, token.text = c :: letters := by
  cases fits with
  | word isWord =>
    obtain ⟨first, letters, same, _⟩ := isWord.exists_cons
    exact ⟨first, letters, same⟩
  | literal isLiteral => exact List.exists_cons_of_ne_nil isLiteral.filled
  | opening | closing | operator | slash | joinedSlash | quote => exact ⟨_, _, rfl⟩

/-- What is cut off as a literal begins no comment. -/
theorem startsComment_of_literal {text : List Char} {length : Nat}
    (found : piece? text = some (.literal, length)) : startsComment text = false := by
  cases comment : startsComment text with
  | false => rfl
  | true =>
    rw [piece?_of_startsComment comment] at found
    rcases kind_of_comment? found with same | ⟨_, same⟩ <;> cases same

/-- A word ends where it cannot go on, whether it is marked or not. -/
theorem IsWordText.read {word tail : List Char} (isWord : IsWordText word) (breaks : Breaks tail) :
    tokens? (word ++ tail) = (tokens? tail).map ([.leaf (.word (String.ofList word))] ++ ·) := by
  have found : piece? (word ++ tail) = some (.word, word.length) := by
    rw [IsWordText, Bool.or_eq_true] at isWord
    rcases isWord with plain | marked
    · exact piece?_plainWord breaks ((isPlainWord_iff _).mp plain)
    · unfold isMarkedWord at marked
      split at marked
      · rw [Bool.and_eq_true, Bool.not_eq_true'] at marked
        exact piece?_markedWord breaks ((isPlainWord_iff _).mp marked.1) marked.2
      · cases marked
  obtain ⟨first, letters, rfl, _⟩ := isWord.exists_cons
  exact tokens?_append_of_piece? _ found (List.cons_ne_nil _ _) rfl

section Written
variable {d : Char} (pause : isPause d = true) (more : List Char)
include pause

/-- Behind such a leaf something pauses. -/
theorem Leaf.IsApart.exists_pause {leaf : Leaf} (apart : leaf.IsApart) (rest : List Token) :
    ∃ e others, (Token.leaf leaf).behind rest (d :: more) = e :: others ∧ isPause e = true := by
  cases rest with
  | nil => exact ⟨d, more, rfl, pause⟩
  | cons next rest =>
    rw [Token.behind, Token.write_cons]
    cases next with
    | leaf inner =>
      rw [@Leaf.IsApart.gap leaf apart (.leaf inner) fun _ same => by cases same]
      exact ⟨' ', _, rfl, by decide⟩
    | opening delimiter =>
      rw [@Leaf.IsApart.gap leaf apart (.opening delimiter) fun _ same => by cases same]
      exact ⟨' ', _, rfl, by decide⟩
    | closing delimiter =>
      cases delimiter with
      | parenthesis => exact ⟨')', _, by cases leaf <;> rfl, by decide⟩
      | bracket => exact ⟨']', _, by cases leaf <;> rfl, by decide⟩
      | brace => exact ⟨' ', _, by cases leaf <;> rfl, by decide⟩

/-- No comment begins where settled tokens are written. -/
theorem Settled.startsComment_write {tokens : List Token} (settled : Settled tokens) :
    startsComment (Token.write tokens ++ d :: more) = false := by
  cases settled with
  | nil => exact startsComment_cons (fun same => by rw [same] at pause; cases pause) more
  | @cons token rest fits settled =>
    rw [Token.write_cons]
    cases fits with
    | @opening delimiter _ =>
      refine startsComment_cons ?_ _
      cases delimiter <;> decide
    | @closing delimiter _ =>
      refine startsComment_cons ?_ _
      cases delimiter <;> decide
    | @word text _ isWord =>
      obtain ⟨first, letters, spelled, goesOn, _⟩ := isWord.exists_cons
      have written : (Token.leaf (.word text)).text = first :: letters := spelled
      rw [written]
      exact startsComment_cons (ne_of_isIdentContinue goesOn (by decide)) _
    | @literal text _ isLiteral =>
      have apart : (Leaf.literal text).IsApart := fun _ same => by cases same
      obtain ⟨e, others, same, pauses⟩ := apart.exists_pause pause more rest
      rw [same]
      exact startsComment_of_literal (isLiteral.cut e pauses others)
    | operator plain =>
      obtain ⟨_, noSlash, _⟩ := isPlainOperator_iff.mp plain
      exact startsComment_cons noSlash _
    | slash =>
      have apart : (Leaf.mark '/' false).IsApart := fun _ same => by cases same
      obtain ⟨e, others, same, pauses⟩ := apart.exists_pause pause more rest
      rw [same]
      refine startsComment_slash ?_ ?_ _
      · rintro rfl
        cases pauses
      · rintro rfl
        cases pauses
    | @joinedSlash leaf rest follows =>
      obtain ⟨c, text, spelled, noSlash, noStar⟩ := follows
      rw [Token.behind, Token.write_cons]
      have joined : (Token.leaf (.mark '/' true)).gap (.leaf leaf) = [] := rfl
      have written : (Token.leaf leaf).text = c :: text := spelled
      rw [joined, written]
      exact startsComment_slash noSlash noStar _
    | quote follows => exact startsComment_cons (by decide) _

theorem Settled.startsComment_behind (first : Token) {rest : List Token} (settled : Settled rest) :
    startsComment (first.behind rest (d :: more)) = false := by
  have written := settled.startsComment_write pause more
  cases rest with
  | nil => exact written
  | cons next rest =>
    rcases gap_eq first next with blank | blank
    · rw [Token.behind, blank]
      exact startsComment_cons (by decide) _
    · rw [Token.behind, blank]
      exact written

theorem Settled.startsOperator_write {next : Token} {rest : List Token} (settled : Settled (next :: rest)) :
    startsOperator (Token.write (next :: rest) ++ d :: more) = next.beginsOperator := by
  have noComment := settled.startsComment_write pause more
  obtain ⟨c, letters, spelled⟩ := settled.head.exists_text
  rw [Token.write_cons, spelled, List.cons_append] at noComment ⊢
  rw [startsOperator, noComment, Token.beginsOperator, spelled, List.head?_cons, Option.any_some, Bool.not_false,
    Bool.and_true]

/-- A character of an operator is joined to what is written behind it if it was, and that is an operator. -/
theorem Settled.startsOperator_behind (char : Char) (joint : Bool) {rest : List Token} (settled : Settled rest) :
    startsOperator ((Token.leaf (.mark char joint)).behind rest (d :: more)) =
      Token.isJoined (isOperator d) joint rest := by
  have blank : ∀ text, startsOperator (' ' :: text) = false := fun _ => rfl
  cases rest with
  | nil =>
    have noComment : startsComment (d :: more) = false :=
      startsComment_cons (fun same => by rw [same] at pause; cases pause) more
    rw [Token.behind, startsOperator, noComment, Bool.not_false, Bool.and_true, Token.isJoined]
  | cons next rest =>
    have again := settled.startsOperator_write pause more
    rw [Token.behind, Token.isJoined]
    cases next with
    | leaf leaf =>
      cases joint with
      | false => exact blank _
      | true => exact again
    | opening delimiter =>
      cases joint with
      | false => exact blank _
      | true => exact again
    | closing delimiter =>
      have noOperator : (joint && (Token.closing delimiter).beginsOperator) = false := by
        cases delimiter <;> cases joint <;> decide
      rw [noOperator]
      cases delimiter with
      | brace => exact blank _
      | parenthesis | bracket => exact again

/-- A character of an operator that is a piece by itself is read in front of what is written behind it. -/
private theorem Settled.mark_read {rest : List Token} (settled : Settled rest) {char : Char} {joint : Bool}
    (noQuote : char ≠ '\'')
    (found : piece? (char :: (Token.leaf (.mark char joint)).behind rest (d :: more)) = some (.punctuation, 1)) :
    tokens? (char :: (Token.leaf (.mark char joint)).behind rest (d :: more)) =
      (tokens? ((Token.leaf (.mark char joint)).behind rest (d :: more))).map
        ([Token.rejoin (isOperator d) (.leaf (.mark char joint)) rest] ++ ·) := by
  rw [Token.rejoin, beq_eq_false_iff_ne.mpr noQuote, Bool.false_or, ← settled.startsOperator_behind pause more char]
  exact tokens?_mark noQuote found

/-- A token that fits is read in front of what is written behind it. -/
theorem Fits.read {token : Token} {rest : List Token} (fits : Fits token rest) (settled : Settled rest) :
    tokens? (token.text ++ token.behind rest (d :: more)) =
      (tokens? (token.behind rest (d :: more))).map ([token.rejoin (isOperator d) rest] ++ ·) := by
  cases fits with
  | @opening delimiter _ =>
    cases delimiter with
    | parenthesis => exact tokens?_parenthesis (settled.startsComment_behind pause more _)
    | bracket => exact tokens?_bracket rfl _
    | brace => exact tokens?_bracket rfl _
  | @closing delimiter _ =>
    cases delimiter with
    | parenthesis => exact tokens?_bracket rfl _
    | bracket => exact tokens?_bracket rfl _
    | brace => exact tokens?_bracket rfl _
  | @word text _ isWord =>
    have apart : (Leaf.word text).IsApart := fun _ same => by cases same
    obtain ⟨e, others, same, pauses⟩ := apart.exists_pause pause more rest
    have read := isWord.read (.cons (isBreak_of_isPause pauses) others)
    rw [String.ofList_toList, ← same] at read
    exact read
  | @literal text _ isLiteral =>
    have apart : (Leaf.literal text).IsApart := fun _ same => by cases same
    obtain ⟨e, others, same, pauses⟩ := apart.exists_pause pause more rest
    have read := tokens?_append_of_piece? text.toList (isLiteral.cut e pauses others) isLiteral.filled rfl
    rw [Piece.tokens, String.ofList_toList, ← same] at read
    exact read
  | operator plain =>
    obtain ⟨_, _, noQuote⟩ := isPlainOperator_iff.mp plain
    exact settled.mark_read pause more noQuote (piece?_operator plain _)
  | slash =>
    have whole : Settled (.leaf (.mark '/' false) :: rest) := .cons .slash settled
    have noComment := whole.startsComment_write pause more
    rw [Token.write_cons] at noComment
    exact settled.mark_read pause more (by decide) (piece?_slash noComment)
  | joinedSlash follows =>
    have whole := Settled.cons (.joinedSlash follows) settled
    have noComment := whole.startsComment_write pause more
    rw [Token.write_cons] at noComment
    exact settled.mark_read pause more (by decide) (piece?_slash noComment)
  | @quote leaf rest follows =>
    have apart : leaf.IsApart := fun c => follows.noMark c true
    obtain ⟨e, others, same, pauses⟩ := apart.exists_pause pause more rest
    have joined : (Token.leaf (.mark '\'' true)).behind (.leaf leaf :: rest) (d :: more) =
        leaf.text ++ e :: others := by
      rw [← same, Token.behind, Token.write_cons]
      rfl
    rw [joined]
    exact tokens?_append_of_piece? ['\''] (follows.cut e pauses others) (List.cons_ne_nil _ _) rfl

/-- Settled tokens are read again as they are written. -/
theorem Settled.read {tokens : List Token} (settled : Settled tokens) :
    tokens? (Token.write tokens ++ d :: more) =
      (tokens? (d :: more)).map (Token.rejoined (isOperator d) tokens ++ ·) := by
  induction settled with
  | nil => exact Option.map_id'.symm
  | @cons token rest fits settled ih =>
    rw [Token.write_cons, fits.read pause more settled, tokens?_behind, ih, Option.map_map]
    rfl

end Written

/-- How tokens are joined does not matter to brackets. -/
theorem matched_rejoined (operator : Bool) (stack : List Delimiter) (tokens : List Token) :
    matched stack (Token.rejoined operator tokens) = matched stack tokens := by
  fun_induction matched stack tokens with
  | case1 stack => rfl
  | case2 stack inner rest ih => cases inner <;> exact ih
  | case3 stack delimiter rest ih => exact ih
  | case4 => rfl
  | case5 outer delimiter rest ih =>
    rw [Token.rejoined, Token.rejoin, matched, if_pos rfl]
    · exact ih
    · exact fun _ _ same => by cases same
  | case6 inner outer delimiter rest other =>
    rw [Token.rejoined, Token.rejoin, matched, if_neg other]
    exact fun _ _ same => by cases same

end SlotArray.Source
