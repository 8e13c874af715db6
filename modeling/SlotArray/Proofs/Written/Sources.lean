import SlotArray.Proofs.Written.Quoting
import SlotArray.Proofs.Written.Settled

/-! The tokens of a source text are read again as they are written. Its words and literals were cut off
it, a slash in it that is joined to something began no comment, and a quote in it that is no
literal began a lifetime. -/
namespace SlotArray.Source
open SlotArray.Text

/-! ## Lifetimes -/

/-- A quote is no literal of its own in front of a character and anything but another quote. -/
private theorem literalLength_quote {c d : Char} (ordinary : c ≠ '\\') (apart : d ≠ '\'') (rest : List Char) :
    literalLength ('\'' :: c :: d :: rest) = none := by
  have unquoted : quotedLiteralLength ('\'' :: c :: d :: rest) = none := by
    rw [quotedLiteralLength, quotedCharLength_eq_none rfl ordinary apart]
    rfl
  rw [literalLength, unquoted]
  rfl

private theorem piece?_quote_lifetime {text : List Char} (noLiteral : literalLength ('\'' :: text) = none)
    (lifetime : startsLifetime text = true) : piece? ('\'' :: text) = some (.punctuation, 1) := by
  have first : piece? ('\'' :: text) = lexeme? ('\'' :: text) := rfl
  rw [first]
  unfold lexeme?
  rw [noLiteral]
  simp only [lifetime, if_true]

/-- A word makes a lifetime of a quote. -/
theorem followsQuote_word {text : String} (isWord : IsWordText text.toList) : FollowsQuote (.word text) := by
  refine ⟨(fun _ _ same => by cases same), fun d pause more => ?_⟩
  obtain ⟨continues, noString, noHash, noQuote⟩ := isBreak_iff (isBreak_of_isPause pause)
  refine piece?_quote_lifetime ?_ ?_
  · obtain ⟨first, letters, spelled, goesOn, others⟩ := isWord.exists_cons
    rw [Leaf.text, spelled, List.cons_append]
    have ordinary : first ≠ '\\' := ne_of_isIdentContinue goesOn (by decide)
    cases letters with
    | nil => exact literalLength_quote ordinary noQuote more
    | cons second letters =>
      refine literalLength_quote ordinary ?_ _
      rcases others second List.mem_cons_self with letter | rfl
      · exact ne_of_isIdentContinue letter (by decide)
      · decide
  · have ended : ∀ {text : List Char} {length : Nat}, markedWordLength text = some length →
        text.drop length = d :: more → startsLifetime text = true := by
      intro text length measured left
      unfold startsLifetime
      simp only [measured, left]
      split
      · rename_i same
        exact absurd (List.cons.inj same).1 noQuote
      · rename_i same
        exact absurd (List.cons.inj same).1 noHash
      · rfl
    rw [IsWordText, Bool.or_eq_true] at isWord
    rw [Leaf.text]
    rcases isWord with plain | marked
    · have isPlain := (isPlainWord_iff _).mp plain
      have measured := wordLength_append (.cons (isBreak_of_isPause pause) more) isPlain
      refine ended ?_ (List.drop_left' rfl)
      obtain ⟨first, letters, same, _, letter⟩ := isPlain
      rw [← measured, same]
      unfold markedWordLength
      split
      · rename_i spelled
        -- the second character is a letter, or it is the pause
        have second := (List.cons.inj spelled).2
        cases letters with
        | nil => exact absurd (List.cons.inj second).1 noHash
        | cons next letters =>
          have goesOn := letter next List.mem_cons_self
          exact absurd (List.cons.inj second).1 (ne_of_isIdentContinue goesOn (by decide))
      · rfl
    · unfold isMarkedWord at marked
      split at marked
      · rename_i word same
        rw [Bool.and_eq_true, Bool.not_eq_true'] at marked
        have measured := wordLength_append (.cons (isBreak_of_isPause pause) more) ((isPlainWord_iff _).mp marked.1)
        rw [same]
        refine @ended _ (2 + word.length) ?_ ?_
        · have taken : (word ++ d :: more).take word.length = word := List.take_left' rfl
          simp only [List.cons_append, markedWordLength, measured, taken, marked.2]
          rfl
        · rw [Nat.add_comm]
          exact List.drop_left' rfl
      · cases marked

private theorem opening_of_rawOpenedLength {plain : Char → Bool} {text : List Char} {length : Nat}
    (read : rawOpenedLength plain text = some length) :
    (∃ rest, text = '"' :: rest) ∨ ∃ c rest, text = '#' :: c :: rest ∧ (c = '#' ∨ c = '"') := by
  rcases text with _ | ⟨c, rest⟩
  · cases read
  · by_cases hash : c = '#'
    · subst hash
      rcases rest with _ | ⟨second, rest⟩
      · cases read
      · by_cases again : second = '#'
        · exact .inr ⟨second, rest, rfl, .inl again⟩
        · unfold rawOpenedLength at read
          simp only [List.takeWhile_cons, beq_self_eq_true, if_true, beq_eq_false_iff_ne.mpr again,
            Bool.false_eq_true, if_false, List.length_singleton, List.drop_succ_cons, List.drop_zero] at read
          split at read
          · rename_i same
            exact .inr ⟨second, rest, rfl, .inr (List.cons.inj same).1⟩
          · cases read
    · unfold rawOpenedLength at read
      simp only [List.takeWhile_cons, beq_eq_false_iff_ne.mpr hash, Bool.false_eq_true, if_false,
        List.length_nil, List.drop_zero] at read
      split at read
      · rename_i same
        exact .inl ⟨_, same⟩
      · cases read

/-- In front of a literal, a quote begins a lifetime only if the literal begins with letters and a double
quote. That can be seen whatever follows. -/
private theorem piece?_quote_quoted {literal rest : List Char} {length : Nat}
    (quoted : quotedLiteralLength literal = some length) (lifetime : startsLifetime (literal ++ rest) = true)
    (more : List Char) : piece? ('\'' :: (literal ++ more)) = some (.punctuation, 1) := by
  unfold quotedLiteralLength at quoted
  split at quoted
  · cases lifetime
  · obtain ⟨_, read, _⟩ := Option.map_eq_some_iff.mp quoted
    rcases opening_of_rawOpenedLength read with ⟨text, rfl⟩ | ⟨c, text, rfl, rfl | rfl⟩
    · exact piece?_quote_lifetime (literalLength_quote (by decide) (by decide) _) rfl
    · cases lifetime
    · cases lifetime
  · exact piece?_quote_lifetime (literalLength_quote (by decide) (by decide) _) rfl
  · obtain ⟨_, read, _⟩ := Option.map_eq_some_iff.mp quoted
    rcases opening_of_rawOpenedLength read with ⟨text, rfl⟩ | ⟨c, text, rfl, _⟩
    · exact piece?_quote_lifetime (literalLength_quote (by decide) (by decide) _) rfl
    · cases lifetime
  · cases lifetime
  · exact piece?_quote_lifetime (literalLength_quote (by decide) (by decide) _) rfl
  · obtain ⟨_, read, _⟩ := Option.map_eq_some_iff.mp quoted
    rcases opening_of_rawOpenedLength read with ⟨text, rfl⟩ | ⟨c, text, rfl, _⟩
    · exact piece?_quote_lifetime (literalLength_quote (by decide) (by decide) _) rfl
    · cases lifetime
  · cases lifetime
  · cases quoted

/-- A text that makes a lifetime of the quote in front of it begins with a letter. -/
private theorem exists_start_of_lifetime {text : List Char} (lifetime : startsLifetime text = true) :
    ∃ first rest, text = first :: rest ∧ isIdentStart first = true := by
  unfold startsLifetime at lifetime
  split at lifetime
  · cases lifetime
  · rename_i length measured
    unfold markedWordLength at measured
    split at measured
    · exact ⟨'r', _, rfl, by decide⟩
    · rcases text with _ | ⟨first, rest⟩
      · cases measured
      · rw [wordLength] at measured
        split at measured
        · rename_i start
          exact ⟨first, rest, rfl, start⟩
        · cases measured

theorem followsQuote_literal {text : String} {rest : List Char}
    (measured : literalLength (text.toList ++ rest) = some text.toList.length)
    (lifetime : startsLifetime (text.toList ++ rest) = true) : FollowsQuote (.literal text) := by
  refine ⟨(fun _ _ same => by cases same), fun d _ more => ?_⟩
  obtain ⟨first, others, same, start⟩ := exists_start_of_lifetime lifetime
  obtain ⟨length, inside, quoted⟩ : ∃ length ≤ text.toList.length,
      quotedLiteralLength (text.toList ++ rest) = some length := by
    rcases begins_of_literalLength measured with quoted | ⟨c, behind, spelled, digit⟩
    · exact quoted
    · rw [same] at spelled
      rw [← (List.cons.inj spelled).1, isDigit_of_isIdentStart start] at digit
      cases digit
  obtain ⟨front, behind, whole, rfl, again⟩ := delimits_quotedLiteralLength quoted
  obtain ⟨inner, spelled, _⟩ := exists_inner whole inside
  have ownQuoted := again []
  rw [List.append_nil] at ownQuoted
  rw [Leaf.text, spelled, List.append_assoc]
  rw [spelled, List.append_assoc] at lifetime
  exact piece?_quote_quoted ownQuoted lifetime _

/-! ## Pieces -/

/-- What is cut off as a character of an operator is one, and begins no comment; a quote begins a
lifetime. -/
theorem punctuation_of_piece? {c : Char} {rest : List Char} {length : Nat}
    (found : piece? (c :: rest) = some (.punctuation, length)) :
    length = 1 ∧ isOperator c = true ∧ startsComment (c :: rest) = false ∧
      (c = '\'' → startsLifetime rest = true) := by
  cases isPiece_of_piece? found with
  | comment _ found => rcases kind_of_comment? found with same | ⟨_, same⟩ <;> cases same
  | lexeme noComment lexeme =>
    cases lexeme with
    | lifetime quoted begins =>
      obtain ⟨rfl, rfl⟩ := List.cons.inj quoted
      exact ⟨rfl, by decide, noComment, fun _ => begins⟩
    | operator unquoted begins =>
      rw [startsOperator, Bool.and_eq_true] at begins
      exact ⟨rfl, begins.1, noComment, fun quote => absurd (congrArg some quote) unquoted⟩

/-- Where an operator goes on, the next piece is one of its characters or a literal. -/
theorem kind_of_startsOperator {c : Char} {rest : List Char} (operator : startsOperator (c :: rest) = true)
    {kind : PieceKind} {length : Nat} (found : piece? (c :: rest) = some (kind, length)) :
    kind = .literal ∨ kind = .punctuation := by
  have starts : isOperator c = true ∧ startsComment (c :: rest) = false := by
    rwa [startsOperator, Bool.and_eq_true, Bool.not_eq_true'] at operator
  cases isPiece_of_piece? found with
  | @blanks d rest spelled blank =>
    obtain ⟨rfl, rfl⟩ := List.cons.inj spelled
    have known := starts.1
    rw [isOperator_eq, List.contains_iff_mem] at known
    have apart : (operators.all fun d => !isSeparator d) = true := by decide
    have noBlank := List.all_eq_true.mp apart c known
    rw [blank] at noBlank
    cases noBlank
  | comment begins _ =>
    rw [starts.2] at begins
    cases begins
  | error => exact .inl rfl
  | opening noOperator | closing noOperator =>
    rw [operator] at noOperator
    cases noOperator
  | lexeme _ lexeme =>
    cases lexeme with
    | literal => exact .inl rfl
    | lifetime | operator => exact .inr rfl
    | word noOperator _ =>
      rw [operator] at noOperator
      cases noOperator

/-- What follows a quote is the word or the literal that makes a lifetime of it. -/
private theorem exists_followsQuote {rest : List Char} {pieces : List Piece}
    (cut : Piece.ofText rest = some pieces) (lifetime : startsLifetime rest = true) :
    ∃ leaf tokens, Token.ofPieces pieces = .leaf leaf :: tokens ∧ FollowsQuote leaf := by
  obtain ⟨c, more, rfl, start⟩ := exists_start_of_lifetime lifetime
  obtain ⟨kind, length, others, found, rfl, _⟩ := exists_piece_of_ofText cut
  have lexeme := found
  rw [piece?_eq_lexeme? (isIdentContinue_of_isIdentStart start)] at lexeme
  cases isLexeme_of_lexeme? lexeme with
  | literal measured =>
    refine ⟨.literal (String.ofList ((c :: more).take (length + 1))), _, ofPieces_cons _ _, ?_⟩
    have counted : ((c :: more).take (length + 1)).length = length + 1 :=
      List.length_take_of_le (literalLength_le measured)
    refine @followsQuote_literal _ ((c :: more).drop (length + 1)) ?_ ?_
    · rw [String.toList_ofList, List.take_append_drop, counted]
      exact measured
    · rw [String.toList_ofList, List.take_append_drop]
      exact lifetime
  | lifetime quoted _ =>
    have begins := (List.cons.inj quoted).1
    exact absurd begins (ne_of_isIdentStart start (by decide))
  | operator _ begins =>
    simp only [startsOperator, Bool.and_eq_true, isOperator_eq, List.contains_iff_mem] at begins
    have goesOn := isIdentContinue_of_isIdentStart start
    rw [isIdentContinue_of_mem_operators begins.1] at goesOn
    cases goesOn
  | word _ measured =>
    refine ⟨.word (String.ofList ((c :: more).take (length + 1))), _, ofPieces_cons _ _, followsQuote_word ?_⟩
    rw [String.toList_ofList]
    exact Scan.isWord_of_measured measured

/-- What follows a slash that is joined to it begins no comment with it. -/
private theorem exists_followsSlash {rest : List Char} {pieces : List Piece}
    (cut : Piece.ofText rest = some pieces) (operator : startsOperator rest = true)
    (noComment : startsComment ('/' :: rest) = false) :
    ∃ leaf tokens, Token.ofPieces pieces = .leaf leaf :: tokens ∧ FollowsSlash leaf := by
  cases rest with
  | nil => cases operator
  | cons c rest =>
    obtain ⟨kind, length, others, found, rfl, _⟩ := exists_piece_of_ofText cut
    have noSlash : c ≠ '/' := by
      rintro rfl
      cases noComment
    have noStar : c ≠ '*' := by
      rintro rfl
      cases noComment
    rcases kind_of_startsOperator operator found with rfl | rfl
    · refine ⟨.literal (String.ofList ((c :: rest).take (length + 1))), _, ofPieces_cons _ _, c,
        rest.take length, ?_, noSlash, noStar⟩
      rw [Leaf.text, String.toList_ofList, List.take_succ_cons]
    · by_cases quote : c = '\''
      · subst quote
        exact ⟨.mark '\'' true, _, ofPieces_cons _ _, '\'', [], rfl, noSlash, noStar⟩
      · refine ⟨.mark c (startsOperator (nextText others)), Token.ofPieces others, ?_, c, [], rfl, noSlash, noStar⟩
        rw [ofPieces_cons, List.take_succ_cons, tokens_punctuation quote]
        rfl

private theorem settled_documentTokens (inner : Bool) (body : List Char) :
    Settled (documentTokens inner body) := by
  have quoted : IsLiteralText (String.ofList (quote body)).toList := by
    rw [String.toList_ofList]
    refine ⟨List.cons_ne_nil _ _, fun d pause more => ?_⟩
    refine @piece?_literal_pause (quote body) [] (List.cons_ne_nil _ _) ?_ d pause more
    rw [List.append_nil]
    exact piece?_quote body
  have isWord : IsWordText "doc".toList := by
    rw [IsWordText]
    decide
  have bracketed : Settled [.opening .bracket, .leaf (.word "doc"), .leaf (.mark '=' false),
      .leaf (.literal (String.ofList (quote body))), .closing .bracket] :=
    .cons .opening (.cons (.word isWord) (.cons (.operator (by decide)) (.cons (.literal quoted)
      (.cons .closing .nil))))
  refine Settled.append (.append (.cons (.operator (by decide)) .nil) ?_) bracketed
  cases inner with
  | false => exact .nil
  | true => exact .cons (.operator (by decide)) .nil

/-- A piece that is a character of an operator stands apart from what follows as it did in the text. -/
private theorem settled_punctuation {c : Char} {rest : List Char} {length : Nat} {later : List Piece}
    (found : piece? (c :: rest) = some (.punctuation, length)) (cut : Piece.ofText rest = some later)
    (settled : Settled (Token.ofPieces later)) :
    Settled (Piece.tokens ⟨.punctuation, [c]⟩ (nextText later) ++ Token.ofPieces later) := by
  obtain ⟨_, operator, noComment, lifetime⟩ := punctuation_of_piece? found
  by_cases quote : c = '\''
  · subst quote
    obtain ⟨leaf, tokens, same, follows⟩ := exists_followsQuote cut (lifetime rfl)
    rw [same] at settled ⊢
    exact .cons (.quote follows) settled
  · rw [tokens_punctuation quote, startsOperator_nextText cut]
    by_cases slash : c = '/'
    · subst slash
      cases joint : startsOperator rest with
      | false => exact .cons .slash settled
      | true =>
        obtain ⟨leaf, tokens, same, follows⟩ := exists_followsSlash cut joint noComment
        rw [same] at settled ⊢
        exact .cons (.joinedSlash follows) settled
    · exact .cons (.operator (isPlainOperator_iff.mpr ⟨operator, slash, quote⟩)) settled

/-- The tokens of a text are settled. -/
theorem settled_ofPieces {text : List Char} {pieces : List Piece} (cut : Piece.ofText text = some pieces) :
    Settled (Token.ofPieces pieces) := by
  refine @ofText_induction (fun _ pieces => Settled (Token.ofPieces pieces)) .nil ?_ text pieces cut
  intro c rest kind length later found cutRest settled
  rw [ofPieces_cons]
  cases kind with
  | trivia => exact settled
  | document inner => exact (settled_documentTokens inner _).append settled
  | literal =>
    refine .cons (.literal ⟨?_, fun d pause more => ?_⟩) settled
    · rw [String.toList_ofList, List.take_succ_cons]
      exact List.cons_ne_nil _ _
    · have counted : ((c :: rest).take (length + 1)).length = length + 1 :=
        List.length_take_of_le (le_of_piece?_literal found)
      rw [String.toList_ofList]
      refine @piece?_literal_pause _ ((c :: rest).drop (length + 1)) ?_ ?_ d pause more
      · rw [List.take_succ_cons]
        exact List.cons_ne_nil _ _
      · rw [List.take_append_drop, counted]
        exact found
  | word =>
    refine .cons (.word ?_) settled
    rw [String.toList_ofList]
    exact Scan.isWord_of_measured (plainWordLength_of_piece? found)
  | opening delimiter => exact .cons .opening settled
  | closing delimiter => exact .cons .closing settled
  | punctuation =>
    obtain ⟨one, _⟩ := punctuation_of_piece? found
    obtain rfl : length = 0 := by omega
    exact settled_punctuation found cutRest settled

/-- So are those of its trees. -/
theorem settled_ofText? {text : String} {trees : List TokenTree}
    (read : TokenTree.ofText? text = some trees) : Settled (TokenTree.flatten trees) := by
  obtain ⟨pieces, cut, tokens⟩ := pieces_of_ofText? read
  rw [← tokens]
  exact settled_ofPieces cut

end SlotArray.Source
