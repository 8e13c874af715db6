import SlotArray.Source.Identifier

/-! Words: what a text that is one identifier looks like. The tokens of a text are those of its
pieces, whatever brackets are matched, so its only token is cut off it as a word. -/
namespace SlotArray.Source
open SlotArray.Text

/-- The word of a text that has no other token, as it is written there. -/
def word? (text : String) : Option String :=
  match TokenTree.ofText? text with
  | some [.leaf (.word word) _] => some word
  | _ => none

/-- A word without the mark that makes a name of a keyword. -/
def unmarked : List Char → List Char
  | 'r' :: '#' :: word => word
  | word => word

/-- The identifier that a text stands for: the same one with the mark and without. -/
def identifier? (text : String) : Option String :=
  (word? text).map fun word => String.ofList (unmarked word.toList)

/-- A character that begins an identifier, and characters that continue it. -/
def IsPlainWord (word : List Char) : Prop :=
  ∃ first rest, word = first :: rest ∧ isIdentStart first = true ∧
    ∀ c ∈ rest, isIdentContinue c = true

/-- A plain word, or one that is marked. -/
def IsWord (word : List Char) : Prop :=
  IsPlainWord (unmarked word)

/-- A text is an identifier when it is one word and that word names something. -/
theorem isIdentifier_iff (text : String) :
    isIdentifier text = true ↔ ∃ word, word? text = some word ∧ isName word = true := by
  have same : isIdentifier text = (word? text).any isName := by
    by_cases single : ∃ word span, TokenTree.ofText? text = some [.leaf (.word word) span]
    · obtain ⟨word, span, found⟩ := single
      rw [isIdentifier, word?, found]
      rfl
    · have noWord : word? text = none := by
        unfold word?
        split
        · rename_i found
          exact absurd ⟨_, _, found⟩ single
        · rfl
      have noName : isIdentifier text = false := by
        unfold isIdentifier
        split
        · rename_i found
          exact absurd ⟨_, _, found⟩ single
        · rfl
      rw [noWord, noName]
      rfl
  rw [same]
  exact Option.any_eq_true isName (word? text)

/-! ## Cutting off a word -/

theorem isPlainWord_take {text : List Char} {length : Nat} (measured : wordLength text = some length) :
    IsPlainWord (text.take length) := by
  cases text with
  | nil => cases measured
  | cons first rest =>
    rw [wordLength] at measured
    by_cases start : isIdentStart first
    · rw [if_pos start] at measured
      cases measured
      refine ⟨first, rest.takeWhile isIdentContinue, ?_, start, ?_⟩
      · rw [Nat.add_comm, List.take_succ_cons]
        congr 1
        exact (List.prefix_iff_eq_take.mp (List.takeWhile_prefix _)).symm
      · exact List.all_eq_true.mp List.all_takeWhile
    · rw [if_neg start] at measured
      cases measured

/-- A hash continues no word, so a plain word is not taken for a marked one. -/
theorem unmarked_eq_self {word : List Char} (plain : IsPlainWord word) : unmarked word = word := by
  obtain ⟨first, rest, rfl, _, continues⟩ := plain
  unfold unmarked
  split
  · rename_i same
    cases same
    exact absurd (continues '#' List.mem_cons_self) (by decide)
  · rfl

theorem isWord_of_isPlainWord {word : List Char} (plain : IsPlainWord word) : IsWord word := by
  unfold IsWord
  rw [unmarked_eq_self plain]
  exact plain

/-- A word is what its mark is put in front of. -/
theorem eq_unmarked_or_marked (word : List Char) :
    word = unmarked word ∨ word = 'r' :: '#' :: unmarked word := by
  unfold unmarked
  split
  · exact .inr rfl
  · exact .inl rfl

/-- The hash of its mark is all that may stand in a word besides what continues one. -/
theorem not_mem_of_isWord {word : List Char} (isWord : IsWord word) {c : Char} (noHash : c ≠ '#')
    (breaks : isIdentContinue c = false) : c ∉ word := by
  have notPlain : c ∉ unmarked word := by
    obtain ⟨first, rest, same, start, continues⟩ := isWord
    rw [same]
    intro mem
    rcases List.mem_cons.mp mem with rfl | mem
    · rw [isIdentContinue_of_isIdentStart start] at breaks
      cases breaks
    · rw [continues c mem] at breaks
      cases breaks
  rcases eq_unmarked_or_marked word with same | same
  · exact same ▸ notPlain
  · rw [same]
    intro mem
    rcases List.mem_cons.mp mem with rfl | mem
    · exact absurd breaks (by decide)
    · rcases List.mem_cons.mp mem with rfl | mem
      · exact noHash rfl
      · exact notPlain mem

theorem isWord_take {text : List Char} {length : Nat}
    (measured : markedWordLength text = some length) : IsWord (text.take length) := by
  unfold markedWordLength at measured
  split at measured
  · rename_i rest
    split at measured
    · rename_i inner found
      split at measured
      · cases measured
      · cases measured
        rw [Nat.add_comm]
        exact isPlainWord_take found
    · cases measured
  · exact isWord_of_isPlainWord (isPlainWord_take measured)

/-! ## The first piece of a text -/

private theorem kind_of_lineComment (text : List Char) :
    lineCommentKind text = .trivia ∨ ∃ inner, lineCommentKind text = .document inner := by
  unfold lineCommentKind
  split <;> simp

private theorem kind_of_blockComment (text : List Char) :
    blockCommentKind text = .trivia ∨ ∃ inner, blockCommentKind text = .document inner := by
  unfold blockCommentKind
  split <;> simp

/-- What a comment can be, and how long. -/
inductive IsComment : List Char → PieceKind → Nat → Prop where
  | line {rest : List Char} {kind : PieceKind} (sense : lineCommentKind rest = kind) :
      IsComment ('/' :: '/' :: rest) kind (2 + lineLength rest)
  | block {rest : List Char} {kind : PieceKind} {inner : Nat} (closed : blockLength 0 rest = some inner)
      (sense : blockCommentKind rest = kind) : IsComment ('/' :: '*' :: rest) kind (2 + inner)

theorem isComment_of_comment? {text : List Char} {kind : PieceKind} {length : Nat}
    (found : comment? text = some (kind, length)) : IsComment text kind length := by
  unfold comment? at found
  split at found
  · simp only at found
    split at found
    · cases found
    · cases found
      exact .line rfl
  · split at found
    · rename_i closed
      simp only at found
      split at found
      · cases found
      · cases found
        exact .block closed rfl
    · cases found
  · cases found

theorem two_le_of_comment? {text : List Char} {kind : PieceKind} {length : Nat}
    (found : comment? text = some (kind, length)) : ∃ more, length = more + 2 := by
  cases isComment_of_comment? found with
  | line => exact ⟨_, Nat.add_comm 2 _⟩
  | block => exact ⟨_, Nat.add_comm 2 _⟩

/-- A comment means nothing or documents something. -/
theorem kind_of_comment? {text : List Char} {kind : PieceKind} {length : Nat}
    (found : comment? text = some (kind, length)) :
    kind = .trivia ∨ ∃ inner, kind = .document inner := by
  cases isComment_of_comment? found with
  | line sense => exact sense ▸ kind_of_lineComment _
  | block _ sense => exact sense ▸ kind_of_blockComment _

/-- What a piece can be that is no blank, no comment and no bracket, and how long. -/
inductive IsLexeme (text : List Char) : PieceKind → Nat → Prop where
  | literal {length : Nat} (measured : literalLength text = some length) : IsLexeme text .literal length
  | lifetime {rest : List Char} (quoted : text = '\'' :: rest) (begins : startsLifetime rest = true) :
      IsLexeme text .punctuation 1
  | operator (unquoted : text.head? ≠ some '\'') (begins : startsOperator text = true) :
      IsLexeme text .punctuation 1
  | word {length : Nat} (noOperator : startsOperator text = false) (measured : plainWordLength text = some length) :
      IsLexeme text .word length

theorem isLexeme_of_lexeme? {text : List Char} {kind : PieceKind} {length : Nat}
    (found : lexeme? text = some (kind, length)) : IsLexeme text kind length := by
  unfold lexeme? at found
  split at found
  · rename_i measured
    cases found
    exact .literal measured
  · split at found
    · split at found
      · rename_i begins
        cases found
        exact .lifetime rfl begins
      · cases found
    · rename_i unquoted
      split at found
      · rename_i begins
        cases found
        refine .operator (fun quote => ?_) begins
        obtain ⟨rest, same⟩ := List.head?_eq_some_iff.mp quote
        exact unquoted rest same
      · rename_i noOperator
        obtain ⟨_, measured, same⟩ := Option.map_eq_some_iff.mp found
        cases same
        exact .word (Bool.eq_false_iff.mpr noOperator) measured

/-- What the first piece of a text can be, and how long. -/
inductive IsPiece (text : List Char) : PieceKind → Nat → Prop where
  | blanks {c : Char} {rest : List Char} (spelled : text = c :: rest) (blank : isSeparator c = true) :
      IsPiece text .trivia (1 + (rest.takeWhile isSeparator).length)
  | comment {kind : PieceKind} {length : Nat} (begins : startsComment text = true)
      (found : comment? text = some (kind, length)) : IsPiece text kind length
  | error (marked : errorMark.isPrefixOf text = true) : IsPiece text .literal errorMark.length
  | opening {delimiter : Delimiter} (noOperator : startsOperator text = false) : IsPiece text (.opening delimiter) 1
  | closing {delimiter : Delimiter} (noOperator : startsOperator text = false) : IsPiece text (.closing delimiter) 1
  | lexeme {kind : PieceKind} {length : Nat} (noComment : startsComment text = false)
      (lexeme : IsLexeme text kind length) : IsPiece text kind length

theorem isPiece_of_piece? {text : List Char} {kind : PieceKind} {length : Nat}
    (found : piece? text = some (kind, length)) : IsPiece text kind length := by
  unfold piece? at found
  split at found
  · cases found
  · split at found
    · rename_i blank
      cases found
      exact .blanks rfl blank
    · split at found
      · rename_i begins
        exact .comment begins found
      · rename_i noComment
        split at found
        · split at found
          · rename_i marked
            cases found
            exact .error marked
          · cases found
            exact .opening rfl
        · cases found
          exact .opening rfl
        · cases found
          exact .opening rfl
        · cases found
          exact .closing rfl
        · cases found
          exact .closing rfl
        · cases found
          exact .closing rfl
        · exact .lexeme (Bool.eq_false_iff.mpr noComment) (isLexeme_of_lexeme? found)

/-- What is cut off as a word was measured as one. -/
theorem plainWordLength_of_piece? {text : List Char} {length : Nat}
    (found : piece? text = some (.word, length)) : plainWordLength text = some length := by
  cases isPiece_of_piece? found with
  | comment _ found => rcases kind_of_comment? found with same | ⟨_, same⟩ <;> cases same
  | lexeme _ lexeme =>
    cases lexeme with
    | word _ measured => exact measured

/-- What is cut off as a word is one. -/
theorem isWord_of_piece? {text : List Char} {length : Nat}
    (found : piece? text = some (.word, length)) : IsWord (text.take length) := by
  have measured := plainWordLength_of_piece? found
  unfold plainWordLength at measured
  split at measured
  · cases measured
  · exact isWord_take measured

/-- Every piece of a text was cut off the beginning of what was left of it. -/
theorem piece?_of_mem {text : List Char} {pieces : List Piece} (cut : Piece.ofText text = some pieces)
    {piece : Piece} (mem : piece ∈ pieces) :
    ∃ left length, piece? left = some (piece.kind, length + 1) ∧
      piece.text = left.take (length + 1) := by
  have cutFrom : ∀ before text, Piece.ofText.go before text = some pieces → piece ∈ before ∨
      ∃ left length, piece? left = some (piece.kind, length + 1) ∧
        piece.text = left.take (length + 1) := by
    intro before text cut
    fun_induction Piece.ofText.go before text with
    | case1 before text ended =>
      cases cut
      exact .inl (List.mem_reverse.mp mem)
    | case2 before text filled kind length found ih =>
      rcases ih cut with known | later
      · rcases List.mem_cons.mp known with rfl | known
        · exact .inr ⟨text, length, found, rfl⟩
        · exact .inl known
      · exact .inr later
    | case3 => cases cut
  rcases cutFrom [] text cut with known | found
  · exact absurd known List.not_mem_nil
  · exact found

/-! ## Tokens -/

/-- The text of the next piece, as far as there is one. -/
def nextText (pieces : List Piece) : List Char :=
  (pieces.head?.map Piece.text).getD []

theorem ofPieces_cons (piece : Piece) (rest : List Piece) :
    Token.ofPieces (piece :: rest) = piece.tokens (nextText rest) ++ Token.ofPieces rest := by
  cases rest with
  | nil => exact (List.append_nil _).symm
  | cons next rest => rfl

/-- A character of an operator is joined to what follows if that goes on with the operator. -/
theorem tokens_punctuation {c : Char} (noQuote : c ≠ '\'') (behind next : List Char) :
    Piece.tokens ⟨.punctuation, c :: behind⟩ next = [.leaf (.mark c (startsOperator next))] := by
  rw [Piece.tokens]
  simp only

/-- With their places left out, the placed tokens are the tokens of the pieces. -/
theorem map_fst_placed (start : Position) (pieces : List Piece) :
    (Token.placed start pieces).map Prod.fst = Token.ofPieces pieces := by
  have placedFrom : ∀ before, (Token.placed.go start before pieces).map Prod.fst =
      before.reverse.map Prod.fst ++ Token.ofPieces pieces := by
    induction pieces generalizing start with
    | nil => exact fun before => (List.append_nil _).symm
    | cons piece rest ih =>
      intro before
      have pushed : ∀ (span : Span) (tokens : List Token) (before : List (Token × Span)),
          (tokens.foldl (fun read token => (token, span) :: read) before).reverse.map Prod.fst =
            before.reverse.map Prod.fst ++ tokens := by
        intro span tokens
        induction tokens with
        | nil => exact fun before => (List.append_nil _).symm
        | cons token tokens ih => exact fun before => (ih _).trans (by simp)
      rw [Token.placed.go, ih, pushed, ofPieces_cons, List.append_assoc]
      rfl
  exact placedFrom []

namespace TokenTree

/-- The tokens read so far, when `stack` holds the open groups and `before` what stands in the
innermost. -/
def spent : List Open → List TokenTree → List Token
  | [], before => flatten before.reverse
  | inner :: outer, before =>
    spent outer inner.before ++ .opening inner.delimiter :: flatten before.reverse

theorem flatten_append (trees more : List TokenTree) :
    flatten (trees ++ more) = flatten trees ++ flatten more := by
  induction trees with
  | nil => rfl
  | cons tree rest ih => rw [List.cons_append, flatten, flatten, ih, List.append_assoc]

private theorem spent_cons (stack : List Open) (tree : TokenTree) (before : List TokenTree) :
    spent stack (tree :: before) = spent stack before ++ tree.tokens := by
  have last : flatten (tree :: before).reverse = flatten before.reverse ++ tree.tokens := by
    rw [List.reverse_cons, flatten_append, flatten, flatten, List.append_nil]
  cases stack with
  | nil => exact last
  | cons inner outer => rw [spent, spent, last, List.append_assoc]; rfl

/-- Matching brackets loses no token and adds none. -/
theorem flatten_build {stack : List Open} {before trees : List TokenTree}
    {tokens : List (Token × Span)} (built : build stack before tokens = some trees) :
    flatten trees = spent stack before ++ tokens.map Prod.fst := by
  fun_induction build stack before tokens with
  | case1 before =>
    cases built
    exact (List.append_nil _).symm
  | case2 => cases built
  | case3 stack before inner span rest ih =>
    rw [ih built, spent_cons, List.append_assoc]
    rfl
  | case4 stack before delimiter span rest ih =>
    rw [ih built, spent, List.append_assoc]
    rfl
  | case5 => cases built
  | case6 before span rest inner outer ih =>
    rw [ih built, spent_cons, spent]
    simp [tokens]
  | case7 => cases built

end TokenTree

/-! ## The only token of a text -/

/-- Blanks or a comment. -/
def IsTrivia (text : List Char) : Prop :=
  (∀ c ∈ text, isSeparator c = true) ∨ startsComment text = true

theorem startsComment_take {text : List Char} (comment : startsComment text = true)
    (length : Nat) : startsComment (text.take (length + 2)) = true := by
  unfold startsComment at comment
  split at comment
  · rfl
  · rfl
  · cases comment

/-- What is cut off as trivia is blanks or a comment. -/
theorem isTrivia_of_piece? {text : List Char} {length : Nat}
    (found : piece? text = some (.trivia, length)) : IsTrivia (text.take length) := by
  cases isPiece_of_piece? found with
  | @blanks c rest spelled blank =>
    have taken : (c :: rest).take (1 + (rest.takeWhile isSeparator).length) =
        c :: rest.takeWhile isSeparator := by
      rw [Nat.add_comm, List.take_succ_cons]
      congr 1
      exact (List.prefix_iff_eq_take.mp (List.takeWhile_prefix _)).symm
    rw [spelled, taken]
    refine .inl fun d mem => ?_
    rcases List.mem_cons.mp mem with rfl | mem
    · exact blank
    · exact List.all_eq_true.mp List.all_takeWhile d mem
  | comment begins found =>
    obtain ⟨more, rfl⟩ := two_le_of_comment? found
    exact .inr (startsComment_take begins more)
  | lexeme _ lexeme => cases lexeme

private theorem kind_of_tokens_eq_nil {piece : Piece} {next : List Char} (filled : piece.text ≠ [])
    (nothing : piece.tokens next = []) : piece.kind = .trivia := by
  unfold Piece.tokens at nothing
  split at nothing
  · assumption
  · exact absurd nothing (by simp [documentTokens])
  · cases nothing
  · cases nothing
  · split at nothing
    · cases nothing
    · cases nothing
    · rename_i empty
      exact absurd empty filled
  · cases nothing
  · cases nothing

private theorem kind_of_tokens_eq_word {piece : Piece} {next : List Char} {word : String}
    (single : piece.tokens next = [.leaf (.word word)]) :
    piece.kind = .word ∧ piece.text = word.toList := by
  unfold Piece.tokens at single
  split at single
  · cases single
  · exact absurd single (by simp [documentTokens])
  · exact absurd single (by simp)
  · rename_i kind
    have spelled : String.ofList piece.text = word := by simpa using single
    exact ⟨kind, by rw [← spelled, String.toList_ofList]⟩
  · split at single <;> exact absurd single (by simp)
  · exact absurd single (by simp)
  · exact absurd single (by simp)

private theorem trivia_of_ofPieces_eq_nil {pieces : List Piece}
    (filled : ∀ piece ∈ pieces, piece.text ≠ []) (nothing : Token.ofPieces pieces = []) :
    ∀ piece ∈ pieces, piece.kind = .trivia := by
  induction pieces with
  | nil => exact fun _ mem => nomatch mem
  | cons first rest ih =>
    rw [ofPieces_cons, List.append_eq_nil_iff] at nothing
    intro piece mem
    rcases List.mem_cons.mp mem with rfl | mem
    · exact kind_of_tokens_eq_nil (filled _ List.mem_cons_self) nothing.1
    · exact ih (fun piece mem => filled piece (List.mem_cons_of_mem _ mem)) nothing.2 piece mem

/-- Pieces whose only token is a word are that word and trivia around it. -/
theorem split_of_ofPieces_eq_word {pieces : List Piece} {word : String}
    (filled : ∀ piece ∈ pieces, piece.text ≠ [])
    (single : Token.ofPieces pieces = [.leaf (.word word)]) :
    ∃ before after, pieces = before ++ ⟨.word, word.toList⟩ :: after ∧
      (∀ piece ∈ before ++ after, piece.kind = .trivia) := by
  induction pieces with
  | nil => cases single
  | cons first rest ih =>
    have filledRest : ∀ piece ∈ rest, piece.text ≠ [] :=
      fun piece mem => filled piece (List.mem_cons_of_mem _ mem)
    rw [ofPieces_cons, List.append_eq_singleton_iff] at single
    rcases single with ⟨nothing, single⟩ | ⟨single, nothing⟩
    · obtain ⟨before, after, rfl, trivia⟩ := ih filledRest single
      refine ⟨first :: before, after, rfl, fun piece mem => ?_⟩
      rcases List.mem_cons.mp mem with rfl | mem
      · exact kind_of_tokens_eq_nil (filled _ List.mem_cons_self) nothing
      · exact trivia piece mem
    · obtain ⟨kind, text⟩ := kind_of_tokens_eq_word single
      have same : first = ⟨.word, word.toList⟩ := by
        cases first
        cases kind
        cases text
        rfl
      refine ⟨[], rest, by rw [same]; rfl, fun piece mem => ?_⟩
      exact trivia_of_ofPieces_eq_nil filledRest nothing piece mem

/-- The text behind a byte order mark, if it begins with one. -/
def afterMark (text : List Char) : List Char :=
  if text.head? = some TokenTree.byteOrderMark then text.tail else text

/-- The trees of a text have the tokens of its pieces. -/
theorem pieces_of_ofText? {text : String} {trees : List TokenTree} (read : TokenTree.ofText? text = some trees) :
    ∃ pieces, Piece.ofText (afterMark text.toList) = some pieces ∧
      Token.ofPieces pieces = TokenTree.flatten trees := by
  unfold TokenTree.ofText? at read
  simp only at read
  split at read
  · rename_i pieces cut
    have tokens := TokenTree.flatten_build read
    rw [map_fst_placed] at tokens
    exact ⟨pieces, cut, tokens.symm⟩
  · cases read

theorem text_ne_nil_of_mem {text : List Char} {pieces : List Piece}
    (cut : Piece.ofText text = some pieces) {piece : Piece} (mem : piece ∈ pieces) :
    piece.text ≠ [] := by
  intro nothing
  obtain ⟨left, length, found, taken⟩ := piece?_of_mem cut mem
  cases left with
  | nil => cases found
  | cons c rest => exact absurd (taken.symm.trans nothing) (by simp)

/-- A text with one word is cut into pieces that have this one token. -/
theorem pieces_of_word? {text word : String} (found : word? text = some word) :
    ∃ pieces, Piece.ofText (afterMark text.toList) = some pieces ∧
      Token.ofPieces pieces = [.leaf (.word word)] := by
  obtain ⟨span, trees⟩ : ∃ span, TokenTree.ofText? text = some [.leaf (.word word) span] := by
    unfold word? at found
    split at found
    · rename_i trees
      cases found
      exact ⟨_, trees⟩
    · cases found
  exact pieces_of_ofText? trees

/-- A text with one word is that word with blanks and comments around it. -/
theorem spelling_of_word? {text word : String} (found : word? text = some word) :
    IsWord word.toList ∧ ∃ before after : List (List Char),
      afterMark text.toList = before.flatten ++ word.toList ++ after.flatten ∧
        ∀ part ∈ before ++ after, part ≠ [] ∧ IsTrivia part := by
  obtain ⟨pieces, cut, single⟩ := pieces_of_word? found
  have filled : ∀ piece ∈ pieces, piece.text ≠ [] := fun piece mem => text_ne_nil_of_mem cut mem
  obtain ⟨before, after, rfl, trivia⟩ := split_of_ofPieces_eq_word filled single
  have cutOff : ∀ piece ∈ before ++ after, piece ∈ before ++ ⟨.word, word.toList⟩ :: after := by
    intro piece mem
    rcases List.mem_append.mp mem with mem | mem
    · exact List.mem_append_left _ mem
    · exact List.mem_append_right _ (List.mem_cons_of_mem _ mem)
  constructor
  · obtain ⟨left, length, found, taken⟩ :=
      piece?_of_mem cut (List.mem_append_right before List.mem_cons_self)
    have same : word.toList = left.take (length + 1) := taken
    rw [same]
    exact isWord_of_piece? found
  · refine ⟨before.map Piece.text, after.map Piece.text, ?_, fun part mem => ?_⟩
    · have whole := Piece.flatMap_text_ofText cut
      rw [List.flatMap_append, List.flatMap_cons] at whole
      simpa [List.flatMap] using whole.symm
    · rw [← List.map_append] at mem
      obtain ⟨piece, known, rfl⟩ := List.mem_map.mp mem
      obtain ⟨left, length, found, taken⟩ := piece?_of_mem cut (cutOff piece known)
      rw [trivia piece known] at found
      exact ⟨filled piece (cutOff piece known), taken ▸ isTrivia_of_piece? found⟩

private theorem afterMark_eq_self {text : List Char} (clean : TokenTree.byteOrderMark ∉ text) :
    afterMark text = text := by
  unfold afterMark
  split
  · rename_i marked
    exact absurd (List.mem_of_mem_head? marked) clean
  · rfl

/-- Blanks hold a separator, and comments begin with a slash. -/
private theorem not_plain_of_isTrivia {part : List Char} (filled : part ≠ []) (trivia : IsTrivia part) :
    ∃ c ∈ part, isSeparator c = true ∨ c = '/' := by
  rcases trivia with blank | comment
  · obtain ⟨c, mem⟩ := List.exists_mem_of_ne_nil part filled
    exact ⟨c, mem, .inl (blank c mem)⟩
  · refine ⟨'/', ?_, .inr rfl⟩
    unfold startsComment at comment
    split at comment
    · exact List.mem_cons_self
    · exact List.mem_cons_self
    · cases comment

/-- Where neither blanks nor comments can stand, the word is the text itself. -/
theorem eq_of_word? {text word : String} (found : word? text = some word)
    (clean : ∀ c ∈ text.toList, isSeparator c = false ∧ c ≠ '/' ∧ c ≠ TokenTree.byteOrderMark) :
    word = text := by
  obtain ⟨_, before, after, spelled, trivia⟩ := spelling_of_word? found
  rw [afterMark_eq_self fun mem => (clean _ mem).2.2 rfl] at spelled
  have within : ∀ part ∈ before ++ after, ∀ c ∈ part, c ∈ text.toList := by
    intro part mem c inPart
    rw [spelled]
    rcases List.mem_append.mp mem with mem | mem
    · exact List.mem_append_left _ (List.mem_append_left _ (List.mem_flatten_of_mem mem inPart))
    · exact List.mem_append_right _ (List.mem_flatten_of_mem mem inPart)
  have nothing : before ++ after = [] := by
    refine List.eq_nil_iff_forall_not_mem.mpr fun part mem => ?_
    obtain ⟨filled, isTrivia⟩ := trivia part mem
    obtain ⟨c, inPart, separates | slash⟩ := not_plain_of_isTrivia filled isTrivia
    · rw [(clean c (within part mem c inPart)).1] at separates
      cases separates
    · exact (clean c (within part mem c inPart)).2.1 slash
  obtain ⟨noBefore, noAfter⟩ := List.append_eq_nil_iff.mp nothing
  rw [noBefore, noAfter, List.flatten_nil, List.nil_append, List.append_nil] at spelled
  exact String.toList_injective spelled.symm

end SlotArray.Source
