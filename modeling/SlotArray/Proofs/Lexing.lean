import SlotArray.Proofs.Words

/-! How a text falls into tokens. Pieces are cut off its beginning one by one, so the tokens of a
text are those of its first piece and those of the rest; each lemma here says what the first piece
is, as far as the characters behind it leave no doubt. -/
namespace SlotArray.Source
open SlotArray.Text

/-- The tokens of a text, without their places. -/
def tokens? (text : List Char) : Option (List Token) :=
  (Piece.ofText text).map Token.ofPieces

theorem tokens?_nil : tokens? [] = some [] := by
  rw [tokens?, Piece.ofText, Piece.ofText.go]
  rfl

/-! ## One piece at a time -/

private theorem ofText_go (before : List Piece) (text : List Char) :
    Piece.ofText.go before text = (Piece.ofText text).map (before.reverse ++ ·) := by
  unfold Piece.ofText
  induction measure : text.length using Nat.strongRecOn generalizing before text with
  | _ size ih =>
    rw [Piece.ofText.go, Piece.ofText.go]
    by_cases ended : text.isEmpty = true
    · simp [ended]
    · rw [if_neg ended, if_neg ended]
      split
      · rename_i kind length found
        have shorter : (text.drop (length + 1)).length < size := by
          cases text with
          | nil => cases found
          | cons c rest =>
            rw [← measure]
            simp only [List.drop_succ_cons, List.length_drop, List.length_cons]
            omega
        rw [ih _ shorter (_ :: before) _ rfl, ih _ shorter [_] _ rfl, Option.map_map]
        simp [Function.comp_def]
      · rfl

theorem ofText_of_piece? {text : List Char} {kind : PieceKind} {length : Nat}
    (found : piece? text = some (kind, length + 1)) :
    Piece.ofText text =
      (Piece.ofText (text.drop (length + 1))).map (⟨kind, text.take (length + 1)⟩ :: ·) := by
  have filled : ¬ text.isEmpty = true := by
    cases text with
    | nil => cases found
    | cons => exact Bool.false_ne_true
  rw [Piece.ofText, Piece.ofText.go, if_neg filled, found]
  exact ofText_go _ _

theorem ofText_of_no_piece {c : Char} {rest : List Char} (stuck : piece? (c :: rest) = none) :
    Piece.ofText (c :: rest) = none := by
  have filled : ¬ (c :: rest).isEmpty = true := Bool.false_ne_true
  rw [Piece.ofText, Piece.ofText.go, if_neg filled, stuck]

/-- A text that falls into pieces begins with the first of them. -/
theorem exists_piece_of_ofText {c : Char} {rest : List Char} {pieces : List Piece}
    (cut : Piece.ofText (c :: rest) = some pieces) :
    ∃ kind length later, piece? (c :: rest) = some (kind, length + 1) ∧
      pieces = ⟨kind, (c :: rest).take (length + 1)⟩ :: later ∧
      Piece.ofText ((c :: rest).drop (length + 1)) = some later := by
  have filled : ¬ (c :: rest).isEmpty = true := Bool.false_ne_true
  rw [Piece.ofText, Piece.ofText.go, if_neg filled] at cut
  split at cut
  · rename_i kind length found
    rw [ofText_go] at cut
    obtain ⟨later, rest, rfl⟩ := Option.map_eq_some_iff.mp cut
    exact ⟨kind, length, later, found, rfl, rest⟩
  · cases cut

/-- What holds of the empty text, and of a text whenever it holds of what is left behind its first piece,
holds of every text that falls into pieces. -/
theorem ofText_induction {motive : List Char → List Piece → Prop} (ended : motive [] [])
    (further : ∀ {c : Char} {rest : List Char} {kind : PieceKind} {length : Nat} {later : List Piece},
      piece? (c :: rest) = some (kind, length + 1) → Piece.ofText ((c :: rest).drop (length + 1)) = some later →
      motive ((c :: rest).drop (length + 1)) later →
      motive (c :: rest) (⟨kind, (c :: rest).take (length + 1)⟩ :: later))
    {text : List Char} {pieces : List Piece} (cut : Piece.ofText text = some pieces) : motive text pieces := by
  induction pieces generalizing text with
  | nil =>
    cases text with
    | nil => exact ended
    | cons c rest =>
      obtain ⟨_, _, _, _, same, _⟩ := exists_piece_of_ofText cut
      cases same
  | cons first later ih =>
    cases text with
    | nil =>
      rw [Piece.ofText, Piece.ofText.go] at cut
      cases cut
    | cons c rest =>
      obtain ⟨kind, length, others, found, same, cutRest⟩ := exists_piece_of_ofText cut
      obtain ⟨rfl, rfl⟩ := List.cons.inj same
      exact further found cutRest (ih cutRest)

/-- Where a comment begins, it is the first piece. -/
theorem piece?_of_startsComment {text : List Char} (comment : startsComment text = true) :
    piece? text = comment? text := by
  unfold startsComment at comment
  split at comment
  · rfl
  · rfl
  · cases comment

/-- Whether an operator goes on can be told from the text behind it as from its next piece. -/
theorem startsOperator_nextText {text : List Char} {pieces : List Piece}
    (cut : Piece.ofText text = some pieces) :
    startsOperator (nextText pieces) = startsOperator text := by
  cases text with
  | nil =>
    rw [Piece.ofText, Piece.ofText.go] at cut
    cases cut
    rfl
  | cons c rest =>
    obtain ⟨kind, length, later, found, rfl, _⟩ := exists_piece_of_ofText cut
    have same : startsComment ((c :: rest).take (length + 1)) = startsComment (c :: rest) := by
      cases comment : startsComment (c :: rest) with
      | true =>
        rw [piece?_of_startsComment comment] at found
        obtain ⟨more, same⟩ := two_le_of_comment? found
        rw [same]
        exact startsComment_take comment more
      | false =>
        cases taken : startsComment ((c :: rest).take (length + 1)) with
        | false => rfl
        | true =>
          rw [← List.take_append_drop (length + 1) (c :: rest)] at comment
          unfold startsComment at taken
          split at taken
          · rename_i same
            rw [same] at comment
            cases comment
          · rename_i same
            rw [same] at comment
            cases comment
          · cases taken
    simp only [nextText, List.head?_cons, Option.map_some, Option.getD_some]
    rw [List.take_succ_cons] at same ⊢
    simp only [startsOperator, same]

/-- The tokens of a text are those of its first piece and those of the rest. -/
theorem tokens?_of_piece? {text : List Char} {kind : PieceKind} {length : Nat}
    (found : piece? text = some (kind, length + 1)) :
    tokens? text = (tokens? (text.drop (length + 1))).map
      (Piece.tokens ⟨kind, text.take (length + 1)⟩ (text.drop (length + 1)) ++ ·) := by
  rw [tokens?, tokens?, ofText_of_piece? found, Option.map_map, Option.map_map]
  cases cut : Piece.ofText (text.drop (length + 1)) with
  | none => rfl
  | some pieces =>
    have next : Piece.tokens ⟨kind, text.take (length + 1)⟩ (nextText pieces) =
        Piece.tokens ⟨kind, text.take (length + 1)⟩ (text.drop (length + 1)) := by
      cases kind with
      | punctuation => simp only [Piece.tokens, startsOperator_nextText cut]
      | _ => rfl
    simp only [Option.map_some, Function.comp_apply, ofPieces_cons, next]

/-- A first piece whose tokens do not depend on what follows. -/
theorem tokens?_append_of_piece? (front : List Char) {rest : List Char} {kind : PieceKind}
    {tokens : List Token} (found : piece? (front ++ rest) = some (kind, front.length)) (filled : front ≠ [])
    (read : Piece.tokens ⟨kind, front⟩ rest = tokens) :
    tokens? (front ++ rest) = (tokens? rest).map (tokens ++ ·) := by
  obtain ⟨length, same⟩ := Nat.exists_eq_succ_of_ne_zero fun none =>
    filled (List.eq_nil_of_length_eq_zero none)
  have cut : piece? (front ++ rest) = some (kind, length + 1) := by rw [found, same]
  have taken : (front ++ rest).take (length + 1) = front := by
    rw [← Nat.succ_eq_add_one, ← same, List.take_left']
    rfl
  have left : (front ++ rest).drop (length + 1) = rest := by
    rw [← Nat.succ_eq_add_one, ← same, List.drop_left']
    rfl
  rw [tokens?_of_piece? cut, taken, left, read]

/-! ## Blanks, brackets and operators -/

/-- Blanks have no tokens, wherever they end. -/
theorem tokens?_separator {c : Char} (blank : isSeparator c = true) (rest : List Char) :
    tokens? (c :: rest) = tokens? rest := by
  have skipped : ∀ {c : Char} (rest : List Char), isSeparator c = true →
      tokens? (c :: rest) = tokens? (rest.dropWhile isSeparator) := by
    intro c rest blank
    have found : piece? (c :: rest) = some (.trivia, (rest.takeWhile isSeparator).length + 1) := by
      rw [Nat.add_comm]
      exact if_pos blank
    have left : rest.drop (rest.takeWhile isSeparator).length = rest.dropWhile isSeparator := by
      have whole := @List.takeWhile_append_dropWhile _ isSeparator rest
      calc rest.drop (rest.takeWhile isSeparator).length
        _ = (rest.takeWhile isSeparator ++ rest.dropWhile isSeparator).drop
            (rest.takeWhile isSeparator).length := by rw [whole]
        _ = rest.dropWhile isSeparator := List.drop_left
    rw [tokens?_of_piece? found, List.drop_succ_cons, left]
    exact Option.map_id'
  rw [skipped rest blank]
  cases rest with
  | nil => rfl
  | cons d more =>
    by_cases next : isSeparator d = true
    · rw [skipped more next, List.dropWhile_cons_of_pos next]
    · rw [List.dropWhile_cons_of_neg next]

/-- The token of a bracket, an opening parenthesis apart. -/
def bracket? : Char → Option Token
  | '[' => some (.opening .bracket)
  | '\x7b' => some (.opening .brace)
  | ')' => some (.closing .parenthesis)
  | ']' => some (.closing .bracket)
  | '\x7d' => some (.closing .brace)
  | _ => none

theorem tokens?_bracket {c : Char} {token : Token} (bracket : bracket? c = some token)
    (rest : List Char) : tokens? (c :: rest) = (tokens? rest).map ([token] ++ ·) := by
  have first : ∃ kind, piece? (c :: rest) = some (kind, 1) ∧ Piece.tokens ⟨kind, [c]⟩ rest = [token] := by
    unfold bracket? at bracket
    split at bracket <;> cases bracket <;> exact ⟨_, rfl, rfl⟩
  obtain ⟨kind, found, read⟩ := first
  exact tokens?_append_of_piece? [c] found (List.cons_ne_nil _ _) read

theorem startsComment_cons {c : Char} (other : c ≠ '/') (text : List Char) :
    startsComment (c :: text) = false := by
  unfold startsComment
  split
  · rename_i same
    exact absurd (List.cons.inj same).1 other
  · rename_i same
    exact absurd (List.cons.inj same).1 other
  · rfl

theorem startsComment_slash {c : Char} (noSlash : c ≠ '/') (noStar : c ≠ '*') (text : List Char) :
    startsComment ('/' :: c :: text) = false := by
  unfold startsComment
  split
  · rename_i same
    exact absurd (List.cons.inj (List.cons.inj same).2).1 noSlash
  · rename_i same
    exact absurd (List.cons.inj (List.cons.inj same).2).1 noStar
  · rfl

/-- An opening parenthesis is one unless a comment makes it the beginning of an error mark. -/
theorem tokens?_parenthesis {rest : List Char} (noComment : startsComment rest = false) :
    tokens? ('(' :: rest) = (tokens? rest).map ([.opening .parenthesis] ++ ·) := by
  have unmarked : errorMark.isPrefixOf ('(' :: rest) = false := by
    cases marked : errorMark.isPrefixOf ('(' :: rest) with
    | false => rfl
    | true =>
      obtain ⟨more, same⟩ := List.isPrefixOf_iff_prefix.mp marked
      have chars : errorMark = '(' :: '/' :: '*' :: "ERROR*/)".toList := rfl
      rw [chars] at same
      rw [← (List.cons.inj same).2] at noComment
      cases noComment
  have found : piece? ('(' :: rest) = some (.opening .parenthesis, 1) := by
    have cut : piece? ('(' :: rest) = if errorMark.isPrefixOf ('(' :: rest) then
        some (.literal, errorMark.length) else some (.opening .parenthesis, 1) := rfl
    rw [cut, unmarked]
    rfl
  exact tokens?_append_of_piece? ['('] found (List.cons_ne_nil _ _) rfl

/-- The characters of operators, one by one. -/
def operators : List Char :=
  ['~', '!', '@', '#', '$', '%', '^', '&', '*', '-', '=', '+', '|', ';', ':', ',', '<', '.', '>', '/', '?',
    '\'']

theorem isOperator_eq (c : Char) : isOperator c = operators.contains c := by
  have chars : "~!@#$%^&*-=+|;:,<.>/?'".toList = operators := by decide
  rw [isOperator, chars]

/-- The characters of operators that begin neither a comment nor a lifetime. -/
def isPlainOperator (c : Char) : Bool := isOperator c && c != '/' && c != '\''

theorem isPlainOperator_iff {c : Char} : isPlainOperator c = true ↔ isOperator c = true ∧ c ≠ '/' ∧ c ≠ '\'' := by
  rw [isPlainOperator, Bool.and_eq_true, Bool.and_eq_true, bne_iff_ne, bne_iff_ne, and_assoc]

/-- A character of an operator is a piece by itself. -/
theorem piece?_operator {c : Char} (operator : isPlainOperator c = true) (rest : List Char) :
    piece? (c :: rest) = some (.punctuation, 1) := by
  obtain ⟨mem, notSlash, notQuote⟩ := isPlainOperator_iff.mp operator
  rw [isOperator_eq, List.contains_iff_mem] at mem
  simp only [operators, List.mem_cons, List.not_mem_nil, or_false] at mem
  rcases mem with rfl | rfl | rfl | rfl | rfl | rfl | rfl | rfl | rfl | rfl | rfl | rfl | rfl | rfl |
    rfl | rfl | rfl | rfl | rfl | rfl | rfl | rfl
  all_goals first | rfl | contradiction

/-- So is a slash that begins no comment. -/
theorem piece?_slash {rest : List Char} (noComment : startsComment ('/' :: rest) = false) :
    piece? ('/' :: rest) = some (.punctuation, 1) := by
  have cut : piece? ('/' :: rest) =
      if startsComment ('/' :: rest) then comment? ('/' :: rest) else lexeme? ('/' :: rest) := rfl
  have lexeme : lexeme? ('/' :: rest) =
      if startsOperator ('/' :: rest) then some (.punctuation, 1)
      else (plainWordLength ('/' :: rest)).map fun length => (.word, length) := rfl
  have operator : startsOperator ('/' :: rest) = !startsComment ('/' :: rest) := rfl
  rw [cut, lexeme, operator, noComment]
  rfl

/-- An operator character is joined to another one that follows and begins no comment. -/
theorem tokens?_mark {c : Char} (notQuote : c ≠ '\'') {rest : List Char}
    (found : piece? (c :: rest) = some (.punctuation, 1)) :
    tokens? (c :: rest) = (tokens? rest).map ([.leaf (.mark c (startsOperator rest))] ++ ·) := by
  exact tokens?_append_of_piece? [c] found (List.cons_ne_nil _ _) (tokens_punctuation notQuote [] rest)

/-- An operator character goes on if another one follows that begins no comment. -/
theorem tokens?_operator {c d : Char} (operator : isPlainOperator c = true) (noComment : d ≠ '/')
    (rest : List Char) :
    tokens? (c :: d :: rest) =
      (tokens? (d :: rest)).map ([.leaf (.mark c (isOperator d))] ++ ·) := by
  have next : startsOperator (d :: rest) = isOperator d := by
    rw [startsOperator, startsComment_cons noComment, Bool.not_false, Bool.and_true]
  obtain ⟨_, _, notQuote⟩ := isPlainOperator_iff.mp operator
  rw [tokens?_mark notQuote (piece?_operator operator _), next]

/-! ## Words and numbers -/

/-- The separators past ASCII. -/
private def wideSeparators : List (Nat × Nat) :=
  [(0x85, 0x85), (0xA0, 0xA0), (0x1680, 0x1680), (0x2000, 0x200A), (0x200E, 0x200F), (0x2028, 0x202F),
    (0x205F, 0x205F), (0x3000, 0x3000)]

/-- A character between the ranges of a set is in none of them. -/
private theorem contains_eq_false {points : CodePoints} {gap : Nat × Nat} {c : Char}
    (apart : (points.all fun range => range.2 < gap.1 || gap.2 < range.1) = true)
    (inside : gap.1 ≤ c.toNat ∧ c.toNat ≤ gap.2) : points.contains c = false := by
  refine List.any_eq_false.mpr fun range mem => ?_
  have outside := List.all_eq_true.mp apart range mem
  simp only [Bool.or_eq_true, decide_eq_true_eq] at outside
  simp only [Bool.and_eq_true, decide_eq_true_eq, not_and]
  omega

theorem isIdentContinue_of_isSeparator {c : Char} (blank : isSeparator c = true) :
    isIdentContinue c = false := by
  have kinds : c.toNat < 0x21 ∨ ∃ gap ∈ wideSeparators, gap.1 ≤ c.toNat ∧ c.toNat ≤ gap.2 := by
    simp only [isSeparator, isBlank, Bool.or_eq_true, Bool.and_eq_true, decide_eq_true_eq,
      beq_iff_eq] at blank
    simp only [wideSeparators, List.mem_cons, List.not_mem_nil, or_false, exists_eq_or_imp, exists_eq_left]
    omega
  rcases kinds with ascii | ⟨gap, mem, inside⟩
  · have breaks : ∀ code < 0x21, isIdentContinue (Char.ofNat code) = false := by decide
    rw [← Char.ofNat_toNat c]
    exact breaks _ ascii
  · have apart : (wideSeparators.all fun gap => 0x80 ≤ gap.1 && (xidStart ++ xidOnlyContinue).all fun range =>
        range.2 < gap.1 || gap.2 < range.1) = true := by decide +kernel
    have clear := List.all_eq_true.mp apart gap mem
    rw [Bool.and_eq_true, decide_eq_true_eq, List.all_append, Bool.and_eq_true] at clear
    have wide : ¬ c.toNat < 0x80 := by omega
    rw [isIdentContinue, if_neg wide, contains_eq_false clear.2.1 inside, contains_eq_false clear.2.2 inside]
    rfl

theorem isIdentContinue_of_mem_operators {c : Char} (operator : c ∈ operators) :
    isIdentContinue c = false := by
  have breaks : (operators.all fun c => !isIdentContinue c) = true := by decide
  simpa using List.all_eq_true.mp breaks c operator

theorem ne_of_isIdentStart {c d : Char} (start : isIdentStart c = true)
    (other : isIdentStart d = false) : c ≠ d := by
  rintro rfl
  rw [other] at start
  cases start

theorem ne_of_isIdentContinue {c d : Char} (continues : isIdentContinue c = true)
    (other : isIdentContinue d = false) : c ≠ d := by
  rintro rfl
  rw [other] at continues
  cases continues

/-- A character that continues a word begins no blank, bracket or comment. -/
theorem piece?_eq_lexeme? {c : Char} (continues : isIdentContinue c = true) (rest : List Char) :
    piece? (c :: rest) = lexeme? (c :: rest) := by
  have apart : isSeparator c = false := by
    cases blank : isSeparator c with
    | false => rfl
    | true => exact absurd rfl (ne_of_isIdentContinue continues (isIdentContinue_of_isSeparator blank))
  have noComment : startsComment (c :: rest) = false :=
    startsComment_cons (ne_of_isIdentContinue continues (by decide)) rest
  refine (if_neg (by rw [apart]; exact Bool.false_ne_true)).trans ?_
  refine (if_neg (by rw [noComment]; exact Bool.false_ne_true)).trans ?_
  split
  · exact absurd rfl (ne_of_isIdentContinue continues (by decide))
  · exact absurd rfl (ne_of_isIdentContinue continues (by decide))
  · exact absurd rfl (ne_of_isIdentContinue continues (by decide))
  · exact absurd rfl (ne_of_isIdentContinue continues (by decide))
  · exact absurd rfl (ne_of_isIdentContinue continues (by decide))
  · exact absurd rfl (ne_of_isIdentContinue continues (by decide))
  · rfl

/-- No quote and no hash stands first. With one of them, letters may begin a literal. -/
def NoQuote (text : List Char) : Prop :=
  text.head? ≠ some '"' ∧ text.head? ≠ some '#' ∧ text.head? ≠ some '\''

/-- What follows the first letter of a text makes no literal of it. -/
structure NoLiteral (rest : List Char) : Prop where
  behind : NoQuote rest
  second : ∀ more, rest = 'r' :: more → NoQuote more

private theorem rawOpenedLength_eq_none (plain : Char → Bool) {text : List Char} (free : NoQuote text) :
    rawOpenedLength plain text = none := by
  cases text with
  | nil => rfl
  | cons c rest =>
    have noHash : (c == '#') = false := beq_eq_false_iff_ne.mpr fun same => free.2.1 (by rw [same]; rfl)
    have none : (c :: rest).takeWhile (· == '#') = [] := List.takeWhile_cons_of_neg (by simp [noHash])
    simp only [rawOpenedLength, none, List.length_nil, List.drop_zero]
    split
    · rename_i same
      exact absurd (by rw [same]; rfl) free.1
    · rfl

theorem quotedLiteralLength_eq_none {first : Char} {rest : List Char} (noString : first ≠ '"')
    (noChar : first ≠ '\'') (free : NoLiteral rest) : quotedLiteralLength (first :: rest) = none := by
  unfold quotedLiteralLength
  split
  · rename_i same
    exact absurd (List.cons.inj same).1 noString
  · rename_i same
    rw [← (List.cons.inj same).2, rawOpenedLength_eq_none _ free.behind]
    rfl
  · rename_i same
    exact absurd (by rw [(List.cons.inj same).2]; rfl) free.behind.1
  · rename_i same
    rw [rawOpenedLength_eq_none _ (free.second _ (List.cons.inj same).2)]
    rfl
  · rename_i same
    exact absurd (by rw [(List.cons.inj same).2]; rfl) free.behind.2.2
  · rename_i same
    exact absurd (by rw [(List.cons.inj same).2]; rfl) free.behind.1
  · rename_i same
    rw [rawOpenedLength_eq_none _ (free.second _ (List.cons.inj same).2)]
    rfl
  · rename_i same
    exact absurd (List.cons.inj same).1 noChar
  · rfl

theorem isDigit_of_isIdentStart {c : Char} (start : isIdentStart c = true) : c.isDigit = false := by
  cases digit : c.isDigit with
  | false => rfl
  | true =>
    have range : 48 ≤ c.toNat ∧ c.toNat ≤ 57 := by
      simpa [Char.isDigit, Char.le_def, UInt32.le_iff_toNat_le] using digit
    have none : ∀ code < 58, 48 ≤ code → isIdentStart (Char.ofNat code) = false := by decide
    rw [← Char.ofNat_toNat c, none _ (by omega) range.1] at start
    cases start

/-- The letters of hexadecimal numbers are no decimal digits. -/
theorem hexDigit?_of_not_isDigit {c : Char} (noDigit : c.isDigit = false) :
    (hexDigit? c).any (· < 10) = false := by
  unfold hexDigit?
  split
  · rename_i digit
    have isDigit : c.isDigit = true := by simpa [Char.isDigit, Char.le_def] using digit
    rw [isDigit] at noDigit
    cases noDigit
  · split
    · simp
    · split
      · simp
      · rfl

/-- A number begins with a digit. -/
theorem literalLength_eq_none {first : Char} {rest : List Char} (start : isIdentStart first = true)
    (free : NoLiteral rest) : literalLength (first :: rest) = none := by
  have noDigit := isDigit_of_isIdentStart start
  have quoted :=
    quotedLiteralLength_eq_none (ne_of_isIdentStart start (by decide))
      (ne_of_isIdentStart start (by decide)) free
  have fractional : fractionalLength (first :: rest) = none := by
    simp [fractionalLength, noDigit]
  have whole : wholeLength (first :: rest) = none := by
    have decimal : wholeLength (first :: rest) = radixLength 10 (first :: rest) := by
      unfold wholeLength
      split
      · rename_i same
        exact absurd (List.cons.inj same).1 (ne_of_isIdentStart start (by decide))
      · rename_i same
        exact absurd (List.cons.inj same).1 (ne_of_isIdentStart start (by decide))
      · rename_i same
        exact absurd (List.cons.inj same).1 (ne_of_isIdentStart start (by decide))
      · rfl
    rw [decimal, radixLength, List.takeWhile_cons, noDigit, hexDigit?_of_not_isDigit noDigit]
    by_cases low : first = '_'
    · simp [low]
    · simp [low]
  rw [literalLength, quoted, fractional, whole]
  rfl

private theorem isPrefixOf_eq_false (mark : Char) (more : List Char) {text : List Char}
    (differs : text.head? ≠ some mark) : List.isPrefixOf (mark :: more) text = false := by
  cases text with
  | nil => rfl
  | cons c rest =>
    have other : (mark == c) = false := beq_eq_false_iff_ne.mpr fun same => differs (by rw [same]; rfl)
    rw [List.isPrefixOf, other]
    rfl

private theorem reservedOpenings_eq : reservedOpenings = [['r', '"'], ['r', '#', '"'], ['r', '#', '#'],
    ['b', '"'], ['b', '\''], ['b', 'r', '"'], ['b', 'r', '#'], ['c', '"'], ['c', 'r', '"'],
    ['c', 'r', '#']] := by decide

/-- Nothing that is kept back for literals begins like a word. -/
theorem plainWordLength_eq {first : Char} {rest : List Char} (free : NoLiteral rest) :
    plainWordLength (first :: rest) = wordLength (first :: rest) := by
  have secondFree : ∀ mark more, mark = '"' ∨ mark = '#' →
      List.isPrefixOf ('r' :: mark :: more) rest = false := by
    intro mark more isMark
    cases rest with
    | nil => rfl
    | cons c others =>
      by_cases letter : c = 'r'
      · subst letter
        have next := free.second others rfl
        rw [List.isPrefixOf_cons_cons_self]
        rcases isMark with rfl | rfl
        · exact isPrefixOf_eq_false _ _ next.1
        · exact isPrefixOf_eq_false _ _ next.2.1
      · exact isPrefixOf_eq_false _ _ fun same => letter (Option.some.inj same)
  have reserved : reservedOpenings.any (List.isPrefixOf · (first :: rest)) = false := by
    have quote := isPrefixOf_eq_false '"' [] free.behind.1
    have hash := fun more => isPrefixOf_eq_false '#' more free.behind.2.1
    have single := isPrefixOf_eq_false '\'' [] free.behind.2.2
    simp only [reservedOpenings_eq, List.any_cons, List.any_nil, List.isPrefixOf, quote, hash, single,
      secondFree '"' [] (.inl rfl), secondFree '#' [] (.inr rfl), Bool.and_false, Bool.or_false]
  have unmarked : markedWordLength (first :: rest) = wordLength (first :: rest) := by
    unfold markedWordLength
    split
    · rename_i same
      exact absurd (by rw [(List.cons.inj same).2]; rfl) free.behind.2.1
    · rfl
  rw [plainWordLength, reserved, unmarked]
  rfl

/-- A character that a word or a number cannot go on with, and that makes no literal of it. -/
def isBreak (c : Char) : Bool := !isIdentContinue c && c != '"' && c != '#' && c != '\''

theorem isIdentContinue_of_digits {digits : List Char}
    (allDigits : ∀ c ∈ digits, c.isDigit = true) : ∀ c ∈ digits, isIdentContinue c = true := by
  intro c mem
  have digit := allDigits c mem
  have range : c.toNat < 58 := by
    simp only [Char.isDigit, Bool.and_eq_true, decide_eq_true_eq, UInt32.le_iff_toNat_le] at digit
    exact Nat.lt_of_le_of_lt digit.2 (by decide)
  unfold isIdentContinue
  rw [if_pos (by omega)]
  simp [Char.isAlphanum, digit]

/-- The tokens of the lifetime without a name. -/
def lifetimeTokens : List Token := [.leaf (.mark '\'' true), .leaf (.word "_")]

/-- A plain character is no literal if no quote closes it. -/
theorem quotedCharLength_eq_none {rules : QuotedRules} {c d : Char} (plain : rules.plain c = true)
    (ordinary : c ≠ '\\') (apart : d ≠ '\'') (rest : List Char) :
    quotedCharLength rules (c :: d :: rest) = none := by
  unfold quotedCharLength
  split
  · rename_i same
    exact absurd (List.cons.inj same).1 ordinary
  · rename_i same
    cases same
    simp only [plain, ↓reduceIte, List.drop_succ_cons, List.drop_zero]
    split
    · rename_i same
      exact absurd (List.cons.inj same).1 apart
    · rfl
  · rename_i empty
    cases empty

theorem isPlainWord_underscore : IsPlainWord ['_'] :=
  ⟨'_', [], rfl, by decide, List.forall_mem_nil _⟩

/-- A text that a word or a number in front of it cannot go on with. -/
def Breaks (text : List Char) : Prop := text.head?.all isBreak = true

section Lexemes
variable {d : Char} (breaks : isBreak d = true) (rest : List Char)
include breaks

theorem isBreak_iff : isIdentContinue d = false ∧ d ≠ '"' ∧ d ≠ '#' ∧ d ≠ '\'' := by
  simp only [isBreak, Bool.and_eq_true, Bool.not_eq_true', bne_iff_ne] at breaks
  exact ⟨breaks.1.1.1, breaks.1.1.2, breaks.1.2, breaks.2⟩

theorem Breaks.cons : Breaks (d :: rest) := breaks

end Lexemes

section Words
variable {tail : List Char} (breaks : Breaks tail)
include breaks

private theorem noQuote_append {letters : List Char} (continues : ∀ c ∈ letters, isIdentContinue c = true) :
    NoQuote (letters ++ tail) := by
  rcases letters with _ | ⟨c, letters⟩
  · rcases tail with _ | ⟨d, rest⟩
    · exact ⟨nofun, nofun, nofun⟩
    · obtain ⟨_, noString, noHash, noChar⟩ := isBreak_iff breaks
      exact ⟨by simpa using noString, by simpa using noHash, by simpa using noChar⟩
  · have goesOn := continues c List.mem_cons_self
    exact ⟨by simpa using ne_of_isIdentContinue goesOn (by decide),
      by simpa using ne_of_isIdentContinue goesOn (by decide),
      by simpa using ne_of_isIdentContinue goesOn (by decide)⟩

private theorem noLiteral_append {letters : List Char}
    (continues : ∀ c ∈ letters, isIdentContinue c = true) : NoLiteral (letters ++ tail) := by
  refine ⟨noQuote_append breaks continues, fun more same => ?_⟩
  rcases letters with _ | ⟨c, letters⟩
  · rw [List.nil_append] at same
    subst same
    have letter : isBreak 'r' = true := breaks
    exact absurd letter (by decide)
  · rw [← (List.cons.inj same).2]
    exact noQuote_append breaks fun c mem => continues c (List.mem_cons_of_mem _ mem)

theorem takeWhile_isIdentContinue {letters : List Char}
    (continues : ∀ c ∈ letters, isIdentContinue c = true) :
    (letters ++ tail).takeWhile isIdentContinue = letters := by
  have ends : tail.takeWhile isIdentContinue = [] := by
    cases tail with
    | nil => rfl
    | cons d rest => exact List.takeWhile_cons_of_neg (by simp [(isBreak_iff breaks).1])
  rw [List.takeWhile_append_of_pos continues, ends, List.append_nil]

theorem wordLength_append {word : List Char} (plain : IsPlainWord word) :
    wordLength (word ++ tail) = some word.length := by
  obtain ⟨first, letters, rfl, start, continues⟩ := plain
  rw [List.cons_append, wordLength, if_pos start, takeWhile_isIdentContinue breaks continues,
    Nat.add_comm]
  rfl

/-- A word is cut off where it cannot go on. -/
theorem piece?_plainWord {word : List Char} (plain : IsPlainWord word) :
    piece? (word ++ tail) = some (.word, word.length) := by
  have measured := wordLength_append breaks plain
  obtain ⟨first, letters, rfl, start, continues⟩ := plain
  have free := noLiteral_append breaks continues
  have noOperator : startsOperator (first :: (letters ++ tail)) = false := by
    have other : isOperator first = false := by
      rw [isOperator_eq, ← Bool.not_eq_true, List.contains_iff_mem]
      intro operator
      have goesOn := isIdentContinue_of_isIdentStart start
      exact absurd rfl (ne_of_isIdentContinue goesOn (isIdentContinue_of_mem_operators operator))
    rw [startsOperator, other, Bool.false_and]
  rw [List.cons_append] at measured ⊢
  rw [piece?_eq_lexeme? (isIdentContinue_of_isIdentStart start)]
  unfold lexeme?
  rw [literalLength_eq_none start free]
  split
  · rename_i same
    cases same
  · split
    · rename_i same
      exact absurd (List.cons.inj same).1 (ne_of_isIdentStart start (by decide))
    · rw [noOperator, plainWordLength_eq free, measured]
      rfl

/-- So is one with the mark that makes a name of a keyword. -/
theorem piece?_markedWord {word : List Char} (plain : IsPlainWord word)
    (mayBeRaw : neverRaw.contains word = false) :
    piece? ('r' :: '#' :: word ++ tail) = some (.word, ('r' :: '#' :: word).length) := by
  have measured := wordLength_append breaks plain
  have taken : (word ++ tail).take word.length = word := List.take_left' rfl
  have raw : markedWordLength ('r' :: '#' :: (word ++ tail)) = some (2 + word.length) := by
    simp only [markedWordLength, measured, taken, mayBeRaw]
    rfl
  obtain ⟨first, letters, rfl, start, continues⟩ := plain
  have noHash : (first == '#') = false := beq_eq_false_iff_ne.mpr (ne_of_isIdentStart start (by decide))
  have noQuote : ('"' == first) = false := beq_eq_false_iff_ne.mpr (ne_of_isIdentStart start (by decide)).symm
  have noRaw : rawOpenedLength textRules.plain ('#' :: first :: (letters ++ tail)) = none := by
    have hashes : ('#' :: first :: (letters ++ tail)).takeWhile (· == '#') = ['#'] := by
      simp [noHash]
    simp only [rawOpenedLength, hashes, List.length_singleton, List.drop_succ_cons, List.drop_zero]
    split
    · rename_i same
      exact absurd (List.cons.inj same).1 (ne_of_isIdentStart start (by decide))
    · rfl
  have noLiteral : literalLength ('r' :: '#' :: first :: (letters ++ tail)) = none := by
    have quoted : quotedLiteralLength ('r' :: '#' :: first :: (letters ++ tail)) = none := by
      rw [quotedLiteralLength, noRaw]
      rfl
    rw [literalLength, quoted]
    rfl
  have noReserved : reservedOpenings.any
      (List.isPrefixOf · ('r' :: '#' :: first :: (letters ++ tail))) = false := by
    have noSecond : ('#' == first) = false :=
      beq_eq_false_iff_ne.mpr (ne_of_isIdentStart start (by decide)).symm
    simp [reservedOpenings_eq, List.isPrefixOf, noQuote, noSecond]
  simp only [List.cons_append] at raw ⊢
  rw [piece?_eq_lexeme? (by decide)]
  unfold lexeme?
  rw [noLiteral]
  have found : plainWordLength ('r' :: '#' :: first :: (letters ++ tail)) =
      some (2 + (first :: letters).length) := by
    rw [plainWordLength, noReserved, raw]
    rfl
  have noOperator : startsOperator ('r' :: '#' :: first :: (letters ++ tail)) = false := rfl
  simp only [noOperator, found, List.length_cons]
  rw [Nat.add_comm 2]
  rfl

end Words

section Lexemes
variable {d : Char} (breaks : isBreak d = true) (rest : List Char)
include breaks

/-- A word ends where it cannot go on. -/
theorem tokens?_plainWord {word : List Char} (plain : IsPlainWord word) :
    tokens? (word ++ d :: rest) =
      (tokens? (d :: rest)).map ([.leaf (.word (String.ofList word))] ++ ·) := by
  have found := piece?_plainWord (.cons breaks rest) plain
  obtain ⟨first, letters, rfl, _⟩ := plain
  exact tokens?_append_of_piece? _ found (List.cons_ne_nil _ _) rfl

/-- So does one with the mark that makes a name of a keyword. -/
theorem tokens?_markedWord {word : List Char} (plain : IsPlainWord word)
    (mayBeRaw : neverRaw.contains word = false) :
    tokens? ('r' :: '#' :: word ++ d :: rest) =
      (tokens? (d :: rest)).map ([.leaf (.word (String.ofList ('r' :: '#' :: word)))] ++ ·) :=
  tokens?_append_of_piece? _ (piece?_markedWord (.cons breaks rest) plain mayBeRaw) (List.cons_ne_nil _ _) rfl

theorem wordLength_break : wordLength (d :: rest) = none := by
  have ends := (isBreak_iff breaks).1
  have noStart : isIdentStart d = false := by
    cases start : isIdentStart d with
    | false => rfl
    | true =>
      rw [isIdentContinue_of_isIdentStart start] at ends
      cases ends
  rw [wordLength, noStart]
  rfl

/-- Where something broke off, nothing stands that goes on with a word. -/
private theorem ne_of_isBreak {c : Char} (continues : isIdentContinue c = true) : d ≠ c := by
  rintro rfl
  rw [(isBreak_iff breaks).1] at continues
  cases continues

private theorem not_isDigit_of_isBreak : d.isDigit = false ∧ d ≠ '_' := by
  refine ⟨?_, ne_of_isBreak breaks (by decide)⟩
  cases digit : d.isDigit with
  | false => rfl
  | true =>
    have single : ∀ c ∈ [d], c.isDigit = true := by simpa using digit
    exact absurd rfl (ne_of_isBreak breaks (isIdentContinue_of_digits single d List.mem_cons_self))

section Digits
variable {digits : List Char} (allDigits : ∀ c ∈ digits, c.isDigit = true)
include allDigits

private theorem radixLength_digits (filled : digits ≠ []) :
    radixLength 10 (digits ++ d :: rest) = some digits.length := by
  obtain ⟨noDigit, noLow⟩ := not_isDigit_of_isBreak breaks
  have taken : (digits ++ d :: rest).takeWhile (fun c =>
      c == '_' || c.isDigit || ((hexDigit? c).any (· < 10))) = digits := by
    have stop : (d :: rest).takeWhile (fun c =>
        c == '_' || c.isDigit || ((hexDigit? c).any (· < 10))) = [] :=
      List.takeWhile_cons_of_neg (by simp [noDigit, noLow, hexDigit?_of_not_isDigit noDigit])
    rw [List.takeWhile_append_of_pos fun c mem => by simp [allDigits c mem], stop, List.append_nil]
  have small : (digits.any fun c => c.isDigit && 10 ≤ c.toNat - '0'.toNat) = false := by
    refine List.any_eq_false.mpr fun c mem => ?_
    have digit := allDigits c mem
    simp only [Char.isDigit, Bool.and_eq_true, decide_eq_true_eq, UInt32.le_iff_toNat_le] at digit
    have range : c.toNat ≤ 57 := digit.2
    simp only [Bool.and_eq_true, decide_eq_true_eq, not_and]
    intro _
    have zero : '0'.toNat = 48 := rfl
    omega
  obtain ⟨first, others, rfl⟩ := List.exists_cons_of_ne_nil filled
  have noUnderscore : first ≠ '_' := by
    rintro rfl
    exact absurd (allDigits '_' List.mem_cons_self) (by decide)
  rw [radixLength, taken, small]
  simp [noUnderscore]

private theorem fractionalLength_digits (noPoint : d ≠ '.') :
    fractionalLength (digits ++ d :: rest) = none := by
  obtain ⟨noDigit, noLow⟩ := not_isDigit_of_isBreak breaks
  have counted : digitsLength (digits ++ d :: rest) = digits.length := by
    have stop : (d :: rest).takeWhile isDigitOrUnderscore = [] :=
      List.takeWhile_cons_of_neg (by simp [isDigitOrUnderscore, noDigit, noLow])
    rw [digitsLength, List.takeWhile_append_of_pos fun c mem => by
      simp [isDigitOrUnderscore, allDigits c mem], stop, List.append_nil]
  have left : (digits ++ d :: rest).drop digits.length = d :: rest := List.drop_left' rfl
  unfold fractionalLength
  split
  · rfl
  · simp only [counted, left]
    split
    · rfl
    · split
      · rename_i same
        exact absurd (List.cons.inj same).1 noPoint
      · rename_i same
        exact absurd (List.cons.inj same).1 (ne_of_isBreak breaks (by decide))
      · rename_i same
        exact absurd (List.cons.inj same).1 (ne_of_isBreak breaks (by decide))
      · rfl

private theorem wholeLength_digits (filled : digits ≠ []) :
    wholeLength (digits ++ d :: rest) = some digits.length := by
  have radix := radixLength_digits breaks rest allDigits filled
  obtain ⟨first, others, rfl⟩ := List.exists_cons_of_ne_nil filled
  have second : ∀ {c : Char} {more : List Char}, others ++ d :: rest = c :: more →
      isIdentContinue c = true → c.isDigit = true := by
    intro c more same goesOn
    cases others with
    | nil => exact absurd (List.cons.inj same).1 (ne_of_isBreak breaks goesOn)
    | cons e others =>
      rw [← (List.cons.inj same).1]
      exact allDigits e (List.mem_cons_of_mem _ List.mem_cons_self)
  unfold wholeLength
  split
  · rename_i same
    exact absurd (second (List.cons.inj same).2 (by decide)) (by decide)
  · rename_i same
    exact absurd (second (List.cons.inj same).2 (by decide)) (by decide)
  · rename_i same
    exact absurd (second (List.cons.inj same).2 (by decide)) (by decide)
  · exact radix

private theorem literalLength_digits (filled : digits ≠ []) (noPoint : d ≠ '.') :
    literalLength (digits ++ d :: rest) = some digits.length := by
  have fractional := fractionalLength_digits breaks rest allDigits noPoint
  have whole := wholeLength_digits breaks rest allDigits filled
  have left : (digits ++ d :: rest).drop digits.length = d :: rest := List.drop_left' rfl
  have suffixless : withSuffix (digits ++ d :: rest) digits.length = digits.length := by
    rw [withSuffix, left, suffixLength, wordLength_break breaks rest]
    rfl
  have number : numberLength (digits ++ d :: rest) digits.length = some digits.length := by
    simp only [numberLength, suffixless, left, (isBreak_iff breaks).1]
    rfl
  have quoted : quotedLiteralLength (digits ++ d :: rest) = none := by
    have continues := isIdentContinue_of_digits allDigits
    obtain ⟨first, others, rfl⟩ := List.exists_cons_of_ne_nil filled
    have goesOn := continues first List.mem_cons_self
    exact quotedLiteralLength_eq_none (ne_of_isIdentContinue goesOn (by decide))
      (ne_of_isIdentContinue goesOn (by decide))
      (noLiteral_append (.cons breaks rest) fun c mem => continues c (List.mem_cons_of_mem _ mem))
  rw [literalLength, quoted, fractional, whole]
  exact number

/-- A number ends where neither it nor a word can go on, and where it gets no fraction. -/
theorem piece?_number (filled : digits ≠ []) (noPoint : d ≠ '.') :
    piece? (digits ++ d :: rest) = some (.literal, digits.length) := by
  have measured := literalLength_digits breaks rest allDigits filled noPoint
  have continues := isIdentContinue_of_digits allDigits
  obtain ⟨first, others, rfl⟩ := List.exists_cons_of_ne_nil filled
  rw [List.cons_append] at measured ⊢
  rw [piece?_eq_lexeme? (continues first List.mem_cons_self)]
  unfold lexeme?
  rw [measured]

theorem tokens?_number (filled : digits ≠ []) (noPoint : d ≠ '.') :
    tokens? (digits ++ d :: rest) =
      (tokens? (d :: rest)).map ([.leaf (.literal (String.ofList digits))] ++ ·) :=
  tokens?_append_of_piece? _ (piece?_number breaks rest allDigits filled noPoint) filled rfl

end Digits

/-- The lifetime without a name. -/
theorem tokens?_lifetime :
    tokens? ('\'' :: '_' :: d :: rest) = (tokens? (d :: rest)).map (lifetimeTokens ++ ·) := by
  obtain ⟨ends, _, noHash, noChar⟩ := isBreak_iff breaks
  have found : piece? ('\'' :: '_' :: d :: rest) = some (.punctuation, 1) := by
    have noLiteral : literalLength ('\'' :: '_' :: d :: rest) = none := by
      have noCharacter : quotedCharLength textRules ('_' :: d :: rest) = none :=
        quotedCharLength_eq_none (by decide) (by decide) noChar rest
      have quoted : quotedLiteralLength ('\'' :: '_' :: d :: rest) = none := by
        rw [quotedLiteralLength, noCharacter]
        rfl
      rw [literalLength, quoted]
      rfl
    have lifetime : startsLifetime ('_' :: d :: rest) = true := by
      have word : markedWordLength ('_' :: d :: rest) = some 1 :=
        wordLength_append (.cons breaks rest) isPlainWord_underscore
      simp only [startsLifetime, word, List.drop_succ_cons, List.drop_zero]
      split
      · rename_i same
        exact absurd (List.cons.inj same).1 noChar
      · rename_i same
        exact absurd (List.cons.inj same).1 noHash
      · rfl
    have cut : piece? ('\'' :: '_' :: d :: rest) = lexeme? ('\'' :: '_' :: d :: rest) := rfl
    rw [cut, lexeme?, noLiteral, lifetime]
    rfl
  have quote := tokens?_append_of_piece? ['\''] found (List.cons_ne_nil _ _) rfl
  have word := tokens?_plainWord breaks rest isPlainWord_underscore
  rw [List.singleton_append] at quote word
  rw [quote, word, Option.map_map]
  rfl

end Lexemes

/-- Nothing begins with a byte order mark, unless it is taken off a text before. -/
theorem tokens?_byteOrderMark (rest : List Char) : tokens? (TokenTree.byteOrderMark :: rest) = none := by
  have noWord : plainWordLength (TokenTree.byteOrderMark :: rest) = none := by
    have noStart : isIdentStart TokenTree.byteOrderMark = false := by decide +kernel
    have noReserved :
        reservedOpenings.any (List.isPrefixOf · (TokenTree.byteOrderMark :: rest)) = false := by
      simp [reservedOpenings_eq, List.isPrefixOf, TokenTree.byteOrderMark]
    have unmarked : markedWordLength (TokenTree.byteOrderMark :: rest) =
        wordLength (TokenTree.byteOrderMark :: rest) := rfl
    rw [plainWordLength, noReserved, unmarked, wordLength, noStart]
    rfl
  have noLiteral : literalLength (TokenTree.byteOrderMark :: rest) = none := rfl
  have stuck : piece? (TokenTree.byteOrderMark :: rest) = none := by
    have cut : piece? (TokenTree.byteOrderMark :: rest) = lexeme? (TokenTree.byteOrderMark :: rest) := rfl
    have word : lexeme? (TokenTree.byteOrderMark :: rest) =
        (plainWordLength (TokenTree.byteOrderMark :: rest)).map fun length => (.word, length) := by
      unfold lexeme?
      rw [noLiteral]
      rfl
    rw [cut, word, noWord]
    rfl
  rw [tokens?, ofText_of_no_piece stuck]
  rfl

/-! ## Comments -/

theorem lineLength_append {body : List Char} (clean : '\n' ∉ body) (rest : List Char) :
    lineLength (body ++ '\n' :: rest) = body.length := by
  induction body with
  | nil => rfl
  | cons c body ih =>
    have ordinary : c ≠ '\n' := fun same => clean (same ▸ List.mem_cons_self)
    have cleanRest : '\n' ∉ body := fun mem => clean (List.mem_cons_of_mem _ mem)
    rw [List.cons_append, lineLength, ih cleanRest, List.length_cons, Nat.add_comm]
    exact fun same => ordinary same

/-- A comment that means nothing goes to the end of its line. -/
theorem tokens?_note {body : List Char} (clean : '\n' ∉ body) (rest : List Char)
    (kind : lineCommentKind (body ++ '\n' :: rest) = .trivia) :
    tokens? ('/' :: '/' :: body ++ '\n' :: rest) = tokens? rest := by
  have measured : comment? ('/' :: '/' :: (body ++ '\n' :: rest)) =
      some (.trivia, ('/' :: '/' :: body).length) := by
    have size : ('/' :: '/' :: body).length = 2 + body.length := by simp only [List.length_cons]; omega
    simp only [comment?, kind, lineLength_append clean, size]
    rfl
  have found : piece? ('/' :: '/' :: body ++ '\n' :: rest) = some (.trivia, ('/' :: '/' :: body).length) :=
    (piece?_of_startsComment rfl).trans measured
  rw [tokens?_append_of_piece? _ found (List.cons_ne_nil _ _) rfl, tokens?_separator (by decide) rest]
  exact Option.map_id'

theorem hasLoneReturn_eq_false {text : List Char} (clean : '\r' ∉ text) : hasLoneReturn text = false := by
  induction text with
  | nil => rfl
  | cons c rest ih =>
    have ordinary : c ≠ '\r' := fun same => clean (same ▸ List.mem_cons_self)
    have cleanRest : '\r' ∉ rest := fun mem => clean (List.mem_cons_of_mem _ mem)
    unfold hasLoneReturn
    split
    · rfl
    · rename_i same
      exact absurd (List.cons.inj same).1 ordinary
    · rename_i same
      exact absurd (List.cons.inj same).1 ordinary
    · rename_i same
      rw [← (List.cons.inj same).2]
      exact ih cleanRest

/-- A comment after exactly three slashes documents something. -/
theorem tokens?_document {body : List Char} (clean : '\n' ∉ body) (noReturn : '\r' ∉ body)
    (noSlash : body.head? ≠ some '/') (rest : List Char) :
    tokens? ('/' :: '/' :: '/' :: body ++ '\n' :: rest) =
      (tokens? rest).map (documentTokens false body ++ ·) := by
  have kind : lineCommentKind ('/' :: (body ++ '\n' :: rest)) = .document false := by
    unfold lineCommentKind
    split
    · rename_i same
      cases body with
      | nil => exact absurd (List.cons.inj (List.cons.inj same).2).1 (by decide)
      | cons c body => exact absurd (by rw [(List.cons.inj (List.cons.inj same).2).1]; rfl) noSlash
    · rfl
    · rename_i same
      exact absurd (List.cons.inj same).1 (by decide)
    · rename_i other _
      exact absurd rfl (other _)
  have cleanAll : '\n' ∉ '/' :: body := by simpa using clean
  have length : lineLength ('/' :: (body ++ '\n' :: rest)) = body.length + 1 :=
    lineLength_append cleanAll rest
  have returns : hasLoneReturn (('/' :: (body ++ '\n' :: rest)).take (body.length + 1 + 1)) = false := by
    refine hasLoneReturn_eq_false fun mem => ?_
    have taken : ('/' :: (body ++ '\n' :: rest)).take (body.length + 1 + 1) = '/' :: body ++ ['\n'] := by
      have whole : body ++ '\n' :: rest = (body ++ ['\n']) ++ rest := by simp
      rw [List.take_succ_cons, whole, List.take_left' (by simp)]
      rfl
    rw [taken] at mem
    simp only [List.cons_append, List.mem_cons, List.mem_append, List.not_mem_nil, or_false] at mem
    rcases mem with same | mem | same
    · exact absurd same (by decide)
    · exact noReturn mem
    · exact absurd same (by decide)
  have measured : comment? ('/' :: '/' :: '/' :: (body ++ '\n' :: rest)) =
      some (.document false, ('/' :: '/' :: '/' :: body).length) := by
    have size : ('/' :: '/' :: '/' :: body).length = 2 + (body.length + 1) := by
      simp only [List.length_cons]
      omega
    simp only [comment?, kind, length, returns, size]
    rfl
  have found : piece? ('/' :: '/' :: '/' :: body ++ '\n' :: rest) =
      some (.document false, ('/' :: '/' :: '/' :: body).length) :=
    (piece?_of_startsComment rfl).trans measured
  have said : Piece.body ⟨.document false, '/' :: '/' :: '/' :: body⟩ = body := by
    have noLast : body.getLast? ≠ some '\r' := fun last => noReturn (List.mem_of_getLast? last)
    exact if_neg noLast
  have read : Piece.tokens ⟨.document false, '/' :: '/' :: '/' :: body⟩ ('\n' :: rest) =
      documentTokens false body := by
    rw [Piece.tokens, said]
  rw [tokens?_append_of_piece? _ found (List.cons_ne_nil _ _) read, tokens?_separator (by decide) rest]

/-- A block comment that means nothing. -/
theorem tokens?_block {body rest : List Char} (closed : blockLength 0 (body ++ rest) = some body.length)
    (kind : blockCommentKind (body ++ rest) = .trivia) :
    tokens? ('/' :: '*' :: body ++ rest) = tokens? rest := by
  have measured : comment? ('/' :: '*' :: (body ++ rest)) =
      some (.trivia, ('/' :: '*' :: body).length) := by
    have size : ('/' :: '*' :: body).length = 2 + body.length := by simp only [List.length_cons]; omega
    simp only [comment?, closed, kind, size]
    rfl
  have found : piece? ('/' :: '*' :: body ++ rest) = some (.trivia, ('/' :: '*' :: body).length) :=
    (piece?_of_startsComment rfl).trans measured
  rw [tokens?_append_of_piece? _ found (List.cons_ne_nil _ _) rfl]
  exact Option.map_id'

end SlotArray.Source
