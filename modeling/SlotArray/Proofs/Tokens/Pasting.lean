import SlotArray.Proofs.Scan

/-! Names in front of other text. A name may have blanks and comments around its word. Pasted into a
text it reads as its word alone, unless a line comment is still open at its end, which swallows what
follows on the line, or unless it begins with a byte order mark, which only a whole text may do. -/
namespace SlotArray.Source
open SlotArray.Text

/-- Whether a piece is a line comment. -/
def Piece.isNote (piece : Piece) : Bool := List.isPrefixOf ['/', '/'] piece.text

/-- Whether a text falls into pieces, the last of which other text may follow on its line. -/
def isPasteable (text : String) : Bool :=
  (Piece.ofText text.toList).any fun pieces => !pieces.getLast?.any Piece.isNote

example : isPasteable "Pair /* of two */" = true := by decide +kernel

example : isPasteable "Pair // of two" = false := by decide +kernel

namespace Scan

/-- Letters, digits and hashes are read into one piece. -/
theorem run_lexeme {letters : List Char} (continues : ∀ c ∈ letters, (isIdentContinue c || c = '#') = true)
    (read : List Char) : run (.lexeme read) letters = some (.lexeme (read ++ letters), []) := by
  induction letters generalizing read with
  | nil => rw [List.append_nil, run_nil]
  | cons c letters ih =>
    have further := continues c List.mem_cons_self
    have noBreak : isBreak c = false := by
      rw [Bool.or_eq_true, decide_eq_true_eq] at further
      rcases further with further | rfl
      · simp [isBreak, further]
      · decide
    have stepped : step (.lexeme read) c = some (.lexeme (read ++ [c]), []) := by
      simp only [step, settle, noBreak, Bool.false_eq_true, ↓reduceIte, absorb]
      exact if_pos further
    rw [run_cons, stepped, Option.bind_some, emit_nil,
      ih (fun c mem => continues c (List.mem_cons_of_mem _ mem)), List.append_assoc]
    rfl

/-- A letter or a digit begins a piece. -/
theorem step_lexeme {c : Char} (continues : isIdentContinue c = true) :
    step .apart c = some (.lexeme [c], []) := by
  simp [step, settle, start, continues]

/-! ## Trivia -/

/-- Whether a scan is in a line comment. -/
def isNote : Scan → Bool
  | .slashes | .note => true
  | _ => false

/-- A line comment goes on to the end of its line, where nothing is left of it. -/
theorem run_note {body : List Char} (clean : '\n' ∉ body) : run .note body = some (.note, []) := by
  induction body with
  | nil => rfl
  | cons c body ih =>
    have ordinary : c ≠ '\n' := fun same => clean (same ▸ List.mem_cons_self)
    have stepped : step .note c = some (.note, []) := by simp [step, settle, absorb, ordinary]
    rw [run_cons, stepped, Option.bind_some, emit_nil, ih fun mem => clean (List.mem_cons_of_mem _ mem)]

theorem run_of_isNote {scan : Scan} (note : scan.isNote = true) (rest : List Char) :
    scan.run ('\n' :: rest) = run .apart rest := by
  have stepped : scan.step '\n' = some (.apart, []) := by
    cases scan with
    | slashes | note => rfl
    | _ => cases note
  rw [run_cons, stepped]
  exact emit_nil _

/-- A line comment takes in the rest of its line, unless that makes it document something. -/
theorem run_swallowed {scan : Scan} (note : scan.isNote = true) {c : Char} {row : List Char}
    (clean : '\n' ∉ c :: row) (ordinary : c ≠ '/' ∧ c ≠ '!') :
    scan.run (c :: row ++ ['\n']) = some (.apart, []) := by
  have feedless : c ≠ '\n' := fun same => clean (same ▸ List.mem_cons_self)
  have cleanRest : '\n' ∉ row := fun mem => clean (List.mem_cons_of_mem _ mem)
  have stepped : scan.step c = some (.note, []) := by
    cases scan with
    | slashes => simp [step, settle, absorb, feedless, ordinary]
    | note => simp [step, settle, absorb, feedless]
    | _ => cases note
  have ended : run .note ['\n'] = some (.apart, []) := run_of_isNote rfl []
  rw [List.cons_append, run_cons, stepped, Option.bind_some, emit_nil,
    run_append_of_run (run_note cleanRest), emit_nil, ended]

/-- Between two pieces, a line feed is skipped. -/
theorem run_feed (rest : List Char) : run .apart ('\n' :: rest) = run .apart rest := by
  have skipped : step .apart '\n' = some (.apart, []) := by decide
  rw [run_cons, skipped, Option.bind_some, emit_nil]

/-- A line comment that begins with three slashes means nothing only if it begins with four. -/
private theorem eq_slash_of_kind {c : Char} {rest : List Char}
    (kind : lineCommentKind ('/' :: c :: rest) = .trivia) : c = '/' := by
  unfold lineCommentKind at kind
  split at kind
  · rename_i same
    exact (List.cons.inj (List.cons.inj same).2).1
  · cases kind
  · cases kind
  · rename_i none _
    exact absurd rfl (none _)

theorem run_lineComment {body tail : List Char} (clean : '\n' ∉ body)
    (ends : tail = [] ∨ tail.head? = some '\n') (kind : lineCommentKind (body ++ tail) = .trivia) :
    ∃ scan, run .apart ('/' :: '/' :: body) = some (scan, []) ∧ scan.isNote = true := by
  have opened : run .apart ('/' :: '/' :: body) = run .slashes body := by
    have slash : step .apart '/' = some (.slash, []) := by decide
    have slashes : step .slash '/' = some (.slashes, []) := by decide
    rw [run_cons, slash, Option.bind_some, emit_nil, run_cons, slashes, Option.bind_some, emit_nil]
  rw [opened]
  cases body with
  | nil => exact ⟨.slashes, rfl, rfl⟩
  | cons c body =>
    have feedless : c ≠ '\n' := fun same => clean (same ▸ List.mem_cons_self)
    have cleanRest : '\n' ∉ body := fun mem => clean (List.mem_cons_of_mem _ mem)
    refine ⟨.note, ?_, rfl⟩
    by_cases slash : c = '/'
    · subst slash
      cases body with
      | nil =>
        rcases ends with rfl | feed
        · cases kind
        · obtain ⟨d, tail, rfl⟩ := List.exists_cons_of_ne_nil
            (fun none : tail = [] => by rw [none] at feed; cases feed)
          obtain rfl : d = '\n' := Option.some.inj feed
          cases kind
      | cons d body =>
        obtain rfl : d = '/' := eq_slash_of_kind kind
        have third : step .slashes '/' = some (.threeSlashes, []) := by decide
        have fourth : step .threeSlashes '/' = some (.note, []) := by decide
        rw [run_cons, third, Option.bind_some, emit_nil, run_cons, fourth, Option.bind_some, emit_nil,
          run_note fun mem => cleanRest (List.mem_cons_of_mem _ mem)]
    · have bangless : c ≠ '!' := by
        rintro rfl
        cases kind
      have stepped : step .slashes c = some (.note, []) := by
        simp [step, settle, absorb, feedless, slash, bangless]
      rw [run_cons, stepped, Option.bind_some, emit_nil, run_note cleanRest]

/-- A block comment is read to its end. -/
theorem run_block {depth length : Nat} {text : List Char} (closed : blockLength depth text = some length) :
    run (.block depth none) (text.take length) = some (.apart, []) := by
  fun_induction blockLength depth text generalizing length with
  | case1 => cases closed
  | case2 depth rest ih =>
    obtain ⟨inner, closedInner, rfl⟩ := Option.map_eq_some_iff.mp closed
    have half : step (.block depth none) '/' = some (.block depth (some '/'), []) := by
      simp [step, settle, absorb, half?]
    have opened : step (.block depth (some '/')) '*' = some (.block (depth + 1) none, []) := by
      simp [step, settle, absorb]
    rw [List.take_succ_cons, List.take_succ_cons, run_cons, half, Option.bind_some, emit_nil, run_cons,
      opened, Option.bind_some, emit_nil, ih closedInner]
  | case3 rest =>
    cases closed
    rfl
  | case4 rest outer ih =>
    obtain ⟨inner, closedInner, rfl⟩ := Option.map_eq_some_iff.mp closed
    have half : step (.block (outer + 1) none) '*' = some (.block (outer + 1) (some '*'), []) := by
      simp [step, settle, absorb, half?]
    have shut : step (.block (outer + 1) (some '*')) '/' = some (.block outer none, []) := by
      simp [step, settle, absorb]
    rw [List.take_succ_cons, List.take_succ_cons, run_cons, half, Option.bind_some, emit_nil, run_cons,
      shut, Option.bind_some, emit_nil, ih closedInner]
  | case5 depth c rest noOpening noClosing ih =>
    obtain ⟨inner, closedInner, rfl⟩ := Option.map_eq_some_iff.mp closed
    have read := ih closedInner
    have first : step (.block depth none) c = some (.block depth (half? c), []) := by
      simp [step, settle, absorb]
    rw [List.take_succ_cons, run_cons, first, Option.bind_some, emit_nil]
    cases taken : rest.take inner with
    | nil =>
      rw [taken] at read
      cases read
    | cons d others =>
      have next : ∃ tail, rest = d :: tail := by
        cases rest with
        | nil => cases taken.symm.trans (List.take_nil)
        | cons e tail =>
          cases inner with
          | zero => cases taken
          | succ inner => exact ⟨tail, by rw [(List.cons.inj taken).1]⟩
      obtain ⟨tail, rfl⟩ := next
      -- what the character before was half of does not go on with this one
      have same : step (.block depth (half? c)) d = step (.block depth none) d := by
        by_cases slash : c = '/'
        · subst slash
          have star : d ≠ '*' := fun same => noOpening tail rfl (by rw [same])
          simp [step, settle, absorb, half?, star]
        · by_cases star : c = '*'
          · subst star
            have slash : d ≠ '/' := fun same => noClosing tail rfl (by rw [same])
            simp [step, settle, absorb, half?, slash]
          · simp [half?, slash, star]
      rw [taken] at read
      rw [run_cons, same, ← run_cons, read]

theorem run_blockComment {text : List Char} {length : Nat} (closed : blockLength 0 text = some length)
    (kind : blockCommentKind text = .trivia) :
    run .apart ('/' :: '*' :: text.take length) = some (.apart, []) := by
  have opened : run .apart ('/' :: '*' :: text.take length) = run .star (text.take length) := by
    have slash : step .apart '/' = some (.slash, []) := by decide
    have star : step .slash '*' = some (.star, []) := by decide
    rw [run_cons, slash, Option.bind_some, emit_nil, run_cons, star, Option.bind_some, emit_nil]
  have read := run_block closed
  rw [opened]
  cases text with
  | nil => cases closed
  | cons c rest =>
    cases length with
    | zero => cases read
    | succ length =>
      rw [List.take_succ_cons] at read ⊢
      by_cases star : c = '*'
      · subst star
        have half : step (.block 0 none) '*' = some (.block 0 (some '*'), []) := by decide
        have stars : step .star '*' = some (.stars, []) := by decide
        rw [run_cons, half, Option.bind_some, emit_nil] at read
        rw [run_cons, stars, Option.bind_some, emit_nil]
        unfold blockCommentKind at kind
        split at kind
        · rename_i same
          obtain ⟨-, rfl⟩ := List.cons.inj same
          cases length with
          | zero => cases read
          | succ length =>
            have again : step (.block 0 (some '*')) '*' = some (.block 0 (some '*'), []) := by decide
            have block : step .stars '*' = some (.block 0 (some '*'), []) := by decide
            rw [List.take_succ_cons, run_cons, again] at read
            rw [List.take_succ_cons, run_cons, block, read]
        · rename_i same
          obtain ⟨-, rfl⟩ := List.cons.inj same
          cases closed
          rfl
        · cases kind
        · cases kind
        · rename_i other _
          exact absurd rfl (other rest)
      · have bangless : c ≠ '!' := by
          rintro rfl
          cases kind
        have stepped : step .star c = step (.block 0 none) c := by
          simp [step, settle, absorb, star, bangless]
        rw [run_cons, stepped, ← run_cons, read]

private theorem take_lineLength (text : List Char) :
    '\n' ∉ text.take (lineLength text) ∧
      (text.drop (lineLength text) = [] ∨ (text.drop (lineLength text)).head? = some '\n') := by
  fun_induction lineLength text with
  | case1 => exact ⟨List.not_mem_nil, .inl rfl⟩
  | case2 rest => exact ⟨List.not_mem_nil, .inr rfl⟩
  | case3 c rest other ih =>
    rw [Nat.add_comm, List.take_succ_cons, List.drop_succ_cons]
    have ordinary : '\n' ≠ c := fun same => other same.symm
    exact ⟨fun mem => (List.mem_cons.mp mem).elim ordinary ih.1, ih.2⟩

/-- Between two pieces, blanks are skipped. -/
private theorem run_separators {blanks : List Char} (blank : ∀ c ∈ blanks, isSeparator c = true) :
    run .apart blanks = some (.apart, []) := by
  induction blanks with
  | nil => rfl
  | cons c blanks ih =>
    have separates := blank c List.mem_cons_self
    have skipped : step .apart c = some (.apart, []) := by
      simp [step, settle, start, separates, isIdentContinue_of_isSeparator separates]
    rw [run_cons, skipped, Option.bind_some, emit_nil, ih fun c mem => blank c (List.mem_cons_of_mem _ mem)]

private theorem run_comment {text : List Char} {length : Nat} (found : comment? text = some (.trivia, length)) :
    ∃ scan, run .apart (text.take length) = some (scan, []) ∧
      if Piece.isNote ⟨.trivia, text.take length⟩ then
        scan.isNote = true ∧ (text.drop length = [] ∨ (text.drop length).head? = some '\n')
      else scan = .apart := by
  cases isComment_of_comment? found with
  | @line rest _ kind =>
    obtain ⟨clean, ends⟩ := take_lineLength rest
    rw [← List.take_append_drop (lineLength rest) rest] at kind
    obtain ⟨scan, read, note⟩ := run_lineComment clean ends kind
    rw [Nat.add_comm]
    exact ⟨scan, read, note, ends⟩
  | block closed kind =>
    rw [Nat.add_comm]
    exact ⟨.apart, run_blockComment closed kind, rfl⟩

/-- What is cut off as trivia is read without a token. A line comment is still open when it is over,
and can only go on with a line feed. -/
theorem run_trivia {text : List Char} {length : Nat} (found : piece? text = some (.trivia, length + 1)) :
    ∃ scan, run .apart (text.take (length + 1)) = some (scan, []) ∧
      if Piece.isNote ⟨.trivia, text.take (length + 1)⟩ then
        scan.isNote = true ∧ (text.drop (length + 1) = [] ∨ (text.drop (length + 1)).head? = some '\n')
      else scan = .apart := by
  rcases isTrivia_of_piece? found with blank | comment
  · refine ⟨.apart, run_separators blank, ?_⟩
    cases text with
    | nil => cases found
    | cons c rest =>
      have first := blank c (by rw [List.take_succ_cons]; exact List.mem_cons_self)
      have noSlash : ('/' == c) = false :=
        beq_eq_false_iff_ne.mpr fun same => by rw [← same] at first; cases first
      simp [Piece.isNote, List.isPrefixOf, noSlash]
  · have started : startsComment text = true := by
      rw [← List.take_append_drop (length + 1) text]
      unfold startsComment at comment
      split at comment
      · rename_i same
        rw [same]
        rfl
      · rename_i same
        rw [same]
        rfl
      · cases comment
    rw [piece?_of_startsComment started] at found
    exact run_comment found

/-- What is cut off first is the beginning of the text. -/
private theorem first_of_ofText {text : List Char} {kind : PieceKind} {first : Piece} {later : List Piece}
    (cut : Piece.ofText text = some (first :: later)) (known : first.kind = kind) :
    ∃ length, piece? text = some (kind, length + 1) ∧ first = ⟨kind, text.take (length + 1)⟩ ∧
      Piece.ofText (text.drop (length + 1)) = some later := by
  cases text with
  | nil =>
    rw [Piece.ofText, Piece.ofText.go] at cut
    cases cut
  | cons c text =>
    obtain ⟨kind, length, others, found, same, cutRest⟩ := exists_piece_of_ofText cut
    obtain ⟨rfl, rfl⟩ := List.cons.inj same
    obtain rfl := known
    exact ⟨length, found, rfl, cutRest⟩

/-- Trivia is skipped, a line comment with the line feed behind it. -/
theorem run_behind_trivia {text : List Char} {length : Nat} (found : piece? text = some (.trivia, length + 1))
    (more : text.drop (length + 1) ≠ []) : run .apart text = run .apart (text.drop (length + 1)) := by
  obtain ⟨scan, read, ends⟩ := run_trivia found
  have split : run .apart text = scan.run (text.drop (length + 1)) := by
    have whole := run_append_of_run read (text.drop (length + 1))
    rwa [List.take_append_drop, emit_nil] at whole
  rw [split]
  split at ends
  · obtain ⟨note, nothing | feed⟩ := ends
    · exact absurd nothing more
    · obtain ⟨c, rest, same⟩ := List.exists_cons_of_ne_nil more
      rw [same] at feed ⊢
      obtain rfl : c = '\n' := Option.some.inj feed
      rw [run_of_isNote note, run_feed]
  · rw [ends]

/-- Where a text is nothing but trivia, a scan ends as the last piece does. -/
theorem run_of_trivia {text : List Char} {pieces : List Piece} (cut : Piece.ofText text = some pieces)
    (trivia : ∀ piece ∈ pieces, piece.kind = .trivia) :
    ∃ scan, run .apart text = some (scan, []) ∧
      if pieces.getLast?.any Piece.isNote then scan.isNote = true else scan = .apart := by
  induction pieces generalizing text with
  | nil =>
    cases text with
    | nil => exact ⟨.apart, rfl, rfl⟩
    | cons c text =>
      obtain ⟨_, _, _, _, same, _⟩ := exists_piece_of_ofText cut
      cases same
  | cons first later ih =>
    obtain ⟨length, found, same, cutRest⟩ := first_of_ofText cut (trivia first List.mem_cons_self)
    have triviaRest : ∀ piece ∈ later, piece.kind = .trivia :=
      fun piece mem => trivia piece (List.mem_cons_of_mem _ mem)
    cases later with
    | nil =>
      have nothing : text.drop (length + 1) = [] := by
        have whole := Piece.flatMap_text_ofText cutRest
        exact whole.symm
      have whole := List.take_append_drop (length + 1) text
      rw [nothing, List.append_nil] at whole
      obtain ⟨scan, read, ends⟩ := run_trivia found
      rw [← same] at ends
      rw [whole] at read
      refine ⟨scan, read, ?_⟩
      rw [List.getLast?_singleton, Option.any_some]
      split
      · rename_i note
        rw [if_pos note] at ends
        exact ends.1
      · rename_i note
        rwa [if_neg note] at ends
    | cons next later =>
      have more : text.drop (length + 1) ≠ [] := by
        intro nothing
        rw [nothing, Piece.ofText, Piece.ofText.go] at cutRest
        cases cutRest
      rw [run_behind_trivia found more, List.getLast?_cons_cons]
      exact ih cutRest triviaRest

/-! ## Words -/

theorem isWord_of_measured {text : List Char} {length : Nat} (measured : plainWordLength text = some length) :
    IsWordText (text.take length) := by
  unfold plainWordLength at measured
  split at measured
  · cases measured
  · unfold markedWordLength at measured
    rw [IsWordText, Bool.or_eq_true]
    split at measured
    · rename_i rest
      split at measured
      · rename_i inner found
        split at measured
        · cases measured
        · rename_i allowed
          cases measured
          right
          have plain := (isPlainWord_iff _).mpr (isPlainWord_take found)
          rw [Nat.add_comm]
          simp only [List.take_succ_cons, isMarkedWord, plain, Bool.true_and]
          rw [Bool.not_eq_true']
          exact Bool.eq_false_iff.mpr allowed
      · cases measured
    · exact .inl ((isPlainWord_iff _).mpr (isPlainWord_take measured))

/-- A word is read to its end, and ends before blanks and comments. -/
theorem run_word {word : List Char} (isWord : IsWordText word) :
    run .apart word = some (.lexeme word, []) := by
  obtain ⟨first, rest, rfl, start, continues⟩ := isWord.exists_cons
  have lexeme : run (.lexeme [first]) rest = some (.lexeme ([first] ++ rest), []) :=
    run_lexeme (fun c mem => by simpa using continues c mem) [first]
  rw [run_cons, step_lexeme start, Option.bind_some, emit_nil, lexeme]
  rfl

theorem run_word_break {word : List Char} (isWord : IsWordText word) {c : Char} (breaks : isBreak c = true)
    (rest : List Char) :
    run .apart (word ++ c :: rest) =
      emit [.leaf (.word (String.ofList word))] (run .apart (c :: rest)) := by
  have token : lexeme? word c = some (.leaf (.word (String.ofList word))) := if_pos isWord
  have settled : settle (.lexeme word) c = some [.leaf (.word (String.ofList word))] := by
    simp [settle, breaks, token]
  rw [run_append_of_run (run_word isWord), emit_nil, run_of_settle settled]

private theorem isBreak_of_trivia {c : Char} {rest : List Char} {length : Nat}
    (found : piece? (c :: rest) = some (.trivia, length + 1)) : isBreak c = true := by
  rcases isTrivia_of_piece? found with blank | comment
  · have first := blank c (by rw [List.take_succ_cons]; exact List.mem_cons_self)
    have other : ∀ d, isSeparator d = false → c ≠ d := by
      rintro d ordinary rfl
      rw [first] at ordinary
      cases ordinary
    simp [isBreak, isIdentContinue_of_isSeparator first, other '"' (by decide), other '#' (by decide),
      other '\'' (by decide)]
  · rw [List.take_succ_cons] at comment
    unfold startsComment at comment
    split at comment
    · rename_i same
      rw [(List.cons.inj same).1]
      decide
    · rename_i same
      rw [(List.cons.inj same).1]
      decide
    · cases comment

private theorem not_isNote_of_isWord {kind : PieceKind} {word : List Char} (isWord : IsWordText word) :
    Piece.isNote ⟨kind, word⟩ = false := by
  obtain ⟨first, rest, rfl, start, _⟩ := isWord.exists_cons
  have noSlash : first ≠ '/' := ne_of_isIdentContinue start (by decide)
  simp [Piece.isNote, List.isPrefixOf, noSlash.symm]

/-- A word ends where the first piece behind it does, which is trivia. -/
private theorem run_of_ofText_word {text : List Char} {after : List Piece} {word : String}
    (cut : Piece.ofText text = some (⟨.word, word.toList⟩ :: after))
    (trivia : ∀ piece ∈ after, piece.kind = .trivia) :
    if (⟨.word, word.toList⟩ :: after).getLast?.any Piece.isNote then
      ∃ scan, scan.isNote = true ∧ run .apart text = some (scan, [.leaf (.word word)])
    else ∀ c rest, isBreak c = true →
      run .apart (text ++ c :: rest) = emit [.leaf (.word word)] (run .apart (c :: rest)) := by
  obtain ⟨length, found, same, cutRest⟩ := first_of_ofText cut rfl
  have spelled : word.toList = text.take (length + 1) := congrArg Piece.text same
  have isWord := isWord_of_measured (plainWordLength_of_piece? found)
  have whole := List.take_append_drop (length + 1) text
  rw [← spelled] at isWord whole
  generalize text.drop (length + 1) = rest at cutRest whole
  subst whole
  cases rest with
  | nil =>
    obtain rfl : after = [] := by
      rw [Piece.ofText, Piece.ofText.go] at cutRest
      cases cutRest
      rfl
    rw [List.append_nil, List.getLast?_singleton, Option.any_some, if_neg (by simp [not_isNote_of_isWord isWord])]
    intro c rest breaks
    rw [run_word_break isWord breaks, String.ofList_toList]
  | cons d rest =>
    obtain ⟨last, others, rfl⟩ : ∃ last others, after = last :: others := by
      obtain ⟨_, _, later, _, same, _⟩ := exists_piece_of_ofText cutRest
      exact ⟨_, later, same⟩
    obtain ⟨length, found, _, _⟩ := first_of_ofText cutRest (trivia last List.mem_cons_self)
    have read := run_word_break isWord (isBreak_of_trivia found) rest
    obtain ⟨scan, skipped, ends⟩ := run_of_trivia cutRest trivia
    rw [skipped, emit_some, List.append_nil, String.ofList_toList] at read
    rw [List.getLast?_cons_cons]
    split
    · rename_i note
      rw [if_pos note] at ends
      exact ⟨scan, ends, read⟩
    · rename_i note
      rw [if_neg note] at ends
      subst ends
      intro e more _
      rw [run_append_of_run read]

/-- A text of one word ends in a line comment, or else it is read as the word in front of whatever
breaks one off. -/
theorem run_of_ofPieces_eq_word {text : List Char} {pieces : List Piece} {word : String}
    (cut : Piece.ofText text = some pieces) (single : Token.ofPieces pieces = [.leaf (.word word)]) :
    if pieces.getLast?.any Piece.isNote then
      ∃ scan, scan.isNote = true ∧ run .apart text = some (scan, [.leaf (.word word)])
    else ∀ c rest, isBreak c = true →
      run .apart (text ++ c :: rest) = emit [.leaf (.word word)] (run .apart (c :: rest)) := by
  obtain ⟨before, after, rfl, trivia⟩ :=
    split_of_ofPieces_eq_word (fun piece mem => text_ne_nil_of_mem cut mem) single
  clear single
  induction before generalizing text with
  | nil =>
    rw [List.nil_append] at cut trivia ⊢
    exact run_of_ofText_word cut trivia
  | cons first before ih =>
    obtain ⟨length, found, same, cutRest⟩ :=
      first_of_ofText cut (trivia first (List.mem_append_left _ List.mem_cons_self))
    have more : text.drop (length + 1) ≠ [] := by
      intro nothing
      rw [nothing, Piece.ofText, Piece.ofText.go] at cutRest
      cases before <;> cases cutRest
    have later := ih (fun piece mem => trivia piece (List.mem_cons_of_mem _ mem)) cutRest
    have skipped := run_behind_trivia found more
    have last : (first :: before ++ ⟨.word, word.toList⟩ :: after).getLast? =
        (before ++ ⟨.word, word.toList⟩ :: after).getLast? := by
      rw [List.cons_append, List.getLast?_cons_of_ne_nil (by simp)]
    rw [last]
    split
    · rename_i note
      rw [if_pos note] at later
      rwa [skipped]
    · rename_i note
      rw [if_neg note] at later
      intro c rest breaks
      rw [run_append, skipped, ← run_append]
      exact later c rest breaks

/-! ## Names -/

private theorem eq_cons_of_mark {text : List Char} {mark : Char} (marked : text.head? = some mark) :
    ∃ rest, text = mark :: rest := by
  cases text with
  | nil => cases marked
  | cons c rest => exact ⟨rest, by rw [Option.some.inj marked]⟩

/-- A name is read as its one word in front of whatever breaks a word off. -/
theorem run_of_isPasteable {name : String} (named : isIdentifier name = true)
    (pasteable : isPasteable name = true) :
    ∃ word, ∀ c rest, isBreak c = true →
      run .apart (name.toList ++ c :: rest) = emit [.leaf (.word word)] (run .apart (c :: rest)) := by
  obtain ⟨word, found, _⟩ := (isIdentifier_iff name).mp named
  obtain ⟨pieces, cut, single⟩ := pieces_of_word? found
  obtain ⟨whole, cutWhole, closed⟩ := Option.any_eq_true _ _ |>.mp pasteable
  have unmarked : afterMark name.toList = name.toList := by
    refine if_neg fun marked => ?_
    obtain ⟨rest, same⟩ := eq_cons_of_mark marked
    have none := tokens?_byteOrderMark rest
    rw [tokens?, ← same, cutWhole] at none
    cases none
  rw [unmarked] at cut
  obtain rfl := Option.some.inj (cut.symm.trans cutWhole)
  have read := run_of_ofPieces_eq_word cut single
  rw [Bool.not_eq_true'] at closed
  rw [if_neg (by rw [closed]; exact Bool.false_ne_true)] at read
  exact ⟨word, read⟩

/-- Any other name ends inside a line comment, or begins with a byte order mark. -/
theorem run_of_not_isPasteable {name : String} (named : isIdentifier name = true)
    (unpasteable : isPasteable name = false) :
    (∃ rest, name.toList = TokenTree.byteOrderMark :: rest) ∨
      ∃ word scan, scan.isNote = true ∧ run .apart name.toList = some (scan, [.leaf (.word word)]) := by
  obtain ⟨word, found, _⟩ := (isIdentifier_iff name).mp named
  obtain ⟨pieces, cut, single⟩ := pieces_of_word? found
  by_cases marked : name.toList.head? = some TokenTree.byteOrderMark
  · exact .inl (eq_cons_of_mark marked)
  · rw [afterMark, if_neg marked] at cut
    rw [isPasteable, cut, Option.any_some, Bool.not_eq_false'] at unpasteable
    have read := run_of_ofPieces_eq_word cut single
    rw [if_pos unpasteable] at read
    exact .inr ⟨word, read⟩

end Scan
end SlotArray.Source
