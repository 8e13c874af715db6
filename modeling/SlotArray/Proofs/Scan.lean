import Mathlib.Logic.Basic
import SlotArray.Proofs.Lexing
import SlotArray.Text.Lines

/-! A scan that reads a text character by character. It knows words, numbers, operators, brackets and
comments, but no quotes; where it does read a text, it finds the tokens of that text, whatever
follows. What it has read of the piece at hand is its state, so a scan can be taken in stretches. -/
namespace SlotArray.Source
open SlotArray.Text

/-- What a scan is in the middle of. -/
inductive Scan where
  /-- Between two pieces. -/
  | apart
  /-- Behind an opening parenthesis, which an error mark may begin with. -/
  | parenthesis
  /-- Behind a character of an operator, which may go on. -/
  | mark (char : Char)
  /-- Behind a single quote. -/
  | quote
  /-- Behind the lifetime without a name. -/
  | lifetime
  /-- In a word or a number. -/
  | lexeme (read : List Char)
  | slash
  /-- Behind two slashes. -/
  | slashes
  /-- In a line comment that means nothing. -/
  | note
  | threeSlashes
  /-- In a line comment that documents something, with what it says so far. -/
  | document (body : List Char)
  /-- Behind the opening of a block comment. -/
  | star
  /-- Behind the opening of a block comment and another star. -/
  | stars
  /-- In block comments, and what may be half of an opening or a closing. -/
  | block (depth : Nat) (half : Option Char)
  /-- Behind a byte order mark, with which no piece begins. -/
  | stuck
deriving DecidableEq, Repr

/-- Whether letters are a word without a mark. -/
def isPlainWord : List Char → Bool
  | [] => false
  | first :: rest => isIdentStart first && rest.all isIdentContinue

theorem isPlainWord_iff (word : List Char) : isPlainWord word = true ↔ IsPlainWord word := by
  cases word with
  | nil => exact ⟨fun none => (nomatch none), fun ⟨_, _, same, _⟩ => (nomatch same)⟩
  | cons first rest =>
    rw [isPlainWord, Bool.and_eq_true, List.all_eq_true]
    constructor
    · exact fun ⟨start, continues⟩ => ⟨first, rest, rfl, start, continues⟩
    · rintro ⟨_, _, same, start, continues⟩
      obtain ⟨rfl, rfl⟩ := List.cons.inj same
      exact ⟨start, continues⟩

/-- Whether letters are a word with the mark that makes a name of a keyword. -/
def isMarkedWord : List Char → Bool
  | 'r' :: '#' :: word => isPlainWord word && !neverRaw.contains word
  | _ => false

/-- The letters of a word, marked or not. -/
def IsWordText (word : List Char) : Prop := (isPlainWord word || isMarkedWord word) = true

/-- A word begins with a letter, or with the mark that makes a name of a keyword. -/
theorem IsWordText.exists_cons {word : List Char} (isWord : IsWordText word) :
    ∃ first rest, word = first :: rest ∧ isIdentContinue first = true ∧
      ∀ c ∈ rest, isIdentContinue c = true ∨ c = '#' := by
  have letters : ∀ {word : List Char}, isPlainWord word = true →
      ∃ first rest, word = first :: rest ∧ isIdentContinue first = true ∧ ∀ c ∈ rest, isIdentContinue c = true := by
    intro word plain
    obtain ⟨first, rest, rfl, start, continues⟩ := (isPlainWord_iff _).mp plain
    exact ⟨first, rest, rfl, isIdentContinue_of_isIdentStart start, continues⟩
  rw [IsWordText, Bool.or_eq_true] at isWord
  rcases isWord with plain | marked
  · obtain ⟨first, rest, rfl, goesOn, continues⟩ := letters plain
    exact ⟨first, rest, rfl, goesOn, fun c mem => .inl (continues c mem)⟩
  · unfold isMarkedWord at marked
    split at marked
    · rw [Bool.and_eq_true] at marked
      obtain ⟨first, rest, rfl, goesOn, continues⟩ := letters marked.1
      refine ⟨'r', _, rfl, by decide, fun c mem => ?_⟩
      rcases List.mem_cons.mp mem with rfl | mem
      · exact .inr rfl
      · rcases List.mem_cons.mp mem with rfl | mem
        · exact .inl goesOn
        · exact .inl (continues c mem)
    · cases marked

namespace Scan

/-- The token of a word or a number that ends before a character. -/
def lexeme? (read : List Char) (next : Char) : Option Token :=
  if isPlainWord read || isMarkedWord read then some (.leaf (.word (String.ofList read)))
  else if read.all Char.isDigit && next != '.' then some (.leaf (.literal (String.ofList read)))
  else none

/-- The tokens of the piece at hand, if it ends before a character. -/
def settle (scan : Scan) (next : Char) : Option (List Token) :=
  match scan with
  | .apart => some []
  | .parenthesis => if next = '/' then none else some [.opening .parenthesis]
  | .mark char => if next = '/' then none else some [.leaf (.mark char (operators.contains next))]
  | .lifetime => if isBreak next then some lifetimeTokens else none
  | .lexeme read => if isBreak next then (lexeme? read next).map ([·]) else none
  | .quote | .slash | .slashes | .note | .threeSlashes | .document _ | .star | .stars | .block _ _
  | .stuck => none

/-- The half of an opening or a closing that a character is. -/
def half? (c : Char) : Option Char := if c = '/' || c = '*' then some c else none

/-- Reads the first character of a piece. -/
def start (c : Char) : Option (Scan × List Token) :=
  if isIdentContinue c then some (.lexeme [c], [])
  else if isSeparator c then some (.apart, [])
  else if c = '(' then some (.parenthesis, [])
  else if c = '/' then some (.slash, [])
  else if c = '\'' then some (.quote, [])
  else
    match bracket? c with
    | some token => some (.apart, [token])
    | none =>
      if operators.contains c then some (.mark c, [])
      else if c = TokenTree.byteOrderMark then some (.stuck, [])
      else none

/-- Reads another character of the piece at hand. -/
def absorb : Scan → Char → Option (Scan × List Token)
  | .quote, c => if c = '_' then some (.lifetime, []) else none
  | .lexeme read, c =>
    if isIdentContinue c || c = '#' then some (.lexeme (read ++ [c]), []) else none
  | .slash, c =>
    if c = '/' then some (.slashes, []) else if c = '*' then some (.star, []) else none
  | .slashes, c =>
    if c = '\n' then some (.apart, []) else if c = '/' then some (.threeSlashes, [])
    else if c = '!' then none else some (.note, [])
  | .note, c => if c = '\n' then some (.apart, []) else some (.note, [])
  | .threeSlashes, c =>
    if c = '\n' then some (.apart, documentTokens false []) else if c = '/' then some (.note, [])
    else if c = '\r' then none else some (.document [c], [])
  | .document body, c =>
    if c = '\n' then some (.apart, documentTokens false body)
    else if c = '\r' then none else some (.document (body ++ [c]), [])
  | .star, c =>
    if c = '!' then none else if c = '*' then some (.stars, []) else some (.block 0 (half? c), [])
  | .stars, c =>
    if c = '/' then some (.apart, []) else if c = '*' then some (.block 0 (some '*'), []) else none
  | .block depth half, c =>
    if half = some '/' && c = '*' then some (.block (depth + 1) none, [])
    else if half = some '*' && c = '/' then
      match depth with
      | 0 => some (.apart, [])
      | outer + 1 => some (.block outer none, [])
    else some (.block depth (half? c), [])
  | .stuck, _ => some (.stuck, [])
  | _, _ => none

/-- Tokens in front of what is found afterwards. -/
def emit (tokens : List Token) (found : Option (Scan × List Token)) : Option (Scan × List Token) :=
  found.map fun (scan, more) => (scan, tokens ++ more)

@[simp] theorem emit_none (tokens : List Token) : emit tokens none = none := rfl

@[simp] theorem emit_some (tokens : List Token) (found : Scan × List Token) :
    emit tokens (some found) = some (found.1, tokens ++ found.2) := rfl

@[simp] theorem emit_nil (found : Option (Scan × List Token)) : emit [] found = found := by
  cases found <;> rfl

@[simp] theorem emit_emit (tokens more : List Token) (found : Option (Scan × List Token)) :
    emit tokens (emit more found) = emit (tokens ++ more) found := by
  cases found <;> simp [emit]

theorem emit_eq_some_iff {tokens all : List Token} {found : Option (Scan × List Token)} {scan : Scan} :
    emit tokens found = some (scan, all) ↔ ∃ more, found = some (scan, more) ∧ all = tokens ++ more := by
  rcases found with _ | ⟨last, more⟩
  · simp
  · simp only [emit_some, Option.some.injEq, Prod.mk.injEq]
    constructor
    · rintro ⟨rfl, rfl⟩
      exact ⟨more, ⟨rfl, rfl⟩, rfl⟩
    · rintro ⟨_, ⟨rfl, rfl⟩, rfl⟩
      exact ⟨rfl, rfl⟩

/-- Reads one character: it begins another piece where the one at hand ends. -/
def step (scan : Scan) (c : Char) : Option (Scan × List Token) :=
  match scan.settle c with
  | some tokens => emit tokens (start c)
  | none => scan.absorb c

/-- Reads a text. -/
def run (scan : Scan) : List Char → Option (Scan × List Token)
  | [] => some (scan, [])
  | c :: rest => (scan.step c).bind fun found => emit found.2 (found.1.run rest)

theorem run_nil (scan : Scan) : scan.run [] = some (scan, []) := rfl

theorem run_cons (scan : Scan) (c : Char) (rest : List Char) :
    scan.run (c :: rest) = (scan.step c).bind fun found => emit found.2 (found.1.run rest) := rfl

/-- A text is read in stretches. -/
theorem run_append (scan : Scan) (text more : List Char) :
    scan.run (text ++ more) =
      (scan.run text).bind fun found => emit found.2 (found.1.run more) := by
  induction text generalizing scan with
  | nil => exact (emit_nil _).symm
  | cons c rest ih =>
    rw [List.cons_append, run_cons, run_cons, Option.bind_assoc]
    refine congrArg (Option.bind _) (funext fun found => ?_)
    rw [ih]
    cases found.1.run rest with
    | none => rfl
    | some found => simp

theorem run_append_of_run {scan next : Scan} {text : List Char} {tokens : List Token}
    (read : scan.run text = some (next, tokens)) (more : List Char) :
    scan.run (text ++ more) = emit tokens (next.run more) := by
  rw [run_append, read]
  rfl

/-- A scan that is stuck reads nothing more. -/
theorem run_stuck (rest : List Char) : run .stuck rest = some (.stuck, []) := by
  induction rest with
  | nil => rfl
  | cons c rest ih =>
    have stays : step .stuck c = some (.stuck, []) := rfl
    rw [run_cons, stays, Option.bind_some, emit_nil, ih]

/-- Where the piece at hand ends, the scan goes on as from between two pieces. -/
theorem run_of_settle {scan : Scan} {c : Char} {tokens : List Token}
    (settled : scan.settle c = some tokens) (rest : List Char) :
    scan.run (c :: rest) = emit tokens (run .apart (c :: rest)) := by
  have first : scan.step c = emit tokens (start c) := by rw [step, settled]
  have again : step .apart c = start c := by
    rw [step, settle]
    exact emit_nil _
  rw [run_cons, run_cons, first, again]
  rcases start c with _ | ⟨next, more⟩
  · rfl
  · simp

/-! ## What a scan has read -/

/-- The text of the piece at hand. -/
inductive Reads : Scan → List Char → Prop where
  | apart : Reads .apart []
  | parenthesis : Reads .parenthesis ['(']
  | mark {c : Char} (operator : isPlainOperator c = true) : Reads (.mark c) [c]
  | quote : Reads .quote ['\'']
  | lifetime : Reads .lifetime ['\'', '_']
  | lexeme {read : List Char} (filled : read ≠ []) : Reads (.lexeme read) read
  | slash : Reads .slash ['/']
  | slashes : Reads .slashes ['/', '/']
  | note (body : List Char) (clean : '\n' ∉ body)
      (kind : ∀ more, lineCommentKind (body ++ more) = .trivia) : Reads .note ('/' :: '/' :: body)
  | threeSlashes : Reads .threeSlashes ['/', '/', '/']
  | document (body : List Char) (clean : '\n' ∉ body) (noReturn : '\r' ∉ body)
      (filled : body ≠ []) (noSlash : body.head? ≠ some '/') :
      Reads (.document body) ('/' :: '/' :: '/' :: body)
  | star : Reads .star ['/', '*']
  | stars : Reads .stars ['/', '*', '*']
  | block (front : List Char) {depth : Nat} (half : Option Char)
      (kind : ∀ more, blockCommentKind (front ++ (half.toList ++ more)) = .trivia)
      (measured : ∀ more, blockLength 0 (front ++ (half.toList ++ more)) =
        (blockLength depth (half.toList ++ more)).map (· + front.length)) :
      Reads (.block depth half) ('/' :: '*' :: (front ++ half.toList))
  | stuck (rest : List Char) : Reads .stuck (TokenTree.byteOrderMark :: rest)

/-- What a step comes to: the tokens of a text that begins with what was read are those found, and
those of the text from the piece at hand on. -/
def Leads (read : List Char) (next : Scan) (tokens : List Token) : Prop :=
  ∃ inner, Reads next inner ∧
    ∀ more, tokens? (read ++ more) = (tokens? (inner ++ more)).map (tokens ++ ·)

theorem Leads.further {next : Scan} {inner : List Char} (reads : Reads next inner) :
    Leads inner next [] :=
  ⟨inner, reads, fun _ => Option.map_id'.symm⟩

/-- The piece at hand has ended. -/
theorem Leads.ended {read : List Char} {tokens : List Token}
    (same : ∀ rest, tokens? (read ++ rest) = (tokens? rest).map (tokens ++ ·)) : Leads read .apart tokens :=
  ⟨[], .apart, same⟩

theorem Leads.trans {read : List Char} {tokens more : List Token} {next : Scan} {middle : List Char}
    (same : ∀ rest, tokens? (read ++ rest) = (tokens? (middle ++ rest)).map (tokens ++ ·))
    (leads : Leads middle next more) : Leads read next (tokens ++ more) := by
  obtain ⟨inner, reads, rest⟩ := leads
  refine ⟨inner, reads, fun later => ?_⟩
  rw [same, rest, Option.map_map]
  simp [Function.comp_def]

theorem settle_reads {scan : Scan} {read : List Char} {c : Char} {tokens : List Token}
    (reads : Reads scan read) (settled : scan.settle c = some tokens) (rest : List Char) :
    tokens? (read ++ c :: rest) = (tokens? (c :: rest)).map (tokens ++ ·) := by
  cases reads with
  | apart =>
    cases settled
    exact Option.map_id'.symm
  | parenthesis =>
    simp only [settle] at settled
    split at settled
    · cases settled
    · rename_i noMark
      cases settled
      exact tokens?_parenthesis (startsComment_cons noMark rest)
  | mark operator =>
    simp only [settle] at settled
    split at settled
    · cases settled
    · rename_i noComment
      cases settled
      rw [← isOperator_eq]
      exact tokens?_operator operator noComment rest
  | lifetime =>
    simp only [settle] at settled
    split at settled
    · rename_i breaks
      cases settled
      exact tokens?_lifetime breaks rest
    · cases settled
  | lexeme filled =>
    simp only [settle] at settled
    split at settled
    · rename_i breaks
      obtain ⟨token, found, rfl⟩ := Option.map_eq_some_iff.mp settled
      unfold lexeme? at found
      split at found
      · rename_i word
        cases found
        rw [Bool.or_eq_true] at word
        rcases word with plain | marked
        · exact tokens?_plainWord breaks rest ((isPlainWord_iff _).mp plain)
        · unfold isMarkedWord at marked
          split at marked
          · rename_i word
            rw [Bool.and_eq_true, Bool.not_eq_true'] at marked
            exact tokens?_markedWord breaks rest ((isPlainWord_iff _).mp marked.1) marked.2
          · cases marked
      · split at found
        · rename_i number
          cases found
          rw [Bool.and_eq_true, List.all_eq_true, bne_iff_ne] at number
          exact tokens?_number breaks rest number.1 filled number.2
        · cases found
    · cases settled
  | quote | slash | slashes | note | threeSlashes | document | star | stars | block | stuck =>
    cases settled

theorem start_leads {c : Char} {next : Scan} {tokens : List Token}
    (started : start c = some (next, tokens)) : Leads [c] next tokens := by
  unfold start at started
  split at started
  · cases started
    exact .further (.lexeme (List.cons_ne_nil _ _))
  split at started
  · rename_i blank
    cases started
    exact .ended fun rest => (tokens?_separator blank rest).trans Option.map_id'.symm
  split at started
  · rename_i same
    cases started
    exact same ▸ .further .parenthesis
  split at started
  · rename_i same
    cases started
    exact same ▸ .further .slash
  split at started
  · rename_i same
    cases started
    exact same ▸ .further .quote
  rename_i noSlash noQuote
  split at started
  · rename_i bracket
    cases started
    exact .ended fun rest => tokens?_bracket bracket rest
  split at started
  · rename_i operator
    cases started
    rw [← isOperator_eq] at operator
    exact .further (.mark (isPlainOperator_iff.mpr ⟨operator, noSlash, noQuote⟩))
  split at started
  · rename_i same
    cases started
    exact same ▸ .further (.stuck [])
  · cases started

/-! ## Inside comments -/

/-- A character that is no half of an opening or a closing counts for itself. -/
private theorem blockLength_cons {c : Char} {depth : Nat} {rest : List Char}
    (noOpening : c = '/' → rest.head? ≠ some '*') (noClosing : c = '*' → rest.head? ≠ some '/') :
    blockLength depth (c :: rest) = (blockLength depth rest).map (· + 1) := by
  rw [blockLength]
  · rintro more rfl rfl
    exact noOpening rfl rfl
  · rintro more rfl rfl
    exact noClosing rfl rfl

private theorem half?_of_ne {c : Char} (noSlash : c ≠ '/') (noStar : c ≠ '*') : half? c = none := by
  simp [half?, noSlash, noStar]

/-- In a block comment, one more character is read. -/
private theorem block_further {front : List Char} {depth : Nat} {c : Char}
    (kind : ∀ more, blockCommentKind (front ++ c :: more) = .trivia)
    (measured : ∀ more, blockLength 0 (front ++ c :: more) =
      (blockLength depth (c :: more)).map (· + front.length)) :
    Leads ('/' :: '*' :: (front ++ [c])) (.block depth (half? c)) [] := by
  by_cases half : c = '/' ∨ c = '*'
  · have isHalf : half? c = some c := by
      rcases half with rfl | rfl <;> rfl
    rw [isHalf]
    exact .further (.block front (some c) kind measured)
  · obtain ⟨noSlash, noStar⟩ := not_or.mp half
    rw [half?_of_ne noSlash noStar]
    have whole : '/' :: '*' :: (front ++ [c]) = '/' :: '*' :: ((front ++ [c]) ++ none.toList) := by simp
    rw [whole]
    refine .further (.block _ none (fun more => ?_) fun more => ?_)
    · simpa using kind more
    · have counted : blockLength depth (c :: more) = (blockLength depth more).map (· + 1) :=
        blockLength_cons (fun same => absurd same noSlash) fun same => absurd same noStar
      have start := measured more
      rw [counted, Option.map_map] at start
      simpa [Function.comp_def, Nat.add_comm, Nat.add_left_comm] using start

/-- In a block comment, an opening or a closing is read. -/
private theorem block_behind {front : List Char} {depth inner : Nat} {d c : Char}
    (kind : ∀ more, blockCommentKind (front ++ d :: c :: more) = .trivia)
    (measured : ∀ more, blockLength 0 (front ++ d :: c :: more) =
      (blockLength depth (d :: c :: more)).map (· + front.length))
    (counted : ∀ more, blockLength depth (d :: c :: more) = (blockLength inner more).map (· + 2)) :
    Leads ('/' :: '*' :: ((front ++ [d]) ++ [c])) (.block inner none) [] := by
  have whole : '/' :: '*' :: ((front ++ [d]) ++ [c]) = '/' :: '*' :: ((front ++ [d, c]) ++ none.toList) := by simp
  rw [whole]
  refine .further (.block _ none (fun more => ?_) fun more => ?_)
  · simpa using kind more
  · have start := measured more
    rw [counted, Option.map_map] at start
    simpa [Function.comp_def, Nat.add_comm, Nat.add_left_comm] using start

private theorem block_leads {front : List Char} {depth : Nat} {half : Option Char} {c : Char}
    {next : Scan} {tokens : List Token}
    (kind : ∀ more, blockCommentKind (front ++ (half.toList ++ more)) = .trivia)
    (measured : ∀ more, blockLength 0 (front ++ (half.toList ++ more)) =
      (blockLength depth (half.toList ++ more)).map (· + front.length))
    (absorbed : absorb (.block depth half) c = some (next, tokens)) :
    Leads ('/' :: '*' :: (front ++ half.toList) ++ [c]) next tokens := by
  have whole : '/' :: '*' :: (front ++ half.toList) ++ [c] = '/' :: '*' :: ((front ++ half.toList) ++ [c]) := by
    simp
  rw [whole]
  rcases ite_eq_iff.mp absorbed with ⟨opens, found⟩ | ⟨noOpening, absorbed⟩
  · cases found
    obtain ⟨rfl, rfl⟩ : half = some '/' ∧ c = '*' := by simpa using opens
    exact block_behind (fun more => kind ('*' :: more)) (fun more => measured ('*' :: more)) fun more => rfl
  rcases ite_eq_iff.mp absorbed with ⟨closes, found⟩ | ⟨noClosing, found⟩
  · obtain ⟨rfl, rfl⟩ : half = some '*' ∧ c = '/' := by simpa using closes
    cases depth with
    | zero =>
      cases found
      refine .ended fun rest => ?_
      have length : blockLength 0 ((front ++ ['*', '/']) ++ rest) =
          some (front ++ ['*', '/']).length := by
        have start := measured ('/' :: rest)
        simp only [Option.toList_some, List.singleton_append, blockLength, Option.map_some] at start
        simpa [Nat.add_comm] using start
      have comment := tokens?_block length (by simpa using kind ('/' :: rest))
      simpa using comment
    | succ outer =>
      cases found
      exact block_behind (fun more => kind ('/' :: more)) (fun more => measured ('/' :: more)) fun more => rfl
  · cases found
    refine block_further (fun rest => by simpa using kind (c :: rest)) fun rest => ?_
    have start := measured (c :: rest)
    cases half with
    | none => simpa using start
    | some d =>
      have counted : blockLength depth (d :: c :: rest) = (blockLength depth (c :: rest)).map (· + 1) :=
        blockLength_cons (fun same star => noOpening (by simp_all)) fun same slash =>
          noClosing (by simp_all)
      simp only [Option.toList_some, List.singleton_append] at start
      rw [counted, Option.map_map] at start
      simpa [Function.comp_def, Nat.add_comm, Nat.add_left_comm] using start

/-- Behind two slashes, a line comment ends or goes on, or a third slash makes it document something. -/
private theorem slashes_leads {c : Char} {next : Scan} {tokens : List Token}
    (absorbed : absorb .slashes c = some (next, tokens)) : Leads ['/', '/', c] next tokens := by
  rcases ite_eq_iff.mp absorbed with ⟨rfl, found⟩ | ⟨noFeed, absorbed⟩
  · cases found
    exact .ended fun rest => (@tokens?_note [] List.not_mem_nil rest rfl).trans Option.map_id'.symm
  rcases ite_eq_iff.mp absorbed with ⟨rfl, found⟩ | ⟨noSlash, absorbed⟩
  · cases found
    exact .further .threeSlashes
  rcases ite_eq_iff.mp absorbed with ⟨_, found⟩ | ⟨noBang, found⟩
  · cases found
  · cases found
    refine .further (.note [c] (by simpa using Ne.symm noFeed) fun more => ?_)
    unfold lineCommentKind
    split <;> simp_all

private theorem note_leads {body : List Char} {c : Char} {next : Scan} {tokens : List Token}
    (clean : '\n' ∉ body) (kind : ∀ more, lineCommentKind (body ++ more) = .trivia)
    (absorbed : absorb .note c = some (next, tokens)) : Leads ('/' :: '/' :: body ++ [c]) next tokens := by
  rcases ite_eq_iff.mp absorbed with ⟨rfl, found⟩ | ⟨noFeed, found⟩
  · cases found
    refine .ended fun rest => ?_
    have comment := tokens?_note clean rest (kind _)
    simpa using comment
  · cases found
    refine .further (.note (body ++ [c]) ?_ fun more => ?_)
    · simpa using ⟨clean, Ne.symm noFeed⟩
    · simpa using kind (c :: more)

/-- A fourth slash makes a comment of documentation one that means nothing. -/
private theorem threeSlashes_leads {c : Char} {next : Scan} {tokens : List Token}
    (absorbed : absorb .threeSlashes c = some (next, tokens)) : Leads ['/', '/', '/', c] next tokens := by
  rcases ite_eq_iff.mp absorbed with ⟨rfl, found⟩ | ⟨noFeed, absorbed⟩
  · cases found
    exact .ended fun rest => @tokens?_document [] List.not_mem_nil List.not_mem_nil (by decide) rest
  rcases ite_eq_iff.mp absorbed with ⟨rfl, found⟩ | ⟨noSlash, absorbed⟩
  · cases found
    exact .further (.note ['/', '/'] (by decide) fun more => rfl)
  rcases ite_eq_iff.mp absorbed with ⟨_, found⟩ | ⟨noReturn, found⟩
  · cases found
  · cases found
    exact .further (.document [c] (by simpa using Ne.symm noFeed)
      (by simpa using Ne.symm noReturn) (List.cons_ne_nil _ _) (by simpa using noSlash))

private theorem document_leads {body : List Char} {c : Char} {next : Scan} {tokens : List Token}
    (clean : '\n' ∉ body) (noReturn : '\r' ∉ body) (filled : body ≠ []) (noSlash : body.head? ≠ some '/')
    (absorbed : absorb (.document body) c = some (next, tokens)) :
    Leads ('/' :: '/' :: '/' :: body ++ [c]) next tokens := by
  rcases ite_eq_iff.mp absorbed with ⟨rfl, found⟩ | ⟨noFeed, absorbed⟩
  · cases found
    refine .ended fun rest => ?_
    have comment := tokens?_document clean noReturn noSlash rest
    simpa using comment
  rcases ite_eq_iff.mp absorbed with ⟨_, found⟩ | ⟨other, found⟩
  · cases found
  · cases found
    refine .further (.document (body ++ [c]) (by simpa using ⟨clean, Ne.symm noFeed⟩)
      (by simpa using ⟨noReturn, Ne.symm other⟩) (List.append_ne_nil_of_left_ne_nil filled _) ?_)
    obtain ⟨d, others, rfl⟩ := List.exists_cons_of_ne_nil filled
    exact noSlash

/-- Behind the opening of a block comment, a star may be half of its closing, or make it document
something. -/
private theorem star_leads {c : Char} {next : Scan} {tokens : List Token}
    (absorbed : absorb .star c = some (next, tokens)) : Leads ['/', '*', c] next tokens := by
  rcases ite_eq_iff.mp absorbed with ⟨_, found⟩ | ⟨noBang, absorbed⟩
  · cases found
  rcases ite_eq_iff.mp absorbed with ⟨rfl, found⟩ | ⟨noStar, found⟩
  · cases found
    exact .further .stars
  · cases found
    refine @block_further [] 0 c (fun more => ?_) fun more => ?_
    · rw [List.nil_append]
      unfold blockCommentKind
      split <;> simp_all
    · exact Option.map_id'.symm

private theorem stars_leads {c : Char} {next : Scan} {tokens : List Token}
    (absorbed : absorb .stars c = some (next, tokens)) : Leads ['/', '*', '*', c] next tokens := by
  rcases ite_eq_iff.mp absorbed with ⟨rfl, found⟩ | ⟨noSlash, absorbed⟩
  · cases found
    refine .ended fun rest => ?_
    have comment := @tokens?_block ['*', '/'] rest rfl rfl
    exact comment.trans Option.map_id'.symm
  rcases ite_eq_iff.mp absorbed with ⟨rfl, found⟩ | ⟨noStar, found⟩
  · cases found
    refine .further (.block ['*'] (some '*') (fun more => rfl) fun more => ?_)
    exact blockLength_cons (fun same => absurd same (by decide)) fun _ => by simp
  · cases found

/-! ## Steps -/

theorem absorb_leads {scan next : Scan} {read : List Char} {c : Char} {tokens : List Token}
    (reads : Reads scan read) (absorbed : scan.absorb c = some (next, tokens)) :
    Leads (read ++ [c]) next tokens := by
  cases reads with
  | apart | parenthesis | mark | lifetime => cases absorbed
  | quote =>
    obtain ⟨rfl, found⟩ := Option.ite_none_right_eq_some.mp absorbed
    cases found
    exact .further .lifetime
  | lexeme filled =>
    obtain ⟨_, found⟩ := Option.ite_none_right_eq_some.mp absorbed
    cases found
    exact .further (.lexeme (List.append_ne_nil_of_right_ne_nil _ (List.cons_ne_nil _ _)))
  | slash =>
    rcases ite_eq_iff.mp absorbed with ⟨rfl, found⟩ | ⟨_, absorbed⟩
    · cases found
      exact .further .slashes
    · obtain ⟨rfl, found⟩ := Option.ite_none_right_eq_some.mp absorbed
      cases found
      exact .further .star
  | slashes => exact slashes_leads absorbed
  | note body clean kind => exact note_leads clean kind absorbed
  | threeSlashes => exact threeSlashes_leads absorbed
  | document body clean noReturn filled noSlash => exact document_leads clean noReturn filled noSlash absorbed
  | star => exact star_leads absorbed
  | stars => exact stars_leads absorbed
  | block front half kind measured => exact block_leads kind measured absorbed
  | stuck rest =>
    cases absorbed
    exact .further (.stuck (rest ++ [c]))

theorem step_leads {scan next : Scan} {read : List Char} {c : Char} {tokens : List Token}
    (reads : Reads scan read) (stepped : scan.step c = some (next, tokens)) :
    Leads (read ++ [c]) next tokens := by
  unfold step at stepped
  split at stepped
  · rename_i settled
    obtain ⟨more, started, rfl⟩ := emit_eq_some_iff.mp stepped
    refine .trans (fun rest => ?_) (start_leads started)
    simpa using settle_reads reads settled rest
  · exact absorb_leads reads stepped

theorem run_leads {scan last : Scan} {read text : List Char} {tokens : List Token}
    (reads : Reads scan read) (ran : scan.run text = some (last, tokens)) :
    Leads (read ++ text) last tokens := by
  induction text generalizing scan read tokens with
  | nil =>
    cases ran
    rw [List.append_nil]
    exact .further reads
  | cons c rest ih =>
    obtain ⟨⟨next, first⟩, stepped, ran⟩ := Option.bind_eq_some_iff.mp ran
    obtain ⟨others, ranRest, rfl⟩ := emit_eq_some_iff.mp ran
    obtain ⟨inner, further, same⟩ := step_leads reads stepped
    refine .trans (fun more => ?_) (ih further ranRest)
    simpa using same (rest ++ more)

/-- A scan that got stuck has read a text without tokens. -/
theorem tokens?_of_stuck {text : List Char} {tokens : List Token}
    (ran : run .apart text = some (.stuck, tokens)) : tokens? text = none := by
  obtain ⟨inner, reads, same⟩ := run_leads .apart ran
  cases reads with
  | stuck rest =>
    have none : tokens? (text ++ []) = _ := same []
    rwa [List.append_nil, List.append_nil, tokens?_byteOrderMark] at none

/-- A scan that ends between two pieces has found the tokens of what it read, whatever follows. -/
theorem tokens?_of_run {text : List Char} {tokens : List Token}
    (ran : run .apart text = some (.apart, tokens)) (rest : List Char) :
    tokens? (text ++ rest) = (tokens? rest).map (tokens ++ ·) := by
  obtain ⟨inner, reads, same⟩ := run_leads .apart ran
  cases reads
  exact same rest

/-! ## Indentation -/

/-- At the beginning of a line, a scan is between two pieces or in a block comment, or stuck. -/
inductive Rested : Scan → Prop where
  | apart : Rested .apart
  | block (depth : Nat) : Rested (.block depth none)
  | stuck : Rested .stuck

theorem Rested.of_feed {scan next : Scan} {tokens : List Token}
    (stepped : scan.step '\n' = some (next, tokens)) : next.Rested := by
  have started : start '\n' = some (.apart, []) := by decide
  unfold step at stepped
  split at stepped
  · rw [started] at stepped
    cases stepped
    exact .apart
  · cases scan with
    | quote | slash | stars => cases stepped
    | slashes | note | threeSlashes | document =>
      cases stepped
      exact .apart
    | star =>
      cases stepped
      exact .block 0
    | block depth half =>
      have further : absorb (.block depth half) '\n' = some (.block depth none, []) := by
        simp [absorb, half?]
      rw [further] at stepped
      cases stepped
      exact .block depth
    | stuck =>
      cases stepped
      exact .stuck
    | apart | parenthesis | mark | lifetime | lexeme => cases stepped

theorem Rested.of_run_feed {scan : Scan} {row : List Char} {found : Scan × List Token}
    (read : scan.run (row ++ ['\n']) = some found) : found.1.Rested := by
  rw [run_append] at read
  obtain ⟨middle, _, last⟩ := Option.bind_eq_some_iff.mp read
  obtain ⟨more, last, _⟩ := emit_eq_some_iff.mp last
  obtain ⟨⟨next, tokens⟩, stepped, ended⟩ := Option.bind_eq_some_iff.mp last
  obtain ⟨_, ended, _⟩ := emit_eq_some_iff.mp ended
  cases ended
  exact .of_feed stepped

/-- There, spaces and tabs change nothing. -/
theorem run_blank {scan : Scan} (rested : scan.Rested) {c : Char} (blank : c = ' ' ∨ c = '\t')
    (rest : List Char) : scan.run (c :: rest) = scan.run rest := by
  have stays : scan.step c = some (scan, []) := by
    cases rested with
    | apart => rcases blank with rfl | rfl <;> decide
    | block depth => rcases blank with rfl | rfl <;> simp [step, settle, absorb, half?]
    | stuck => rfl
  rw [run_cons, stays]
  exact emit_nil _

theorem run_blanks {scan : Scan} (rested : scan.Rested) {blanks : List Char}
    (blank : ∀ c ∈ blanks, c = ' ' ∨ c = '\t') (rest : List Char) :
    scan.run (blanks ++ rest) = scan.run rest := by
  induction blanks with
  | nil => rfl
  | cons c blanks ih =>
    rw [List.cons_append, run_blank rested (blank c List.mem_cons_self),
      ih fun c mem => blank c (List.mem_cons_of_mem _ mem)]

theorem run_indentLine {scan : Scan} (rested : scan.Rested) (depth : Nat) (line rest : List Char) :
    scan.run (indentLine depth line ++ rest) = scan.run (line ++ rest) := by
  unfold indentLine
  split
  · have split := @List.takeWhile_append_dropWhile _ (fun c => c == ' ' || c == '\t') line
    have blank : ∀ c ∈ line.takeWhile fun c => c == ' ' || c == '\t', c = ' ' ∨ c = '\t' := by
      intro c mem
      simpa using List.all_eq_true.mp List.all_takeWhile c mem
    rw [← run_blanks rested blank, ← List.append_assoc, split]
  · rw [List.append_assoc]
    exact run_blanks rested (fun c mem => .inl (List.eq_of_mem_replicate mem)) _

/-- All lines but the last end with a line feed. -/
private theorem fed_of_mem_dropLast_lines {text line : List Char} (mem : line ∈ (lines text).dropLast) :
    ∃ row, line = row ++ ['\n'] := by
  induction text generalizing line with
  | nil => exact absurd mem List.not_mem_nil
  | cons c rest ih =>
    have cut : lines (c :: rest) = consLine c (lines rest) := rfl
    rw [cut] at mem
    unfold consLine at mem
    split at mem
    · rename_i feed
      cases later : lines rest with
      | nil =>
        rw [later] at mem
        exact absurd mem List.not_mem_nil
      | cons next others =>
        rw [later, List.dropLast_cons_cons] at mem
        rcases List.mem_cons.mp mem with rfl | mem
        · exact ⟨[], by rw [feed]; rfl⟩
        · exact ih (by rw [later]; exact mem)
    · split at mem
      · exact absurd mem List.not_mem_nil
      · rename_i first others later
        cases others with
        | nil => exact absurd mem List.not_mem_nil
        | cons next others =>
          rw [List.dropLast_cons_cons] at mem
          rw [later, List.dropLast_cons_cons] at ih
          rcases List.mem_cons.mp mem with rfl | mem
          · obtain ⟨row, same⟩ := ih List.mem_cons_self
            exact ⟨c :: row, by rw [same]; rfl⟩
          · exact ih (List.mem_cons_of_mem _ mem)

/-- Indented text is read like the text itself. -/
theorem run_indent {scan : Scan} (rested : scan.Rested) (depth : Nat) (text : List Char) :
    scan.run (indent depth text) = scan.run text := by
  have indented : ∀ (rows : List (List Char)) (scan : Scan), scan.Rested →
      (∀ line ∈ rows.dropLast, ∃ row, line = row ++ ['\n']) →
      scan.run (rows.flatMap (indentLine depth)) = scan.run rows.flatten := by
    intro rows
    induction rows with
    | nil => exact fun _ _ _ => rfl
    | cons line rows ih =>
      intro scan rested fed
      rw [List.flatMap_cons, List.flatten_cons, run_indentLine rested]
      cases rows with
      | nil => rfl
      | cons next others =>
        rw [List.dropLast_cons_cons] at fed
        obtain ⟨row, rfl⟩ := fed line List.mem_cons_self
        rw [run_append _ (row ++ ['\n']), run_append _ (row ++ ['\n'])]
        cases read : scan.run (row ++ ['\n']) with
        | none => rfl
        | some found =>
          rw [Option.bind_some, Option.bind_some, ih found.1 (.of_run_feed read)
            fun line mem => fed line (List.mem_cons_of_mem _ mem)]
  rw [indent, indented _ scan rested fun line mem => fed_of_mem_dropLast_lines mem, flatten_lines]

end Scan
end SlotArray.Source
