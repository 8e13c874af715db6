import SlotArray.Source.LiteralLength
import SlotArray.Text.Blank

/-! A source text cut into pieces: lexemes, comments and the blanks between them.

Nothing is thrown away here, so the pieces of a text, written one after another, are
the text again. Main statement: `flatMap_text_ofText`. -/
namespace SlotArray.Source
open SlotArray.Text

/-- The three kinds of brackets. -/
inductive Delimiter where
  | parenthesis
  | bracket
  | brace
deriving DecidableEq, Repr

/-- The character that opens a group. -/
def Delimiter.opening : Delimiter → Char
  | .parenthesis => '('
  | .bracket => '['
  | .brace => '\x7b'

/-- The character that closes a group. -/
def Delimiter.closing : Delimiter → Char
  | .parenthesis => ')'
  | .bracket => ']'
  | .brace => '\x7d'

/-- What a piece of source text is. -/
inductive PieceKind where
  /-- A blank or a comment that means nothing. -/
  | trivia
  /-- A comment that documents what follows it, or what it stands in. -/
  | document (inner : Bool)
  | literal
  | punctuation
  | word
  | opening (delimiter : Delimiter)
  | closing (delimiter : Delimiter)
deriving DecidableEq, Repr

/-- A piece of source text. -/
structure Piece where
  kind : PieceKind
  text : List Char
deriving DecidableEq, Repr

/-- Blanks between lexemes: white space and the two marks of writing direction. -/
def isSeparator (c : Char) : Bool :=
  isBlank c || c.toNat == 0x200E || c.toNat == 0x200F

/-- The characters of operators. A single quote begins a lifetime. -/
def isOperator (c : Char) : Bool :=
  "~!@#$%^&*-=+|;:,<.>/?'".toList.contains c

/-- The length of text up to the end of its line: the line feed is left out, a carriage
return before it is not. -/
def lineLength : List Char → Nat
  | [] => 0
  | '\n' :: _ => 0
  | _ :: rest => 1 + lineLength rest

/-- The length of a block comment after its opening, comments inside it included. -/
def blockLength (depth : Nat) : List Char → Option Nat
  | [] => none
  | '/' :: '*' :: rest => (blockLength (depth + 1) rest).map (· + 2)
  | '*' :: '/' :: rest =>
    match depth with
    | 0 => some 2
    | outer + 1 => (blockLength outer rest).map (· + 2)
  | _ :: rest => (blockLength depth rest).map (· + 1)

/-- A line comment documents something after exactly three slashes, or after `//!`. -/
def lineCommentKind : List Char → PieceKind
  | '/' :: '/' :: _ => .trivia
  | '/' :: _ => .document false
  | '!' :: _ => .document true
  | _ => .trivia

/-- A block comment documents something after exactly two stars, or after `/*!`. -/
def blockCommentKind : List Char → PieceKind
  | '*' :: '*' :: _ => .trivia
  | '*' :: '/' :: _ => .trivia
  | '*' :: _ => .document false
  | '!' :: _ => .document true
  | _ => .trivia

/-- What a documenting comment says: its marks are left out, and so is the carriage return
before a line feed. -/
def Piece.body (piece : Piece) : List Char :=
  match piece.text with
  | '/' :: '*' :: _ => (piece.text.drop 3).dropLast.dropLast
  | text =>
    let line := text.drop 3
    if line.getLast? = some '\r' then line.dropLast else line

/-- Whether a carriage return stands in a text without a line feed after it. -/
def hasLoneReturn : List Char → Bool
  | [] => false
  | '\r' :: '\n' :: rest => hasLoneReturn rest
  | '\r' :: _ => true
  | _ :: rest => hasLoneReturn rest

/-- The openings of literals that no plain word may look like. -/
def reservedOpenings : List (List Char) :=
  ["r\"", "r#\"", "r##", "b\"", "b'", "br\"", "br#", "c\"", "cr\"", "cr#"].map String.toList

/-- Words that stay words even after `r#`, and so may not follow it. -/
def neverRaw : List (List Char) :=
  ["_", "super", "self", "Self", "crate"].map String.toList

/-- The length of a word with the `r#` before it, if any. -/
def markedWordLength : List Char → Option Nat
  | 'r' :: '#' :: rest =>
    match wordLength rest with
    | some length => if neverRaw.contains (rest.take length) then none else some (2 + length)
    | none => none
  | text => wordLength text

/-- The length of a word that does not look like the beginning of a literal. -/
def plainWordLength (text : List Char) : Option Nat :=
  if reservedOpenings.any (List.isPrefixOf · text) then none else markedWordLength text

/-- Whether a text begins with a comment of any kind. -/
def startsComment : List Char → Bool
  | '/' :: '/' :: _ => true
  | '/' :: '*' :: _ => true
  | _ => false

/-- Whether a text begins with an operator character. -/
def startsOperator (text : List Char) : Bool :=
  match text with
  | c :: _ => isOperator c && !startsComment text
  | [] => false

/-- Whether the text after a single quote makes it a lifetime: a word that neither a
second quote nor a stray hash follows. -/
def startsLifetime (text : List Char) : Bool :=
  match markedWordLength text with
  | none => false
  | some length =>
    match text.drop length with
    | '\'' :: _ => false
    | '#' :: _ => List.isPrefixOf ['r', '#'] text
    | _ => true

/-- What stands for an error in printed text reads back as a literal. -/
def errorMark : List Char := "(/*ERROR*/)".toList

/-- The kind of the lexeme at the beginning of a text, and its length. -/
def lexeme? (text : List Char) : Option (PieceKind × Nat) :=
  match literalLength text with
  | some length => some (.literal, length)
  | none =>
    match text with
    | '\'' :: rest =>
      if startsLifetime rest then some (.punctuation, 1) else none
    | _ =>
      if startsOperator text then some (.punctuation, 1)
      else (plainWordLength text).map fun length => (.word, length)

/-- The kind of the comment after `//` or `/*`, and the length of the whole. A comment that
documents something may hold no carriage return without a line feed. -/
def comment? : List Char → Option (PieceKind × Nat)
  | '/' :: '/' :: rest =>
    let length := lineLength rest
    let kind := lineCommentKind rest
    if kind ≠ .trivia && hasLoneReturn (rest.take (length + 1)) then none
    else some (kind, 2 + length)
  | '/' :: '*' :: rest =>
    match blockLength 0 rest with
    | some length =>
      let kind := blockCommentKind rest
      if kind ≠ .trivia && hasLoneReturn (rest.take length) then none
      else some (kind, 2 + length)
    | none => none
  | _ => none

/-- The kind of the piece at the beginning of a text, and its length. -/
def piece? (text : List Char) : Option (PieceKind × Nat) :=
  match text with
  | [] => none
  | c :: rest =>
    if isSeparator c then some (.trivia, 1 + (rest.takeWhile isSeparator).length)
    else if startsComment text then comment? text
    else
      match c with
      | '(' =>
        if errorMark.isPrefixOf text then some (.literal, errorMark.length)
        else some (.opening .parenthesis, 1)
      | '[' => some (.opening .bracket, 1)
      | '\x7b' => some (.opening .brace, 1)
      | ')' => some (.closing .parenthesis, 1)
      | ']' => some (.closing .bracket, 1)
      | '\x7d' => some (.closing .brace, 1)
      | _ => lexeme? text

/-- The pieces of a text, or `none` when some of it is no lexeme. -/
def Piece.ofText (text : List Char) : Option (List Piece) :=
  go [] text
where
  /-- Cuts off one piece after another; `before` holds those cut off, the last one first. -/
  go (before : List Piece) (text : List Char) : Option (List Piece) :=
    if text.isEmpty then some before.reverse
    else
      match piece? text with
      | some (kind, length + 1) =>
        go (⟨kind, text.take (length + 1)⟩ :: before) (text.drop (length + 1))
      | _ => none
  termination_by text.length
  decreasing_by
    cases text with
    | nil => simp_all
    | cons c rest => simp only [List.drop_succ_cons, List.length_drop, List.length_cons]; omega

theorem Piece.flatMap_text_go {text : List Char} {before pieces : List Piece}
    (cut : Piece.ofText.go before text = some pieces) :
    pieces.flatMap Piece.text = before.reverse.flatMap Piece.text ++ text := by
  fun_induction Piece.ofText.go before text with
  | case1 before text ended =>
    cases cut
    simp_all
  | case2 before text filled kind length found ih =>
    rw [ih cut]
    simp [List.append_assoc]
  | case3 => cases cut

/-- The pieces of a text, written one after another, are the text. -/
theorem Piece.flatMap_text_ofText {text : List Char} {pieces : List Piece}
    (cut : Piece.ofText text = some pieces) : pieces.flatMap Piece.text = text := by
  simpa using Piece.flatMap_text_go cut

end SlotArray.Source
