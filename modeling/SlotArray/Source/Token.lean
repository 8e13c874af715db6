import SlotArray.Source.Piece
import SlotArray.Source.Span
import SlotArray.Text.Printable

/-! Tokens: the pieces of a source text that mean something, with their places.

A documenting comment becomes the attribute it stands for. Written tokens have one
space between them, except where two characters belong to one operator and just
inside parentheses and brackets. -/
namespace SlotArray.Source

/-- A token that is no bracket. -/
inductive Leaf where
  | word (text : String)
  | literal (text : String)
  /-- One character of an operator, and whether the next one belongs to it. -/
  | mark (char : Char) (joint : Bool)
deriving DecidableEq, Repr

inductive Token where
  | leaf (leaf : Leaf)
  | opening (delimiter : Delimiter)
  | closing (delimiter : Delimiter)
deriving DecidableEq, Repr

/-- How a leaf is written. -/
def Leaf.text : Leaf → List Char
  | .word text => text.toList
  | .literal text => text.toList
  | .mark char _ => [char]

/-- How a token is written. -/
def Token.text : Token → List Char
  | .leaf inner => inner.text
  | .opening delimiter => [delimiter.opening]
  | .closing delimiter => [delimiter.closing]

/-- What stands between two tokens. Braces keep a distance from what they hold. -/
def Token.gap : Token → Token → List Char
  | .opening .brace, _ => [' ']
  | _, .closing .brace => [' ']
  | .opening _, _ => []
  | _, .closing _ => []
  | .leaf (.mark _ true), _ => []
  | _, _ => [' ']

/-- Tokens at the end of a group that is not written: the last one has nothing to be joined to. -/
def Token.ended : List Token → List Token
  | [] => []
  | [.leaf (.mark char _)] => [.leaf (.mark char false)]
  | token :: rest => token :: ended rest

/-- Tokens as text. -/
def Token.write : List Token → List Char
  | [] => []
  | first :: rest =>
    first.text ++ ((first :: rest).zip rest).flatMap fun pair => pair.1.gap pair.2 ++ pair.2.text

/-- The digits of a code point in hexadecimal. -/
def hexDigits (value : Nat) : List Char :=
  (Nat.toDigits 16 value)

/-- One character of quoted text: control characters, quotes and characters without a
form of their own are escaped. `next` is the character after it. -/
def quoteChar (c : Char) (next : Option Char) : List Char :=
  match c with
  | '\x00' =>
    if next.any fun d => '0' ≤ d && d ≤ '7' then ['\\', 'x', '0', '0'] else ['\\', '0']
  | '\t' => ['\\', 't']
  | '\r' => ['\\', 'r']
  | '\n' => ['\\', 'n']
  | '"' => ['\\', '"']
  | '\\' => ['\\', '\\']
  | c =>
    if Text.isPlain c then [c] else ['\\', 'u', '\x7b'] ++ hexDigits c.toNat ++ ['\x7d']

/-- A text as a string literal. -/
def quote (text : List Char) : List Char :=
  ['"'] ++ body text ++ ['"']
where
  /-- What stands between the quotes. -/
  body : List Char → List Char
    | [] => []
    | c :: rest => quoteChar c rest.head? ++ body rest

/-- The attribute that a documenting comment stands for. -/
def documentTokens (inner : Bool) (body : List Char) : List Token :=
  [.leaf (.mark '#' false)] ++ (if inner then [.leaf (.mark '!' false)] else []) ++
    [.opening .bracket, .leaf (.word "doc"), .leaf (.mark '=' false),
      .leaf (.literal (String.ofList (quote body))), .closing .bracket]

/-- The tokens of one piece. `next` is the text of the piece after it: an operator character
right behind another one joins it, and a lifetime joins its quote. -/
def Piece.tokens (piece : Piece) (next : List Char) : List Token :=
  match piece.kind with
  | .trivia => []
  | .document inner => documentTokens inner piece.body
  | .literal => [.leaf (.literal (String.ofList piece.text))]
  | .word => [.leaf (.word (String.ofList piece.text))]
  | .punctuation =>
    match piece.text with
    | '\'' :: _ => [.leaf (.mark '\'' true)]
    | c :: _ => [.leaf (.mark c (startsOperator next))]
    | [] => []
  | .opening delimiter => [.opening delimiter]
  | .closing delimiter => [.closing delimiter]

/-- The tokens of pieces, without their places. -/
def Token.ofPieces : List Piece → List Token
  | [] => []
  | [piece] => piece.tokens []
  | piece :: next :: rest => piece.tokens next.text ++ Token.ofPieces (next :: rest)

/-- The tokens of pieces that begin at a given place. -/
def Token.placed (start : Position) (pieces : List Piece) : List (Token × Span) :=
  go start [] pieces
where
  /-- `before` holds the tokens read so far, the last one first. -/
  go (start : Position) (before : List (Token × Span)) : List Piece → List (Token × Span)
    | [] => before.reverse
    | piece :: rest =>
      let stop := start.advance piece.text
      let next := (rest.head?.map Piece.text).getD []
      go stop ((piece.tokens next).foldl (fun read token => (token, ⟨start, stop⟩) :: read) before)
        rest

end SlotArray.Source
