import SlotArray.Source.Token

/-! Token trees: tokens with their brackets matched.

A text has leaves and groups in brackets. Trees that a macro passes on may also be in invisible
groups: what the macro was given for one of its parameters stands in such a group, which keeps its
parts together and has no brackets of its own. -/
namespace SlotArray.Source

/-- A leaf, or a group with all that stands in it. -/
inductive TokenTree where
  | leaf (leaf : Leaf) (span : Span)
  | group (delimiter : Delimiter) (content : List TokenTree) (span : Span)
  /-- A group without brackets. -/
  | invisible (content : List TokenTree) (span : Span)
deriving Repr

namespace TokenTree

/-- Where a tree stands; a group stands from its opening to its closing bracket. -/
def span : TokenTree → Span
  | .leaf _ span => span
  | .group _ _ span => span
  | .invisible _ span => span

mutual
/-- The tokens of a tree. An invisible group has those that stand in it. -/
def tokens : TokenTree → List Token
  | .leaf inner _ => [.leaf inner]
  | .group delimiter content _ => .opening delimiter :: (flatten content ++ [.closing delimiter])
  | .invisible content _ => Token.ended (flatten content)

/-- The tokens of trees that stand one after another. -/
def flatten : List TokenTree → List Token
  | [] => []
  | tree :: rest => tree.tokens ++ flatten rest
end

mutual
/-- The number of tokens in a tree, with one for each group. -/
def weight : TokenTree → Nat
  | .leaf _ _ => 1
  | .group _ content _ => 1 + totalWeight content
  | .invisible content _ => 1 + totalWeight content

/-- The number of tokens in trees. -/
def totalWeight : List TokenTree → Nat
  | [] => 0
  | tree :: rest => weight tree + totalWeight rest
end

/-! ### Invisible groups

A reader enters an invisible group as it comes to it, unless it asks for one. -/

mutual
/-- The number of steps past a tree, one of them into it if it is an invisible group. -/
def steps : TokenTree → Nat
  | .invisible content _ => 1 + totalSteps content
  | _ => 1

/-- The number of steps past trees. -/
def totalSteps : List TokenTree → Nat
  | [] => 0
  | tree :: rest => steps tree + totalSteps rest
end

mutual
/-- What a reader sees that comes to a tree with others behind it; `behind` is what it sees of those alone. -/
def enter : TokenTree → List TokenTree → (Unit → List TokenTree) → List TokenTree
  | .invisible content _, rest, behind => enterAll content rest behind
  | tree, rest, _ => tree :: rest

/-- What a reader sees that comes to the content of a group. -/
def enterAll : List TokenTree → List TokenTree → (Unit → List TokenTree) → List TokenTree
  | [], _, behind => behind ()
  | tree :: others, rest, behind => enter tree (others ++ rest) fun _ => enterAll others rest behind
end

/-- Trees as a reader sees them: the first of them is no invisible group. -/
def seen : List TokenTree → List TokenTree
  | .invisible content _ :: rest => enterAll content rest fun _ => seen rest
  | trees => trees

mutual
/-- The beginning of a tree as long as some steps that do not lead past it. -/
def beginning : TokenTree → Nat → List TokenTree
  | .invisible content _, n + 1 => upTo content n
  | _, _ => []

/-- The beginning of trees as long as some steps. A group that the steps lead into, but not out of, is
left open. -/
def upTo : List TokenTree → Nat → List TokenTree
  | [], _ => []
  | tree :: rest, n =>
    if steps tree ≤ n then tree :: upTo rest (n - steps tree) else beginning tree n
end

/-- Trees as text. -/
def write (trees : List TokenTree) : String :=
  String.ofList (Token.write (flatten trees))

/-- The span of trees that stand one after another, the whole invocation's when there is
none. -/
def spanOf (trees : List TokenTree) : Span :=
  match trees.head?, trees.getLast? with
  | some first, some last => first.span.through last.span
  | _, _ => .callSite

/-- A group whose closing bracket is still to come: its bracket, the place of that, and the
trees before the group, the last one first. -/
structure Open where
  delimiter : Delimiter
  span : Span
  before : List TokenTree

/-- Matches brackets. `stack` holds the groups that are open, the innermost first, and
`before` the trees read in the innermost, the last one first. -/
def build (stack : List Open) (before : List TokenTree) :
    List (Token × Span) → Option (List TokenTree)
  | [] =>
    match stack with
    | [] => some before.reverse
    | _ :: _ => none
  | (.leaf inner, span) :: rest => build stack (.leaf inner span :: before) rest
  | (.opening delimiter, span) :: rest => build (⟨delimiter, span, before⟩ :: stack) [] rest
  | (.closing delimiter, span) :: rest =>
    match stack with
    | [] => none
    | inner :: outer =>
      if inner.delimiter = delimiter then
        build outer
          (.group delimiter before.reverse (inner.span.through span) :: inner.before) rest
      else none

/-- A byte order mark. It may stand before a text and counts as one column. -/
def byteOrderMark : Char := '\ufeff'

/-- The trees of a text, or `none` when it has something that is no lexeme, or brackets that
do not match. -/
def ofText? (text : String) : Option (List TokenTree) :=
  let chars := text.toList
  let marked := chars.head? = some byteOrderMark
  let start : Position := if marked then ⟨1, 1⟩ else .start
  match Piece.ofText (if marked then chars.tail else chars) with
  | some pieces => build [] [] (Token.placed start pieces)
  | none => none

end TokenTree
end SlotArray.Source
