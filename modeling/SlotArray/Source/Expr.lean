import SlotArray.Source.PathPhrase

/-! Expressions, told apart only as far as arguments and statements have to. -/
namespace SlotArray.Source

/-- What kind of expression something is that is told apart by nothing else. -/
inductive Form where
  | range
  | comparison
  /-- Ends with its own braces, like a loop, so that nothing has to follow it. -/
  | block
  /-- A macro called with braces. -/
  | bracedCall
  /-- Kept as it stands in the source. -/
  | asWritten
  | other
deriving DecidableEq, Repr

/-- An expression together with the trees it is written with. -/
inductive Expr where
  | literal (text : String) (trees : List TokenTree)
  /-- A literal directly behind a minus sign. -/
  | negative (text : String) (trees : List TokenTree)
  | parenthesized (inner : Expr) (trees : List TokenTree)
  | tuple (items : List Expr) (trees : List TokenTree)
  /-- A path with no attributes in front of it. -/
  | path (taken : PathPhrase)
  /-- An expression in an invisible group. -/
  | grouped (inner : Expr) (trees : List TokenTree)
  | compound (form : Form) (trees : List TokenTree)
deriving Repr

namespace Expr

/-- The trees of an expression. -/
def trees : Expr → List TokenTree
  | .literal _ trees => trees
  | .negative _ trees => trees
  | .parenthesized _ trees => trees
  | .tuple _ trees => trees
  | .path taken => taken.trees
  | .grouped _ trees => trees
  | .compound _ trees => trees

/-- The expression with other trees in place of its own. -/
def withTrees (trees : List TokenTree) : Expr → Expr
  | .literal text _ => .literal text trees
  | .negative text _ => .negative text trees
  | .parenthesized inner _ => .parenthesized inner trees
  | .tuple items _ => .tuple items trees
  | .path _ => .compound .other trees
  | .grouped inner _ => .grouped inner trees
  | .compound form _ => .compound form trees

/-- The form of an expression. -/
def form : Expr → Form
  | .compound form _ => form
  | _ => .other

/-- An expression without the invisible groups around it. -/
def ungrouped : Expr → Expr
  | .grouped inner _ => inner.ungrouped
  | expr => expr

/-- An expression behind attributes. One that is kept as it stands takes none. -/
def behind (attributes : List TokenTree) (expr : Expr) : Expr :=
  if expr.form = .asWritten || attributes.isEmpty then expr
  else expr.withTrees (attributes ++ expr.trees)

/-- The place of an expression. -/
def span (expr : Expr) : Span := TokenTree.spanOf expr.trees

/-- Whether the last thing in an expression is a group in braces. -/
def endsInBraces (expr : Expr) : Bool :=
  match expr.trees.getLast? with
  | some (.group .brace _ _) => true
  | _ => false

end Expr
end SlotArray.Source
