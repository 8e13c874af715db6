import SlotArray.Source.Grammar.Path

/-! Operators between operands, and how tightly they bind. -/
namespace SlotArray.Source
open Phrase

/-- How tightly an operator binds, the loosest first. -/
inductive Precedence where
  | any
  | assignment
  | range
  | disjunction
  | conjunction
  | comparison
  | bitOr
  | bitXor
  | bitAnd
  | shift
  | sum
  | product
  | cast
deriving DecidableEq, Repr

/-- The place of a precedence among all. -/
def Precedence.rank : Precedence → Nat
  | .any => 0
  | .assignment => 1
  | .range => 2
  | .disjunction => 3
  | .conjunction => 4
  | .comparison => 5
  | .bitOr => 6
  | .bitXor => 7
  | .bitAnd => 8
  | .shift => 9
  | .sum => 10
  | .product => 11
  | .cast => 12

/-- The lowest rank of what may stand to the right of an operator: assignments group to the
right, all others to the left. -/
def Precedence.rightRank (precedence : Precedence) : Nat :=
  if precedence = .assignment then precedence.rank else precedence.rank + 1

/-- The operators between two operands. Those that another begins with come after it. -/
def binaryOperators : List (String × Precedence) :=
  [("+=", .assignment), ("-=", .assignment), ("*=", .assignment), ("/=", .assignment),
    ("%=", .assignment), ("^=", .assignment), ("&=", .assignment), ("|=", .assignment),
    ("<<=", .assignment), (">>=", .assignment), ("&&", .conjunction), ("||", .disjunction),
    ("<<", .shift), (">>", .shift), ("==", .comparison), ("<=", .comparison),
    ("!=", .comparison), (">=", .comparison), ("+", .sum), ("-", .sum), ("*", .product),
    ("/", .product), ("%", .product), ("^", .bitXor), ("&", .bitAnd), ("|", .bitOr),
    ("<", .comparison), (">", .comparison)]

/-- What may go on behind an operand. -/
inductive Operation where
  | binary (text : String) (precedence : Precedence)
  | range
  | cast

def Operation.precedence : Operation → Precedence
  | .binary _ precedence => precedence
  | .range => .range
  | .cast => .cast

/-- The operation that is ahead. -/
def operationAhead (trees : List TokenTree) : Option Operation :=
  match binaryOperators.find? fun operator => starts (mark operator.1) trees with
  | some (text, precedence) => some (.binary text precedence)
  | none =>
    if starts (mark "=") trees && !starts (mark "=>") trees then some (.binary "=" .assignment)
    else if starts (mark "..") trees then some .range
    else if starts (word "as") trees then some .cast
    else none

namespace Grammar

/-- The dots of a range. -/
def rangeDots : Phrase := do
  if ← nextIs (mark "..=") then mark "..="
  else if ← nextIs (mark "...") then failure
  else mark ".."

/-- Whether a range ends without an upper bound. -/
def endsOpenRange (structs : Bool) : Ahead := fun trees =>
  trees.isEmpty || (starts (mark ".") trees && !starts (mark "..") trees) ||
    (!structs && starts (groupOf .brace) trees) || starts (word "as") trees ||
    [",", ";", "?", "=>", "=", "+", "/", "%", "^", ">", "<=", "!=", "-=", "*=", "&=", "|=",
      "<<="].any fun text => starts (mark text) trees

/-- Whether something is ahead that may not follow a cast without parentheses. -/
def startsTrailer : Ahead := fun trees =>
  (starts (mark ".") trees && !starts (mark "..") trees) || starts (mark "?") trees ||
    starts (groupOf .bracket) trees || starts (groupOf .parenthesis) trees

/-- The operations behind an operand, as far as their rank is at least `base`. Comparisons do
not chain, and behind a range no operation goes on. `fuel` bounds the number of operations. -/
def climb (g : Grammar) (structs : Bool) : Nat → Nat → Expr → Reading TokenTree Expr
  | 0, _, _ => failure
  | fuel + 1, base, left => do
    match operationAhead (← Reading.peek) with
    | none => return left
    | some operation =>
      if left.form = .range || operation.precedence.rank < base then return left
      match operation with
      | .binary text precedence =>
        if precedence = .comparison && left.form = .comparison then failure
        let sign ← mark text
        let operand ← g.operand structs
        let right ← climb g structs fuel precedence.rightRank operand
        let form := if precedence = .comparison then Form.comparison else .other
        climb g structs fuel base (.compound form (left.trees ++ sign ++ right.trees))
      | .range =>
        let dots ← rangeDots
        if dots.length = 2 && (← ask (endsOpenRange structs)) then
          climb g structs fuel base (.compound .range (left.trees ++ dots))
        else
          let operand ← g.operand structs
          let upper ← climb g structs fuel Precedence.range.rightRank operand
          climb g structs fuel base (.compound .range (left.trees ++ dots ++ upper.trees))
      | .cast =>
        let keyword ← word "as"
        let type ← if ← ask startsInvisible then groupedType g false else g.type false
        if ← ask startsTrailer then failure
        climb g structs fuel base (.compound .other (left.trees ++ keyword ++ type.trees))

/-- The operations behind an operand from a precedence on. -/
def operations (g : Grammar) (structs : Bool) (base : Precedence) (left : Expr) :
    Reading TokenTree Expr :=
  -- Every operation takes a step at least.
  fun trees => climb g structs (TokenTree.totalSteps trees + 1) base.rank left trees

/-- A range without a lower bound. -/
def rangeFromStart (g : Grammar) (structs : Bool) : Reading TokenTree Expr := do
  let dots ← rangeDots
  if dots.length = 2 && (← ask (endsOpenRange structs)) then return .compound .range dots
  else
    let upper ← operations g structs .disjunction (← g.operand structs)
    return .compound .range (dots ++ upper.trees)

/-- An expression: an operand and the operations behind it. -/
def anyExpr (g : Grammar) (structs : Bool) : Reading TokenTree Expr := do
  operations g structs .any (← g.operand structs)

end Grammar
end SlotArray.Source
