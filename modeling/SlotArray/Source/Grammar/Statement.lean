import SlotArray.Source.Grammar.Declaration

/-! Statements. -/
namespace SlotArray.Source.Grammar
open Phrase

/-- A statement that names the parts of a value. -/
def letStatement (g : Grammar) : Phrase := do
  let opening ← inOrder [word "let", PatternPhrase.trees <$> g.pattern,
    ifNext (mark ":") (inOrder [mark ":", g.typeTrees true])]
  if ← nextIs (mark "=") then
    let equals ← mark "="
    let value ← g.expr true
    let otherwise ←
      if value.endsInBraces then pure []
      else ifNext (word "else") (inOrder [word "else", g.block])
    return opening ++ equals ++ value.trees ++ otherwise ++ (← mark ";")
  else return opening ++ (← mark ";")

/-- A macro call with braces that is a statement of its own: no field, method or question mark
follows. -/
def bracedMacro : Phrase := do
  let path ← plainPath
  let (delimiter, call) ← macroCall
  if delimiter ≠ .brace then failure
  if ((← nextIs (mark ".")) && !(← nextIs (mark ".."))) || (← nextIs (mark "?")) then failure
  return path ++ call

/-- A macro call that declares something under a name. -/
def namingCall : Phrase :=
  declaringCall (do if ← nextIs (word "try") then word "try" else name)

/-- A statement behind given attributes, which began where `start` says, and whether something
has to separate it from the next one. -/
def statementAfter (g : Grammar) (start attributes : List TokenTree) :
    Reading TokenTree (Bool × List TokenTree) := do
  if ← nextIs bracedMacro then
    return (false, attributes ++ (← inOrder [bracedMacro, perhaps (mark ";")]))
  else if ← nextIs (outside (word "let")) then return (false, attributes ++ (← letStatement g))
  else if ← nextIs namingCall then return (false, attributes ++ (← namingCall))
  else if ← ask startsDeclaration then return (false, ← declarationBehind g start attributes)
  else
    let expr ← leadingExpr g
    let trees := (expr.behind attributes).trees
    if ← nextIs (mark ";") then return (false, trees ++ (← mark ";"))
    else return (expr.form ≠ .block && expr.form ≠ .bracedCall, trees)

/-- The statements of a block. -/
def anyStatements (g : Grammar) : Phrase := fun trees => go (TokenTree.totalSteps trees + 1) trees
where
  /-- `fuel` is one more than the number of steps ahead, so it lasts when each statement takes one. -/
  go : Nat → Phrase
    | 0 => failure
    | fuel + 1 => do
      let semicolons ← whileNext (mark ";") (mark ";")
      if ← ask List.isEmpty then return semicolons
      let start ← Reading.peek
      let attributes ← attributeTrees g
      let (separate, first) ← statementAfter g start attributes
      if separate && !(← ask List.isEmpty) then failure
      return semicolons ++ first ++ (← go fuel)

end SlotArray.Source.Grammar
