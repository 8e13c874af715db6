import SlotArray.Source.Grammar.Function

/-! Members: what may stand in the braces of a trait, of an implementation and of a block of
foreign functions.

A member that says more than its place allows is read all the same, and kept as it stands in
the source. -/
namespace SlotArray.Source

/-- A constant, whether it has parameters or conditions of its own, and whether it has a
value. -/
structure ConstantPhrase where
  general : Bool
  hasValue : Bool
  trees : List TokenTree

/-- A declaration of a type, and whether it has bounds and says what the type is. -/
structure TypeDeclaration where
  bounded : Bool
  defined : Bool
  trees : List TokenTree

namespace Grammar
open Phrase

/-- The words that say how safe a function is where it is declared with its body. -/
def ownSafety : List String := ["unsafe"]

/-- The words that say how safe a foreign function is. -/
def foreignSafety : List String := ["unsafe", "safe"]

/-- A constant. -/
def constantDeclaration (g : Grammar) : Reading TokenTree ConstantPhrase := do
  let opening ← inOrder [word "const", (do if ← nextIs (word "_") then word "_" else name)]
  let general ← nextIs (mark "<")
  let middle ← inOrder [parameterTrees g, mark ":", g.typeTrees true]
  let value ← ifNext (mark "=") (inOrder [mark "=", g.exprTrees true])
  let conditions? ← whereClause g
  return {
    general := general || conditions?.isSome
    hasValue := !value.isEmpty
    trees := opening ++ middle ++ value ++ conditions?.getD [] ++ (← mark ";") }

/-- What stops the bounds in the declaration of a type. -/
def stopsTypeBounds : Ahead := fun trees =>
  starts (word "where") trees || starts (mark "=") trees || starts (mark ";") trees

/-- A declaration of a type. Its conditions may stand before what it is, if `before` says so, or
behind it, if `after` says so and none came before. -/
def typeDeclaration (g : Grammar) (before after : Bool) :
    Reading TokenTree TypeDeclaration := do
  let opening ← inOrder [word "type", name, parameterTrees g]
  let colon ← perhaps (mark ":")
  let bounds ← if colon.isEmpty then pure [] else sequence stopsTypeBounds "+" g.boundTrees
  let early? ← if before then whereClause g else pure none
  let meaning ← ifNext (mark "=") (inOrder [mark "=", g.typeTrees true])
  let late? ← if after && early?.isNone then whereClause g else pure none
  return {
    bounded := !colon.isEmpty
    defined := !meaning.isEmpty
    trees := opening ++ (if bounds.isEmpty then [] else colon ++ bounds) ++ early?.getD [] ++
      meaning ++ late?.getD [] ++ (← mark ";") }

/-- A macro call that stands for declarations. Without braces a semicolon follows it; `naming` is
what may stand between the call and its group. -/
def declaringCall (naming : Phrase) : Phrase := do
  let opening ← inOrder [plainPath, mark "!", naming]
  let body ← anyGroup
  match body with
  | [.group .brace _ _] => return opening ++ body
  | _ => return opening ++ body ++ (← mark ";")

/-- A member of a trait behind its attributes, and whether it is kept as it stands. -/
def traitMemberAfter (g : Grammar) : Reading TokenTree (Bool × List TokenTree) := do
  let seen ← inOrder [visibility, perhaps (word "default")]
  if ← ask (startsFunction ownSafety) then
    let opening ← signature g ownSafety
    let body ← if ← nextIs (groupOf .brace) then attributedBlock g else mark ";"
    return (!seen.isEmpty, opening ++ body)
  else if ← nextIs (word "const") then
    let constant ← constantDeclaration g
    return (!seen.isEmpty || constant.general, constant.trees)
  else if ← nextIs (word "type") then
    return (!seen.isEmpty, (← typeDeclaration g false true).trees)
  else if seen.isEmpty then return (false, ← declaringCall (pure []))
  else failure

/-- A member of an implementation behind its attributes, and whether it is kept as it stands. A
function without a body is. -/
def implMemberAfter (g : Grammar) : Reading TokenTree (Bool × List TokenTree) := do
  let isCall := word "default" *> mark "!"
  let seen ← inOrder [visibility,
    (do if ← nextIs isCall then return [] else perhaps (word "default"))]
  if ← ask (startsFunction ownSafety) then
    let opening ← signature g ownSafety
    if ← nextIs (mark ";") then return (true, ← mark ";")
    else return (false, seen ++ opening ++ (← attributedBlock g))
  else if ← nextIs (word "const") then
    let constant ← constantDeclaration g
    return (constant.general || !constant.hasValue, seen ++ constant.trees)
  else if ← nextIs (word "type") then
    let type ← typeDeclaration g false true
    return (type.bounded || !type.defined, seen ++ type.trees)
  else if seen.isEmpty then return (false, ← declaringCall (pure []))
  else failure

/-- A foreign variable behind `static`, and whether it has a value. -/
def foreignVariable (g : Grammar) : Reading TokenTree (Bool × List TokenTree) := do
  let opening ← inOrder [word "static", perhaps (word "mut"), name, mark ":", g.typeTrees true]
  let value ← ifNext (mark "=") (inOrder [mark "=", g.exprTrees true])
  return (!value.isEmpty, opening ++ value ++ (← mark ";"))

/-- A foreign function, variable or type behind its attributes, and whether it is kept as it
stands. One that is said to be safe is, and a function with a body. -/
def foreignMemberAfter (g : Grammar) : Reading TokenTree (Bool × List TokenTree) := do
  let seen ← visibility
  if ← ask (startsFunction foreignSafety) then
    let safe ← nextIs (functionModes [] *> word "safe")
    let opening ← signature g foreignSafety
    if ← nextIs (groupOf .brace) then return (true, ← attributedBlock g)
    else return (safe, seen ++ opening ++ (← mark ";"))
  else if ← nextIs (perhaps (oneWordOf foreignSafety) *> word "static") then
    let safety ← perhaps (oneWordOf foreignSafety)
    let (valued, place) ← foreignVariable g
    return (valued || !safety.isEmpty, seen ++ place)
  else if ← nextIs (word "type") then
    let type ← typeDeclaration g true true
    return (type.bounded || type.defined, seen ++ type.trees)
  else if seen.isEmpty then return (false, ← declaringCall (pure []))
  else failure

/-- Members with their attributes, to the end of a group. -/
def members (g : Grammar) (after : Reading TokenTree (Bool × List TokenTree)) : Phrase :=
  whileNext skip do
    let start ← Reading.peek
    let attributes ← attributeTrees g
    let (kept, trees) ← after
    keptSince start kept (attributes ++ trees)

/-- Members in braces, behind the attributes that stand at the beginning there. -/
def membersInBraces (g : Grammar) (after : Reading TokenTree (Bool × List TokenTree)) : Phrase :=
  enclosed .brace (inOrder [innerAttributes g, members g after])

end Grammar
end SlotArray.Source
