import SlotArray.Source.Grammar.Generics

/-! Types. -/
namespace SlotArray.Source.Grammar
open Phrase

/-- A text literal. -/
def textLiteral : Phrase := leafThat fun
  | .literal text =>
    match text.toList with
    | '"' :: _ => true
    | 'r' :: _ => true
    | _ => false
  | _ => false

/-- A phrase as a type of no particular form. -/
def otherType (phrase : Phrase) : Reading TokenTree TypePhrase := do
  return .plain (← phrase)

/-- Whether a bound may be one of a trait object. -/
def boundsObject (bound : BoundPhrase) : Bool := bound.kind = .trait || bound.kind = .lifetime

/-- Further bounds of a trait object behind plus signs; each plus sign needs one. -/
def furtherBounds (g : Grammar) : Phrase :=
  whileNext (mark "+") do
    let plus ← mark "+"
    let bound ← g.bound
    if boundsObject bound then return plus ++ bound.trees else failure

/-- Bounds of a trait object, one of which has to be a trait. -/
def objectBounds (g : Grammar) (sums : Bool) : Phrase := do
  let (found, trees) ← bounds g sums
  if found.all boundsObject && found.any fun bound => bound.kind = .trait then return trees
  else failure

/-- Bounds of a type that is not named, one of which has to be a trait. -/
def hiddenBounds (g : Grammar) (sums : Bool) : Phrase := do
  let (found, trees) ← bounds g sums
  if found.any fun bound => bound.kind = .trait || bound.kind = .constantTrait then return trees
  else failure

/-- What stands in the parentheses of a type. -/
inductive Parenthesized where
  /-- Something complete: a tuple, or a trait object in parentheses. -/
  | complete
  /-- A bound that is only permitted, with a question mark. Others may follow it. -/
  | permitted
  /-- A single type of some form. -/
  | single (form : TypeForm)

/-- What stands in the parentheses of a type, and its trees. -/
def parenthesizedContent (g : Grammar) : Reading TokenTree (Parenthesized × List TokenTree) := do
  if ← ask List.isEmpty then return (.complete, [])
  else if ← nextIs lifetime then return (.complete, ← objectBounds g true)
  else if ← nextIs (mark "?") then
    let bound ← g.bound
    if boundsObject bound then return (.permitted, bound.trees) else failure
  else
    let first ← g.type true
    if ← nextIs (mark ",") then
      let comma ← mark ","
      return (.complete, first.trees ++ comma ++ (← list (g.typeTrees true)))
    else return (.single first.form, first.trees)

/-- A type in parentheses. If it is a bound, others may follow. -/
def parenthesizedType (g : Grammar) (sums : Bool) : Reading TokenTree TypePhrase := do
  let ((content, inner), span) ← inside .parenthesis (parenthesizedContent g)
  let group := [.group .parenthesis inner span]
  match content with
  | .complete => return .plain group
  | .permitted =>
    let others ← furtherBounds g
    return .ofBound (if others.isEmpty then .bound else .other) (group ++ others)
  | .single form =>
    if sums && (← nextIs (mark "+")) && form ≠ .other then
      return .plain (group ++ (← furtherBounds g))
    else return .plain group

/-- The calling convention of a function. -/
def convention : Phrase := ifNext (word "extern") (inOrder [word "extern", perhaps textLiteral])

/-- The name of an argument of a function type, with its colon. -/
def argumentName : Phrase := do
  let colon := (← secondIs (mark ":")) && !(← secondIs (mark "::"))
  let named := (← nextIs name) || (← nextIs (oneWordOf ["_", "self"]))
  if colon && named then inOrder [anyWord, mark ":"] else return []

/-- An argument of a function type. Three dots stand for any number of them. -/
def functionArgument (g : Grammar) : Phrase := do
  let opening ← inOrder [attributeTrees g, argumentName]
  if ← nextIs (mark "...") then return opening ++ (← mark "...")
  else return opening ++ (← g.typeTrees true)

/-- A function type, what it holds for left out. -/
def functionType (g : Grammar) : Phrase :=
  inOrder [perhaps (word "unsafe"), convention, word "fn",
    enclosed .parenthesis (list (functionArgument g)), answerType g false]

/-- Whether a path is ahead. -/
def startsPath : Ahead := fun trees =>
  starts name trees || starts (oneWordOf pathWords) trees || starts (mark "::") trees ||
    starts (mark "<") trees

/-- A type that begins with a path: the path itself, a macro call, or bounds. `binder` holds
the lifetimes it holds for. -/
def pathType (g : Grammar) (sums : Bool) (binder : List TokenTree) :
    Reading TokenTree TypePhrase := do
  let path ← withFunctionArguments g (qualifiedPath g false)
  if path.qualified then return .ofPath path
  else if (← ask startsMacroCall) && path.isPlain then
    return .plain (path.trees ++ (← macroCall).2)
  else if sums && (← nextIs (mark "+")) then
    let plus ← mark "+"
    let (found, others) ← boundSum g
    if !found.all boundsObject then failure
    return .plain (binder ++ path.trees ++ plus ++ others)
  else if binder.isEmpty then return .ofPath path
  else return .ofBound .bound (binder ++ path.trees)

/-- A trait object with its keyword. One with a star is kept as it stands. -/
def dynamicType (g : Grammar) (sums : Bool) : Phrase := do
  let start ← Reading.peek
  let word ← word "dyn"
  let star ← perhaps (mark "*")
  let bounds ← objectBounds g sums
  if star.isEmpty then return word ++ bounds else since start

/-- An array or slice type. -/
def elementsType (g : Grammar) : Phrase :=
  enclosed .bracket (inOrder [g.typeTrees true,
    ifNext (mark ";") (inOrder [mark ";", g.exprTrees true])])

/-- A reference type. -/
def referenceType (g : Grammar) : Phrase :=
  inOrder [mark "&", perhaps lifetime, perhaps (word "mut"), g.typeTrees false]

/-- A pointer type. -/
def pointerType (g : Grammar) : Phrase :=
  inOrder [mark "*", oneWordOf ["const", "mut"], g.typeTrees false]

/-- A type that is not in an invisible group as a whole. -/
def ungroupedType (g : Grammar) (sums : Bool) : Reading TokenTree TypePhrase := do
  let binder ← ifNext (word "for") (binder g)
  let startsFunction := oneWordOf ["fn", "unsafe", "extern"]
  if ← nextIs startsFunction then
    return .plain (binder ++ (← functionType g))
  else if !binder.isEmpty then
    if (← nextIs name) || (← nextIs (oneWordOf pathWords)) then pathType g sums binder
    else failure
  else if ← nextIs (groupOf .parenthesis) then parenthesizedType g sums
  else if ← ask startsPath then pathType g sums []
  else if ← nextIs (word "dyn") then otherType (dynamicType g sums)
  else if ← nextIs (groupOf .bracket) then otherType (elementsType g)
  else if ← nextIs (mark "*") then otherType (pointerType g)
  else if ← nextIs (mark "&") then otherType (referenceType g)
  else if ← nextIs (mark "!") then otherType (mark "!")
  else if ← nextIs (word "impl") then otherType (inOrder [word "impl", hiddenBounds g sums])
  else if ← nextIs (word "_") then otherType (word "_")
  else if ← nextIs lifetime then otherType (objectBounds g true)
  else failure

/-- A type. -/
def anyType (g : Grammar) (sums : Bool) : Reading TokenTree TypePhrase := do
  if ← ask startsInvisible then groupedType g true else ungroupedType g sums

end SlotArray.Source.Grammar
