import SlotArray.Source.Grammar.Operand
import SlotArray.Source.Grammar.Struct

/-! Functions: what stands in front of the body of one.

The value that a function is called on can only be its first parameter, and three dots, which
stand for any further arguments, only its last. -/
namespace SlotArray.Source

/-- What a parameter of a function takes. -/
inductive Taking where
  /-- The value that the function is called on. -/
  | receiver
  | value
  /-- Any number of further arguments. -/
  | further
deriving DecidableEq, Repr

namespace Grammar
open Phrase

/-- A where clause as it is written. -/
def whereTrees (g : Grammar) : Phrase := do
  return (← whereClause g).getD []

/-- The parameters of a declaration as they are written. -/
def parameterTrees (g : Grammar) : Phrase := Prod.snd <$> parameters g

/-- The value that a function is called on. -/
def receiver (g : Grammar) : Phrase := do
  if ← nextIs (mark "&") then
    inOrder [mark "&", perhaps lifetime, perhaps (word "mut"), word "self"]
  else
    inOrder [perhaps (word "mut"), word "self",
      ifNext (mark ":") (inOrder [mark ":", g.typeTrees true])]

/-- The pattern and the colon of a parameter that has only a type. -/
def anonymous : List TokenTree :=
  [.leaf (.word "_") .callSite, .leaf (.mark ':' false) .callSite]

/-- A parameter of a function. A type with arguments may stand alone. -/
def functionParameter (g : Grammar) : Reading TokenTree (Taking × List TokenTree) := do
  let opening ← attributeTrees g
  if ← nextIs (mark "...") then return (.further, opening ++ (← mark "..."))
  else if ← nextIs (receiver g) then return (.receiver, opening ++ (← receiver g))
  else if ← nextIs (name *> mark "<") then
    return (.value, opening ++ anonymous ++ (← g.typeTrees true))
  else
    let pattern ← g.pattern
    let named := opening ++ pattern.trees ++ (← mark ":")
    if ← nextIs (mark "...") then return (.further, named ++ (← mark "..."))
    else return (.value, named ++ (← g.typeTrees true))

/-- The parameters of a function. -/
def functionParameters (g : Grammar) : Phrase := do
  let items ← itemsToEnd (functionParameter g)
  let takings := items.map fun item => item.1.1
  if takings.tail.contains .receiver || takings.dropLast.contains .further then failure
  return flat (items.map fun item => (item.1.2, item.2))

/-- The words that may stand in front of `fn`; `safety` are those that say how safe the function
is. -/
def functionModes (safety : List String) : Phrase :=
  inOrder [perhaps (word "const"), perhaps (word "async"), perhaps (oneWordOf safety), convention]

/-- Whether a function is ahead. -/
def startsFunction (safety : List String) : Ahead := starts (functionModes safety *> word "fn")

/-- A function without its body. -/
def signature (g : Grammar) (safety : List String) : Phrase :=
  inOrder [functionModes safety, word "fn", name, parameterTrees g,
    enclosed .parenthesis (functionParameters g), answerType g true, whereTrees g]

end Grammar
end SlotArray.Source
