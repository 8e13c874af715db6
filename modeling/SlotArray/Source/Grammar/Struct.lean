import SlotArray.Source.Grammar.Type

/-! Declarations of structs. -/
namespace SlotArray.Source

/-- A declaration of a struct. -/
structure StructItem where
  attributes : List Attribute
  /-- How far the struct can be seen; nothing for a private one. -/
  visibility : List TokenTree
  name : String
  nameSpan : Span
  /-- The parameters in the order of the source. -/
  parameters : List Parameter
  /-- The bounds behind `where`, if there is such a clause. It may be empty. -/
  whereClause? : Option (List TokenTree)
  /-- The group of the fields; nothing for a struct without one. -/
  fieldGroup : List TokenTree
  hasFields : Bool
  trees : List TokenTree

namespace Grammar
open Phrase

/-- Takes a group in parentheses if its content begins as asked. -/
def parenthesesWith {α : Type} (beginning : Reading TokenTree α) : Phrase := inSight fun
  | .group .parenthesis content span :: rest =>
    if starts beginning content then some ([.group .parenthesis content span], rest) else none
  | _ => none

/-- The limits behind `pub`. Parentheses that hold something else are not part of it. -/
def restriction : Phrase := do
  let single := enclosed .parenthesis (oneWordOf ["crate", "self", "super"])
  if ← nextIs single then single
  else if ← nextIs (parenthesesWith (word "in")) then
    enclosed .parenthesis (inOrder [word "in", plainPath])
  else return []

/-- Takes an invisible group that holds nothing. -/
def nothingGiven : Phrase
  | .invisible [] _ :: rest => some ([], rest)
  | _ => none

/-- How far something can be seen. What a macro was given for it may be nothing. -/
def visibility : Phrase := do
  if ← nextIs nothingGiven then nothingGiven
  else ifNext (word "pub") (inOrder [word "pub", restriction])

/-- The type of a field without a name: fields of its own, kept as they stand, or any type. -/
def unnamedType (g : Grammar) : Phrase := do
  let start ← Reading.peek
  let inner := inOrder [oneWordOf ["struct", "union"], groupOf .brace]
  if (← nextIs (word "struct")) || (← nextIs inner) then
    let _ ← inOrder [anyWord, g.fields]
    since start
  else g.typeTrees true

/-- A field with a name, or with a low line in its place. -/
def namedField (g : Grammar) : Phrase := do
  let opening ← inOrder [attributeTrees g, visibility]
  if ← nextIs (word "_") then return opening ++ (← inOrder [word "_", mark ":", unnamedType g])
  else return opening ++ (← inOrder [name, mark ":", g.typeTrees true])

/-- A field with a number. -/
def numberedField (g : Grammar) : Phrase :=
  inOrder [attributeTrees g, visibility, g.typeTrees true]

/-- The fields of a struct in braces. -/
def namedFields (g : Grammar) : Phrase := enclosed .brace (list (namedField g))

/-- The fields of a struct in parentheses. -/
def numberedFields (g : Grammar) : Phrase := enclosed .parenthesis (list (numberedField g))

/-- Whether a phrase is a group that holds something. -/
def isFilled : List TokenTree → Bool
  | [.group _ content _] => !content.isEmpty
  | _ => false

/-- What follows the parameters of a struct: the group of its fields, its where clause, and
how both are written, with the semicolon if there has to be one. -/
def structBody (g : Grammar) :
    Reading TokenTree (List TokenTree × Option (List TokenTree) × List TokenTree) := do
  let clause? ← whereClause g
  let written := clause?.getD []
  if clause?.isNone && (← nextIs (groupOf .parenthesis)) then
    let fields ← numberedFields g
    let clause? ← whereClause g
    let semicolon ← mark ";"
    return (fields, clause?, fields ++ clause?.getD [] ++ semicolon)
  else if ← nextIs (groupOf .brace) then
    let fields ← namedFields g
    return (fields, clause?, written ++ fields)
  else
    let semicolon ← mark ";"
    return ([], clause?, written ++ semicolon)

/-- A declaration of a struct behind its attributes and its visibility. -/
def structAfter (g : Grammar) (attributes : List Attribute) (visibility : List TokenTree) :
    Reading TokenTree StructItem := do
  let keyword ← word "struct"
  let name ← name
  let (parameters, parameterTrees) ← parameters g
  let (fields, clause?, body) ← structBody g
  return {
    attributes, visibility, parameters
    name := wordOf name
    nameSpan := TokenTree.spanOf name
    whereClause? := clause?
    fieldGroup := fields
    hasFields := isFilled fields
    trees := Attribute.flat attributes ++ visibility ++ keyword ++ name ++ parameterTrees ++ body }

/-- A declaration of a struct. -/
def structItem (g : Grammar) : Reading TokenTree StructItem := do
  let attributes ← attributes g
  structAfter g attributes (← visibility)

end Grammar
end SlotArray.Source
