import SlotArray.Source.Grammar.Path

/-! Attributes. -/
namespace SlotArray.Source

/-- An attribute and its trees. -/
structure Attribute where
  path : List TokenTree
  /-- What stands in the brackets behind the path, as it stands in the source. -/
  list? : Option (List TokenTree)
  trees : List TokenTree

/-- The trees of attributes. -/
def Attribute.flat (attributes : List Attribute) : List TokenTree :=
  attributes.flatMap Attribute.trees

namespace Grammar
open Phrase

/-- What stands between the brackets of an attribute: a path, and behind it a list in
brackets of any kind, or a value. -/
def attributeContent (g : Grammar) : Reading TokenTree Attribute := do
  let path ← if ← nextIs (word "unsafe") then word "unsafe" else plainPath
  if ← nextIs (mark "=") then
    let equals ← mark "="
    if (← nextIs (mark "#")) && (← secondIs (groupOf .bracket)) then failure
    return ⟨path, none, path ++ equals ++ (← g.exprTrees true)⟩
  else if ← nextIs anyGroup then
    match ← anyGroup with
    | [.group delimiter content span] =>
      return ⟨path, some content, path ++ [.group delimiter content span]⟩
    | _ => failure
  else return ⟨path, none, path⟩

/-- An attribute behind its mark. -/
def attributeAfter (g : Grammar) (opening : Phrase) : Reading TokenTree Attribute := do
  let opening ← opening
  let (inner, span) ← inside .bracket (attributeContent g)
  return { inner with trees := opening ++ [.group .bracket inner.trees span] }

/-- The attributes in front of something. -/
def attributes (g : Grammar) : Reading TokenTree (List Attribute) :=
  each (mark "#") (attributeAfter g (mark "#"))

/-- The trees of the attributes in front of something. -/
def attributeTrees (g : Grammar) : Phrase := Attribute.flat <$> attributes g

/-- The attributes of a block at its beginning, each of them with an exclamation mark. -/
def innerAttributes (g : Grammar) : Phrase := do
  let opening := inOrder [mark "#", mark "!"]
  return Attribute.flat (← each opening (attributeAfter g opening))

/-- A block that may begin with attributes of its own. -/
def attributedBlock (g : Grammar) : Phrase :=
  enclosed .brace (inOrder [innerAttributes g, g.statements])

end Grammar
end SlotArray.Source
