import SlotArray.Source.Grammar

/-! Paths, with the types and constants that are applied to their segments. -/
namespace SlotArray.Source

/-- The word that a phrase of one word holds. -/
def wordOf : List TokenTree → String
  | [.leaf (.word text) _] => text
  | _ => ""

namespace Grammar
open Phrase

/-- The keywords that may stand in a path for a module or a type. -/
def pathWords : List String := ["super", "self", "Self", "crate"]

/-- A segment of a path without arguments. -/
def plainSegment : Phrase := do
  if ← nextIs name then name else oneWordOf pathWords

/-- A path without arguments. -/
def plainPath : Phrase :=
  inOrder [perhaps (mark "::"), plainSegment,
    whileNext (mark "::") (inOrder [mark "::", plainSegment])]

/-- A constant among the arguments of a path: a literal, a name or a block. -/
def constant (g : Grammar) : Phrase := do
  if ← nextIs literal then literal
  else if ← nextIs name then name
  else g.block

/-- Whether a constant can be told from a type by its beginning. -/
def startsConstant : Ahead := fun trees => starts literal trees || starts (groupOf .brace) trees

/-- A comma that no source has. -/
def comma : TokenTree := .leaf (.mark ',' false) .callSite

/-- A list in which lifetimes come first, whatever the order in the source. -/
def lifetimesFirst (items : List ((Bool × List TokenTree) × List TokenTree)) :
    List TokenTree :=
  let lifetimes := items.filter fun item => item.1.1
  let others := items.filter fun item => !item.1.1
  let separated := lifetimes.getLast?.all fun item => !item.2.isEmpty
  flat (lifetimes.map fun item => (item.1.2, item.2)) ++
    (if separated || others.isEmpty then [] else [comma]) ++
    flat (others.map fun item => (item.1.2, item.2))

/-- Bounds after the name of an associated type. -/
def constraintBounds (g : Grammar) : Phrase :=
  sequence (fun trees => starts (mark ",") trees || starts (mark ">") trees) "+" g.boundTrees

/-- What may follow a single segment among the arguments of a path: the type or constant it
is equal to, or its bounds. -/
def associated (g : Grammar) : Phrase := do
  if ← nextIs (mark "=") then
    let equals ← mark "="
    if ← ask startsConstant then return equals ++ (← constant g)
    else return equals ++ (← g.typeTrees true)
  else if ← nextIs (mark ":") then inOrder [mark ":", constraintBounds g]
  else return []

/-- One argument of a path, and whether it is a lifetime. -/
def argument (g : Grammar) : Reading TokenTree (Bool × List TokenTree) := do
  if (← nextIs lifetime) && !(← secondIs (mark "+")) then return (true, ← lifetime)
  else if ← ask startsConstant then return (false, ← constant g)
  else
    let type ← g.type true
    if type.form = .segment then return (false, type.trees ++ (← associated g))
    else return (false, type.trees)

/-- The arguments of a path in angle brackets. -/
def angleArguments (g : Grammar) : Phrase :=
  inOrder [mark "<", lifetimesFirst <$> itemsUntil (starts (mark ">")) "," (argument g), mark ">"]

/-- Whether arguments in angle brackets are ahead. In an expression `::` has to come before
them. -/
def startsArguments (inExpr : Bool) : Ahead := fun trees =>
  (!inExpr && starts (mark "<") trees && !starts (mark "<=") trees &&
      !starts (mark "<<=") trees) ||
    starts (mark "::" *> mark "<") trees

/-- A segment of a path and its trees. -/
def segment (g : Grammar) (inExpr : Bool) : Reading TokenTree (Segment × List TokenTree) := do
  if ← nextIs (oneWordOf ["super", "self", "crate", "try"]) then
    let keyword ← anyWord
    return (⟨wordOf keyword, .none⟩, keyword)
  else
    let word ← if ← nextIs (word "Self") then word "Self" else name
    if ← ask (startsArguments inExpr) then
      let arguments ← inOrder [perhaps (mark "::"), angleArguments g]
      return (⟨wordOf word, .angled⟩, word ++ arguments)
    else return (⟨wordOf word, .none⟩, word)

/-- A further segment behind its `::`. -/
def nextSegment (g : Grammar) (inExpr : Bool) :
    Reading TokenTree (Segment × List TokenTree) := do
  let colons ← mark "::"
  let (segment, trees) ← segment g inExpr
  return (segment, colons ++ trees)

/-- Whether a path goes on. Before parentheses `::` belongs to the arguments in them. -/
def pathGoesOn : Reading TokenTree Unit := do
  let _ ← mark "::"
  if ← nextIs (groupOf .parenthesis) then failure

/-- A path with the segments that follow it. -/
def furtherSegments (g : Grammar) (inExpr : Bool) (path : PathPhrase) :
    Reading TokenTree PathPhrase := do
  let rest ← each pathGoesOn (nextSegment g inExpr)
  return { path with
    segments := path.segments ++ rest.map Prod.fst
    trees := path.trees ++ rest.flatMap Prod.snd }

/-- A path that begins with no type in angle brackets. -/
def path (g : Grammar) (inExpr : Bool) : Reading TokenTree PathPhrase := do
  let root ← perhaps (mark "::")
  let first ← segment g inExpr
  furtherSegments g inExpr ⟨false, !root.isEmpty, [first.1], root ++ first.2⟩

/-- A path that may begin with a type in angle brackets, and the trait it is seen through. -/
def qualifiedPath (g : Grammar) (inExpr : Bool) : Reading TokenTree PathPhrase := do
  if ← nextIs (mark "<") then
    let opening ← inOrder [mark "<", g.typeTrees true,
      ifNext (word "as") (inOrder [word "as", PathPhrase.trees <$> path g false]), mark ">"]
    let first ← nextSegment g inExpr
    let rest ← each (mark "::") (nextSegment g inExpr)
    return ⟨true, false, first.1 :: rest.map Prod.fst,
      opening ++ first.2 ++ rest.flatMap Prod.snd⟩
  else path g inExpr

/-- The type that a function answers with, behind its arrow. -/
def answerType (g : Grammar) (sums : Bool) : Phrase :=
  ifNext (mark "->") (inOrder [mark "->", g.typeTrees sums])

/-- The arguments of a function trait in parentheses. A `::` before them is left out. -/
def functionArguments (g : Grammar) : Phrase := do
  let _ ← perhaps (mark "::")
  inOrder [enclosed .parenthesis (list (g.typeTrees true)), answerType g false]

/-- A path of types: its last segment may take arguments in parentheses. -/
def withFunctionArguments (g : Grammar) (reader : Reading TokenTree PathPhrase) :
    Reading TokenTree PathPhrase := do
  let path ← reader
  let parenthesized := (← nextIs (groupOf .parenthesis)) ||
    (← nextIs (mark "::" *> groupOf .parenthesis))
  if path.endsBare && parenthesized then
    return path.applied .parenthesized (← functionArguments g)
  else return path

/-- A macro call behind a plain path: its delimiter and its trees. -/
def macroCall : Reading TokenTree (Delimiter × List TokenTree) := do
  let bang ← mark "!"
  match ← anyGroup with
  | [.group delimiter content span] =>
    return (delimiter, bang ++ [.group delimiter content span])
  | _ => failure

/-- Whether a macro call is ahead, and not a comparison. -/
def startsMacroCall : Ahead := fun trees => starts (mark "!") trees && !starts (mark "!=") trees

/-- A type in angle brackets, as a path may begin with it. -/
def angled (type : List TokenTree) (span : Span) : List TokenTree :=
  [.leaf (.mark '<' false) span] ++ type ++ [.leaf (.mark '>' false) span]

/-- A type in an invisible group. What follows the group may go on with a path in it; any other type
can be what a path begins with. `arguments` says whether arguments in angle brackets may follow it
without `::`. -/
def groupedType (g : Grammar) (arguments : Bool) : Reading TokenTree TypePhrase := do
  let (inner, span) ← insideInvisible (g.type true)
  let goesOn ← nextIs (mark "::" *> anyWord)
  let applied := (arguments && (← nextIs (mark "<"))) || (← nextIs (mark "::" *> mark "<"))
  match inner.path? with
  | some path =>
    if goesOn then return .ofPath (← furtherSegments g false path)
    else if applied && path.endsBare then
      let trees ← inOrder [perhaps (mark "::"), angleArguments g]
      return .ofPath (← furtherSegments g false (path.applied .angled trees))
    else return ⟨.other, none, inner.ungrouped, [.invisible inner.trees span]⟩
  | none =>
    if goesOn then
      let first ← nextSegment g false
      return .ofPath (← furtherSegments g false
        ⟨true, false, [first.1], angled inner.trees span ++ first.2⟩)
    else return ⟨.other, none, inner.ungrouped, [.invisible inner.trees span]⟩

end Grammar
end SlotArray.Source
