import SlotArray.Source.Grammar.Member

/-! Declarations that may stand among the statements of a block and in a module. -/
namespace SlotArray.Source.Grammar
open Phrase

/-- A name or a low line. -/
def nameOrLowLine : Phrase := do
  if ← nextIs (word "_") then word "_" else name

/-- A variable of the program, and whether it lacks its type or its value. -/
def staticDeclaration (g : Grammar) : Reading TokenTree (Bool × List TokenTree) := do
  let opening ← inOrder [word "static", perhaps (word "mut"), name]
  let type ← if ← nextIs (mark "=") then pure [] else inOrder [mark ":", g.typeTrees true]
  let value ← ifNext (mark "=") (inOrder [mark "=", g.exprTrees true])
  return (type.isEmpty || value.isEmpty, opening ++ type ++ value ++ (← mark ";"))

/-- A variant of an enumeration. How far it can be seen is left out. -/
def variant (g : Grammar) : Phrase := do
  let attributes ← attributeTrees g
  let _ ← visibility
  let name ← name
  let fields ←
    if ← nextIs (groupOf .brace) then namedFields g
    else if ← nextIs (groupOf .parenthesis) then numberedFields g
    else pure []
  return attributes ++ name ++ fields ++
    (← ifNext (mark "=") (inOrder [mark "=", g.exprTrees true]))

/-- An enumeration. -/
def enumDeclaration (g : Grammar) : Phrase :=
  inOrder [word "enum", name, parameterTrees g, whereTrees g,
    enclosed .brace (list (variant g))]

/-- A union. -/
def unionDeclaration (g : Grammar) : Phrase :=
  inOrder [word "union", name, parameterTrees g, whereTrees g, namedFields g]

/-! Imports -/

/-- What an import names, and whether a path in it begins at a root of its own, which only one
outside all other paths may. `depth` bounds how many names stand behind one another. -/
def importTree : Nat → Bool → Reading TokenTree (Bool × List TokenTree)
  | 0, _ => failure
  | depth + 1, roots => do
    if ← nextIs (mark "*") then return (false, ← mark "*")
    else if ← nextIs (groupOf .brace) then
      let (items, span) ← inside .brace <| itemsToEnd do
        let root ← if roots then perhaps (mark "::") else pure []
        let (rooted, trees) ← importTree depth (roots && root.isEmpty)
        return (rooted || !root.isEmpty, trees)
      let inner := flat (items.map fun item => (item.1.2, item.2))
      return (items.any fun item => item.1.1, [.group .brace inner span])
    else
      let segment ← if ← nextIs name then name else oneWordOf ["self", "super", "crate", "try"]
      if ← nextIs (mark "::") then
        let colons ← mark "::"
        let (rooted, rest) ← importTree depth false
        return (rooted, segment ++ colons ++ rest)
      else if ← nextIs (word "as") then
        return (false, segment ++ (← word "as") ++ (← nameOrLowLine))
      else return (false, segment)

/-- An import, and whether it is kept as it stands. -/
def importDeclaration : Reading TokenTree (Bool × List TokenTree) := do
  let opening ← inOrder [word "use", perhaps (mark "::")]
  let depth := TokenTree.totalWeight (← Reading.peek) + 1
  let (rooted, tree) ← importTree depth (opening.length = 1)
  return (rooted, opening ++ tree ++ (← mark ";"))

/-- A library that is made known. -/
def libraryDeclaration : Phrase :=
  inOrder [word "extern", word "crate",
    (do if ← nextIs (word "self") then word "self" else name),
    ifNext (word "as") (inOrder [word "as", nameOrLowLine]), mark ";"]

/-- A block of foreign functions. -/
def foreignBlock (g : Grammar) : Phrase :=
  inOrder [perhaps (word "unsafe"), word "extern", perhaps textLiteral,
    membersInBraces g (foreignMemberAfter g)]

/-! Modules, traits and implementations -/

/-- A module. -/
def moduleDeclaration (g : Grammar) : Phrase := do
  let opening ← inOrder [perhaps (word "unsafe"), word "mod",
    (do if ← nextIs (word "try") then word "try" else name)]
  if ← nextIs (mark ";") then return opening ++ (← mark ";")
  else
    return opening ++
      (← enclosed .brace (inOrder [innerAttributes g, whileNext skip g.declaration]))

/-- What stops the bounds of a trait. -/
def stopsTraitBounds : Ahead := fun trees =>
  starts (word "where") trees || starts (groupOf .brace) trees || starts (mark ";") trees

/-- A trait, or a name for bounds. -/
def traitDeclaration (g : Grammar) : Phrase := do
  let modes ← inOrder [perhaps (word "unsafe"), perhaps (word "auto")]
  let opening ← inOrder [word "trait", name, parameterTrees g]
  let bounds := sequence stopsTraitBounds "+" g.boundTrees
  if modes.isEmpty && (← nextIs (mark "=")) then
    return opening ++ (← inOrder [mark "=", bounds, whereTrees g, mark ";"])
  else
    let colon ← perhaps (mark ":")
    let above ← if colon.isEmpty then pure [] else bounds
    return modes ++ opening ++ (if above.isEmpty then [] else colon ++ above) ++
      (← inOrder [whereTrees g, membersInBraces g (traitMemberAfter g)])

/-- Whether the angle bracket ahead begins the parameters of an implementation, and not the
type it is for. -/
def startsImplParameters : Ahead := fun trees =>
  starts (mark "<" *> mark ">") trees || starts (mark "<" *> mark "#") trees ||
    starts (mark "<" *> word "const") trees || starts (mark "<" *> named *> behind) trees
where
  /-- The name of a parameter. -/
  named : Phrase := do if ← nextIs lifetime then lifetime else name
  /-- What may stand behind the name of a parameter. -/
  behind : Reading TokenTree Unit := do
    let goesOn := (← nextIs (mark ">")) || (← nextIs (mark ",")) || (← nextIs (mark "=")) ||
      ((← nextIs (mark ":")) && !(← nextIs (mark "::")))
    if goesOn then return () else failure

/-- An implementation, and whether it is kept as it stands: one of a constant trait is, and one
of something that is no trait. -/
def implementation (g : Grammar) : Reading TokenTree (Bool × List TokenTree) := do
  let modes ← inOrder [perhaps (word "default"), perhaps (word "unsafe"), word "impl"]
  let parameters ← if ← ask startsImplParameters then parameterTrees g else pure []
  let constant ←
    if ← nextIs (mark "?" *> word "const") then inOrder [mark "?", word "const"]
    else perhaps (word "const")
  let negation ← if ← nextIs (mark "!" *> groupOf .brace) then pure [] else perhaps (mark "!")
  let first ← g.type true
  let isPath := first.ungrouped = .segment || first.ungrouped = .path
  let implementing ← nextIs (word "for")
  if !negation.isEmpty && !implementing then failure
  let implemented ← ifNext (word "for") (inOrder [word "for", g.typeTrees true])
  let rest ← inOrder [whereTrees g, membersInBraces g (implMemberAfter g)]
  return (!constant.isEmpty || (implementing && !isPath),
    modes ++ parameters ++ negation ++ first.trees ++ implemented ++ rest)

/-- A macro that is declared by its rules. -/
def rulesDeclaration : Phrase :=
  inOrder [word "macro", name, perhaps (groupOf .parenthesis), groupOf .brace]

/-! All of them -/

/-- Whether a word is ahead that begins a declaration. Some words begin an expression as well and
are told apart by what follows. -/
def startsDeclaration : Ahead := fun trees =>
  starts (oneWordOf ["pub", "extern", "use", "mod", "type", "struct", "enum", "trait", "impl",
    "macro", "fn"]) trees ||
    (starts (word "crate") trees && !starts (word "crate" *> mark "::") trees) ||
    starts (word "static" *> word "mut") trees || starts (word "static" *> name) trees ||
    (starts (word "const") trees && !startsConstantExpr trees) ||
    (starts (word "unsafe") trees && !starts (word "unsafe" *> groupOf .brace) trees) ||
    starts (word "union" *> name) trees || starts (word "auto" *> word "trait") trees ||
    starts (word "default" *> oneWordOf ["unsafe", "impl"]) trees ||
    starts (word "async" *> oneWordOf ["unsafe", "extern", "fn"]) trees
where
  /-- Whether `const` begins a block or a closure. -/
  startsConstantExpr : Ahead := fun trees =>
    starts (word "const" *> groupOf .brace) trees ||
      starts (word "const" *> oneWordOf ["static", "move"]) trees ||
      starts (word "const" *> mark "|") trees ||
      (starts (word "const" *> word "async") trees &&
        !starts (word "const" *> word "async" *> oneWordOf ["unsafe", "extern", "fn"]) trees)

/-- A phrase that is never kept as it stands. -/
def asRead (phrase : Phrase) : Reading TokenTree (Bool × List TokenTree) := do
  return (false, ← phrase)

/-- A function with its body. One without is kept as it stands. -/
def functionDeclaration (g : Grammar) : Reading TokenTree (Bool × List TokenTree) := do
  let opening ← signature g ownSafety
  if ← nextIs (mark ";") then return (true, ← mark ";")
  else return (false, opening ++ (← attributedBlock g))

/-- What begins with a word that is declared in public or not, behind how far it can be seen,
and whether it is kept as it stands. -/
def publicDeclaration (g : Grammar) : Reading TokenTree (Bool × List TokenTree) := do
  if ← ask (startsFunction ownSafety) then functionDeclaration g
  else if ← nextIs (word "extern" *> word "crate") then asRead libraryDeclaration
  else if ← nextIs (word "use") then importDeclaration
  else if ← nextIs (word "static") then staticDeclaration g
  else if ← nextIs (word "const") then
    let constant ← constantDeclaration g
    return (constant.general || !constant.hasValue, constant.trees)
  else if (← nextIs (perhaps (word "unsafe") *> perhaps (word "auto") *> word "trait")) then
    asRead (traitDeclaration g)
  else if ← nextIs (perhaps (word "unsafe") *> word "mod") then asRead (moduleDeclaration g)
  else if ← nextIs (word "type") then
    let type ← typeDeclaration g true false
    return (type.bounded || !type.defined, type.trees)
  else if ← nextIs (word "struct") then asRead (StructItem.trees <$> structAfter g [] [])
  else if ← nextIs (word "enum") then asRead (enumDeclaration g)
  else if ← nextIs (word "union" *> name) then asRead (unionDeclaration g)
  else if ← nextIs (word "macro") then return (true, ← rulesDeclaration)
  else failure

/-- A declaration behind its attributes, and whether it is kept as it stands. -/
def declarationAfter (g : Grammar) : Reading TokenTree (Bool × List TokenTree) := do
  let seen ← visibility
  if ← nextIs (perhaps (word "default") *> perhaps (word "unsafe") *> word "impl") then
    let (kept, trees) ← implementation g
    return (kept || !seen.isEmpty, trees)
  else if seen.isEmpty && (← nextIs foreignOpening) then asRead (foreignBlock g)
  else if seen.isEmpty && (← nextIs (plainPath *> mark "!")) then
    asRead (declaringCall (do
      if ← nextIs (word "try") then word "try" else perhaps name))
  else
    let (kept, trees) ← publicDeclaration g
    return (kept, seen ++ trees)
where
  /-- What begins a block of foreign functions. -/
  foreignOpening : Phrase :=
    inOrder [perhaps (word "unsafe"), word "extern", perhaps textLiteral, groupOf .brace]

/-- A declaration behind given attributes, which began where `start` says. -/
def declarationBehind (g : Grammar) (start attributes : List TokenTree) : Phrase := do
  let (kept, trees) ← declarationAfter g
  keptSince start kept (attributes ++ trees)

/-- A declaration with the attributes in front of it. -/
def anyDeclaration (g : Grammar) : Phrase := do
  let start ← Reading.peek
  declarationBehind g start (← attributeTrees g)

end SlotArray.Source.Grammar
