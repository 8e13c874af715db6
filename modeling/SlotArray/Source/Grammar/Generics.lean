import SlotArray.Source.Grammar.Attribute

/-! Parameters of declarations, and the bounds on them. -/
namespace SlotArray.Source

/-- What a parameter stands for. -/
inductive ParameterKind where
  | lifetime
  | type
  | constant
deriving DecidableEq, Repr

/-- A parameter of a declaration and its trees. -/
structure Parameter where
  kind : ParameterKind
  name : String
  /-- Whether it is nothing but its name: no attribute, no bound and no default. -/
  isBare : Bool
  trees : List TokenTree

namespace Grammar
open Phrase

/-- The bounds of a lifetime, up to what stops them. A colon without bounds is left out. -/
def lifetimeBounds (stop : Ahead) : Phrase := do
  let colon ← perhaps (mark ":")
  if colon.isEmpty then return []
  let bounds ← sequence stop "+" lifetime
  return if bounds.isEmpty then [] else colon ++ bounds

/-- What stops the bounds of a parameter. -/
def stopsParameterBounds : Ahead := fun trees =>
  trees.isEmpty || starts (mark ",") trees || starts (mark ">") trees || starts (mark "=") trees

/-- The bounds of a type parameter. A colon without bounds is left out. -/
def typeBounds (g : Grammar) : Phrase := do
  let colon ← perhaps (mark ":")
  if colon.isEmpty then return []
  let bounds ← sequence stopsParameterBounds "+" g.boundTrees
  return if bounds.isEmpty then [] else colon ++ bounds

/-- A parameter behind its attributes. -/
def parameterAfter (g : Grammar) (attributes : List TokenTree) :
    Reading TokenTree Parameter := do
  if ← nextIs lifetime then
    let name ← lifetime
    let bounds ← lifetimeBounds stopsParameterBounds
    return ⟨.lifetime, wordOf name.tail, attributes.isEmpty && bounds.isEmpty,
      attributes ++ name ++ bounds⟩
  else if ← nextIs (word "const") then
    let word ← word "const"
    let name ← name
    let rest ← inOrder [mark ":", g.typeTrees true,
      ifNext (mark "=") (inOrder [mark "=", constant g])]
    return ⟨.constant, wordOf name, false, attributes ++ word ++ name ++ rest⟩
  else if ← nextIs (word "_") then
    let name ← word "_"
    return ⟨.type, wordOf name, attributes.isEmpty, attributes ++ name⟩
  else
    let name ← name
    let bounds ← typeBounds g
    let default ← ifNext (mark "=") (inOrder [mark "=", g.typeTrees true])
    return ⟨.type, wordOf name, attributes.isEmpty && bounds.isEmpty && default.isEmpty,
      attributes ++ name ++ bounds ++ default⟩

/-- A parameter. -/
def parameter (g : Grammar) : Reading TokenTree Parameter := do
  parameterAfter g (← attributeTrees g)

/-- The parameters of a declaration: those in the source, and how they are written, which is
lifetimes first, and not at all when there is none. -/
def parameters (g : Grammar) : Reading TokenTree (List Parameter × List TokenTree) := do
  if ← nextIs (mark "<") then
    let opening ← mark "<"
    let items ← itemsUntil (starts (mark ">")) "," (parameter g)
    let closing ← mark ">"
    if items.isEmpty then return ([], [])
    let written := lifetimesFirst (items.map fun (parameter, separator) =>
      ((parameter.kind = .lifetime, parameter.trees), separator))
    return (items.map Prod.fst, opening ++ written ++ closing)
  else return ([], [])

/-- Lifetimes that something holds for. -/
def binder (g : Grammar) : Phrase :=
  inOrder [word "for", mark "<",
    sequence (starts (mark ">")) "," (Parameter.trees <$> parameter g), mark ">"]

/-- What says that the methods of a trait are constant, perhaps where the surroundings are. -/
def constness : Phrase := do
  if ← nextIs (groupOf .bracket) then enclosed .bracket (word "const") else perhaps (word "const")

/-- A trait that bounds a type. Where the bound is only permitted, with a question mark, it
holds for no lifetimes of its own. -/
def traitBound (g : Grammar) : Reading TokenTree BoundPhrase := do
  let binder ← ifNext (word "for") (binder g)
  let constant ← constness
  let permitted ← perhaps (mark "?")
  if !binder.isEmpty && !permitted.isEmpty then failure
  let path ← withFunctionArguments g (path g false)
  return ⟨if constant.isEmpty then .trait else .constantTrait,
    binder ++ constant ++ permitted ++ path.trees⟩

/-- What a type captures: lifetimes and parameters, the lifetimes first. -/
def captures : Phrase :=
  inOrder [word "use", mark "<", lifetimesFirst <$> itemsUntil (starts (mark ">")) "," captured,
    mark ">"]
where
  /-- A thing that is captured, and whether it is a lifetime. -/
  captured : Reading TokenTree (Bool × List TokenTree) := do
    if ← nextIs lifetime then return (true, ← lifetime)
    else if ← nextIs (word "Self") then return (false, ← word "Self")
    else return (false, ← name)

/-- A bound of a type: a lifetime, captures, or a trait that may stand in parentheses. -/
def anyBound (g : Grammar) : Reading TokenTree BoundPhrase := do
  let start ← Reading.peek
  if ← nextIs lifetime then return ⟨.lifetime, ← lifetime⟩
  else if ← nextIs (word "use") then return ⟨.captures, ← captures⟩
  else
    let bound ←
      if ← nextIs (groupOf .parenthesis) then
        let (inner, span) ← inside .parenthesis (traitBound g)
        pure { inner with trees := [.group .parenthesis inner.trees span] }
      else traitBound g
    return { bound with trees := ← keptSince start (bound.kind = .constantTrait) bound.trees }

/-- Whether another bound is ahead behind a plus sign. -/
def startsBound : Ahead := fun trees =>
  starts anyWord trees || starts (mark "::") trees || starts (mark "?") trees ||
    starts lifetime trees || starts (groupOf .parenthesis) trees ||
    starts (groupOf .bracket) trees

/-- Bounds joined by plus signs, as many as are ahead. The last plus sign may stand alone. -/
def boundSum (g : Grammar) : Reading TokenTree (List BoundPhrase × List TokenTree) := do
  let items ← itemsUntil (fun trees => !startsBound trees) "+" g.bound
  return (items.map Prod.fst, flat (items.map fun item => (item.1.trees, item.2)))

/-- One bound, or as many as are ahead if `sums` allows it. -/
def bounds (g : Grammar) (sums : Bool) :
    Reading TokenTree (List BoundPhrase × List TokenTree) := do
  if !(← ask startsBound) then failure
  if sums then boundSum g
  else
    let bound ← g.bound
    return ([bound], bound.trees)

/-- What stops the predicates of a where clause, and the bounds in each of them. -/
def stopsPredicate : Ahead := fun trees =>
  trees.isEmpty || starts (groupOf .brace) trees || starts (mark ",") trees ||
    starts (mark ";") trees || (starts (mark ":") trees && !starts (mark "::") trees) ||
    starts (mark "=") trees

/-- One predicate of a where clause. -/
def predicate (g : Grammar) : Phrase := do
  if (← nextIs lifetime) && (← secondIs (mark ":")) then
    inOrder [lifetime, mark ":", sequence stopsPredicate "+" lifetime]
  else
    inOrder [ifNext (word "for") (binder g), g.typeTrees true, mark ":",
      sequence stopsPredicate "+" g.boundTrees]

/-- A where clause, if there is one. Without predicates nothing of it is written. -/
def whereClause (g : Grammar) : Reading TokenTree (Option (List TokenTree)) := do
  if ← nextIs (word "where") then
    let word ← word "where"
    let predicates ← sequence stopsPredicate "," (predicate g)
    return some (if predicates.isEmpty then [] else word ++ predicates)
  else return none

end Grammar
end SlotArray.Source
