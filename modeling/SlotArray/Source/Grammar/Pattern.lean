import SlotArray.Source.Grammar.Type
import SlotArray.Source.LiteralValue

/-! Patterns. -/
namespace SlotArray.Source.Grammar
open Phrase

/-- A phrase as a pattern that is no open range. -/
def closedPattern (phrase : Phrase) : Reading TokenTree PatternPhrase := do
  return ⟨false, ← phrase⟩

/-- A bar between two alternatives. -/
def alternativeBar : Reading TokenTree Unit := do
  if (← nextIs (mark "||")) || (← nextIs (mark "|=")) then failure
  let _ ← mark "|"

/-- Patterns separated by bars; a bar may come first. -/
def alternatives (g : Grammar) : Reading TokenTree PatternPhrase := do
  let leading ← perhaps (mark "|")
  let first ← g.pattern
  let others ← whileNext alternativeBar
    (inOrder [mark "|", PatternPhrase.trees <$> g.pattern])
  return ⟨first.openRange && leading.isEmpty && others.isEmpty,
    leading ++ first.trees ++ others⟩

/-- The trees of patterns separated by bars. -/
def alternativeTrees (g : Grammar) : Phrase := PatternPhrase.trees <$> alternatives g

/-- The dots of a range in a pattern. Three dots are written as two with an equals sign. -/
def patternDots : Phrase := do
  if ← nextIs (mark "..=") then mark "..="
  else if ← nextIs (mark "...") then
    match ← mark "..." with
    | [.leaf _ first, .leaf _ second, .leaf _ third] =>
      return [.leaf (.mark '.' true) first, .leaf (.mark '.' true) second,
        .leaf (.mark '=' false) third]
    | _ => failure
  else mark ".."

/-- Whether a range in a pattern ends without an upper bound. -/
def endsRange : Ahead := fun trees =>
  trees.isEmpty || starts (mark "|") trees || starts (mark "=") trees ||
    (starts (mark ":") trees && !starts (mark "::") trees) || starts (mark ",") trees ||
    starts (mark ";") trees || starts (word "if") trees

/-- A bound of a range in a pattern, nothing where it ends without one. -/
def rangeBound (g : Grammar) : Phrase := do
  if ← ask endsRange then return []
  else if ← nextIs literal then literal
  else if ← nextIs (word "const") then inOrder [word "const", attributedBlock g]
  else PathPhrase.trees <$> qualifiedPath g true

/-- The rest of a range in a pattern behind its lower bound. A range that includes its upper
bound needs one. -/
def rangeAfter (g : Grammar) (lower : List TokenTree) : Reading TokenTree PatternPhrase := do
  let dots ← patternDots
  let upper ← rangeBound g
  if upper.isEmpty && dots.length = 3 then failure
  return ⟨upper.isEmpty, lower ++ dots ++ upper⟩

/-- A range in a pattern without a lower bound. Two dots alone stand for any number of
elements. -/
def rangeWithoutLower (g : Grammar) : Reading TokenTree PatternPhrase := do
  let included ← nextIs (mark "..=")
  let dots ← if included then mark "..=" else mark ".."
  let upper ← rangeBound g
  if upper.isEmpty && included then failure
  return ⟨!upper.isEmpty, dots ++ upper⟩

/-- The name or the number of a field. A number has no suffix and is written in decimal. -/
def member : Phrase := do
  if ← nextIs name then name else index
where
  /-- The number of a field. -/
  index : Phrase := inSight fun
    | .leaf (.literal text) span :: rest =>
      match fieldNumber? text.toList with
      | some number => some ([.leaf (.literal (toString number)) span], rest)
      | none => none
    | _ => none

/-- A field in the pattern of a struct: a name that is bound to it, or the field and a
pattern. -/
def fieldPattern (g : Grammar) : Phrase := do
  let start ← Reading.peek
  let boxed ← perhaps (word "box")
  let modes ← inOrder [perhaps (word "ref"), perhaps (word "mut")]
  if boxed.isEmpty && modes.isEmpty then
    let numbered := !(← nextIs name)
    let field ← member
    if numbered || (← nextIs (mark ":")) then
      return field ++ (← inOrder [mark ":", alternativeTrees g])
    else return field
  else
    let name ← name
    if boxed.isEmpty then return modes ++ name else since start

/-- The fields in the pattern of a struct. Two dots at the end stand for the others. -/
def fieldPatterns (g : Grammar) : Phrase :=
  fun trees => go (TokenTree.totalSteps trees + 1) trees
where
  /-- `fuel` is one more than the number of steps ahead, so it lasts when each field takes one. -/
  go : Nat → Phrase
    | 0 => failure
    | fuel + 1 => do
      if ← ask List.isEmpty then return []
      let attributes ← attributeTrees g
      if ← nextIs (mark "..") then return attributes ++ (← mark "..")
      let field ← fieldPattern g
      if ← nextIs (mark ",") then return attributes ++ field ++ (← mark ",") ++ (← go fuel)
      else
        Reading.atEnd
        return attributes ++ field

/-- A pattern that begins with a path. -/
def pathPattern (g : Grammar) : Reading TokenTree PatternPhrase := do
  let path ← qualifiedPath g true
  if !path.qualified && (← ask startsMacroCall) && path.isPlain then
    return ⟨false, path.trees ++ (← macroCall).2⟩
  else if ← nextIs (groupOf .brace) then
    return ⟨false, path.trees ++ (← enclosed .brace (fieldPatterns g))⟩
  else if ← nextIs (groupOf .parenthesis) then
    return ⟨false, path.trees ++ (← enclosed .parenthesis (list (alternativeTrees g)))⟩
  else if ← nextIs (mark "..") then rangeAfter g path.trees
  else return ⟨false, path.trees⟩

/-- A pattern that begins with a literal or a constant. -/
def constantPattern (g : Grammar) : Reading TokenTree PatternPhrase := do
  let lower ← rangeBound g
  if ← nextIs (mark "..") then rangeAfter g lower else return ⟨false, lower⟩

/-- A pattern that binds a name. -/
def namePattern (g : Grammar) : Phrase := do
  let modes ← inOrder [perhaps (word "ref"), perhaps (word "mut")]
  let name ← if ← nextIs (word "self") then word "self" else name
  let inner ← ifNext (mark "@") (inOrder [mark "@", PatternPhrase.trees <$> g.pattern])
  return modes ++ name ++ inner

/-- A pattern in brackets. An open range needs parentheses there. -/
def elementsPattern (g : Grammar) : Phrase :=
  enclosed .bracket (list do
    let element ← alternatives g
    if element.openRange then failure else return element.trees)

/-- Whether the pattern ahead begins with a path that more follows than a name. -/
def startsPathPattern : Ahead := fun trees =>
  (starts name trees &&
      (follows (mark "::") trees || follows (mark "!") trees || follows (groupOf .brace) trees ||
        follows (groupOf .parenthesis) trees || follows (mark "..") trees)) ||
    (starts (word "self") trees && follows (mark "::") trees) ||
    starts (mark "::") trees || starts (mark "<") trees ||
    starts (oneWordOf ["Self", "super", "crate"]) trees

/-- A pattern without alternatives. -/
def anyPattern (g : Grammar) : Reading TokenTree PatternPhrase := do
  let start ← Reading.peek
  if ← ask startsPathPattern then pathPattern g
  else if ← nextIs (word "_") then closedPattern (word "_")
  else if ← nextIs (word "box") then
    let _ ← word "box"
    let _ ← g.pattern
    closedPattern (since start)
  else if (← nextIs (mark "-")) || (← nextIs literal) || (← nextIs (word "const")) then
    constantPattern g
  else if (← nextIs (oneWordOf ["ref", "mut", "self"])) || (← nextIs name) then
    closedPattern (namePattern g)
  else if ← nextIs (mark "&") then
    closedPattern (inOrder [mark "&", perhaps (word "mut"), PatternPhrase.trees <$> g.pattern])
  else if ← nextIs (groupOf .parenthesis) then
    closedPattern (enclosed .parenthesis (list (alternativeTrees g)))
  else if ← nextIs (groupOf .bracket) then closedPattern (elementsPattern g)
  else if (← nextIs (mark "..")) && !(← nextIs (mark "...")) then rangeWithoutLower g
  else failure

end SlotArray.Source.Grammar
