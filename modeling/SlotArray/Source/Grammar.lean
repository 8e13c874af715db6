import SlotArray.Source.Expr
import SlotArray.Source.Phrase

/-! The phrases that contain one another.

Expressions, types, patterns and statements may stand inside each other to any depth. A
grammar holds the readers for what stands one level further in; each module below builds a
reader for its own level from them, and `Language` puts the levels on top of each other. -/
namespace SlotArray.Source

/-- What a type is, as far as its surroundings care. -/
inductive TypeForm where
  /-- One segment of a path, with arguments in angle brackets at most. -/
  | segment
  /-- Any other path that begins with no type in angle brackets. -/
  | path
  /-- A single bound of a trait object. -/
  | bound
  | other
deriving DecidableEq, Repr

/-- What a path is as a type. -/
def PathPhrase.typeForm (path : PathPhrase) : TypeForm :=
  if path.qualified then .other
  else
    match path.rooted, path.segments with
    | false, [⟨_, .none⟩] => .segment
    | false, [⟨_, .angled⟩] => .segment
    | _, _ => .path

/-- A type and its trees. -/
structure TypePhrase where
  form : TypeForm
  /-- The path that the type is, if it is one. -/
  path? : Option PathPhrase
  /-- The form that it has without the invisible groups around it. -/
  ungrouped : TypeForm
  trees : List TokenTree

/-- A type of no particular form. -/
def TypePhrase.plain (trees : List TokenTree) : TypePhrase := ⟨.other, none, .other, trees⟩

/-- A type that is a path. -/
def TypePhrase.ofPath (path : PathPhrase) : TypePhrase :=
  ⟨path.typeForm, some path, path.typeForm, path.trees⟩

/-- A type that is a bound of a trait object, or something more that begins with one. -/
def TypePhrase.ofBound (form : TypeForm) (trees : List TokenTree) : TypePhrase :=
  ⟨form, none, form, trees⟩

/-- A pattern and its trees. -/
structure PatternPhrase where
  /-- Whether it is a range that lacks one of its ends. -/
  openRange : Bool
  trees : List TokenTree

/-- What a bound of a type asks for. -/
inductive BoundKind where
  | lifetime
  | trait
  /-- A trait whose methods are constant. It is kept as it stands in the source. -/
  | constantTrait
  /-- Only some lifetimes and parameters are captured. -/
  | captures
deriving DecidableEq, Repr

/-- A bound of a type and its trees. -/
structure BoundPhrase where
  kind : BoundKind
  trees : List TokenTree

/-- Readers for what may stand inside a phrase. -/
structure Grammar where
  /-- An expression; `structs` says whether a brace after a path may begin a struct. -/
  expr (structs : Bool) : Reading TokenTree Expr
  /-- An expression without operators between its parts. -/
  operand (structs : Bool) : Reading TokenTree Expr
  /-- A type; `sums` says whether bounds joined by a plus sign are one. -/
  type (sums : Bool) : Reading TokenTree TypePhrase
  /-- A pattern without alternatives. -/
  pattern : Reading TokenTree PatternPhrase
  /-- One bound of a type. -/
  bound : Reading TokenTree BoundPhrase
  /-- The statements of a block. -/
  statements : Phrase
  /-- The arms of a match. -/
  arms : Phrase
  /-- The fields of a struct in braces. -/
  fields : Phrase
  /-- A declaration with the attributes in front of it. -/
  declaration : Phrase

namespace Grammar

/-- The grammar of the innermost level, which nothing fits into. -/
def empty : Grammar where
  expr _ := failure
  operand _ := failure
  type _ := failure
  pattern := failure
  bound := failure
  statements := failure
  arms := failure
  fields := failure
  declaration := failure

/-- The trees of an expression. -/
def exprTrees (g : Grammar) (structs : Bool) : Phrase := do
  return (← g.expr structs).trees

/-- The trees of a type. -/
def typeTrees (g : Grammar) (sums : Bool) : Phrase := do
  return (← g.type sums).trees

/-- The trees of a bound where captures may not be named. -/
def boundTrees (g : Grammar) : Phrase := do
  let bound ← g.bound
  if bound.kind = .captures then failure else return bound.trees

/-- A block. -/
def block (g : Grammar) : Phrase := Phrase.enclosed .brace g.statements

end Grammar
end SlotArray.Source
