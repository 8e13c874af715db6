import SlotArray.Source.Identifier
import SlotArray.Text.SnakeCase

/-! The module a generated type is declared in. -/
namespace SlotArray

/-- A path of nested modules, the outermost first. The empty path is the root of the
generated document. -/
structure ModulePath where
  segments : List String
deriving DecidableEq, Repr

namespace ModulePath

def root : ModulePath := ⟨[]⟩

def isRoot (path : ModulePath) : Bool := path.segments.isEmpty

/-- The path as written in source text. -/
def display (path : ModulePath) : String := "::".intercalate path.segments

/-- One path is before another when its segments are, compared one after another. -/
def before (left right : ModulePath) : Bool := decide (left.segments < right.segments)

/-- The texts between the double colons and points of a path. -/
def rawSegments (text : List Char) : List (List Char) :=
  (Text.splitColons text).flatMap (Text.splitWhere (· == '.'))

/-- One segment: a name in snake case. It has to be an identifier. -/
def segment? (raw : List Char) : Option String :=
  let raw := Text.trim raw
  if raw.isEmpty then none
  else
    let segment := String.ofList (Text.snakeCase raw)
    if Source.isIdentifier segment then some segment else none

/-- Reads a path written with points or double colons. Nothing but white space is the
root. -/
def parse? (text : String) : Option ModulePath :=
  let trimmed := Text.trim text.toList
  if trimmed.isEmpty then some root
  else ((rawSegments trimmed).mapM segment?).map ModulePath.mk

/-- Puts a path into a list that ascends without repetition, unless it is there. -/
def insertDistinct (path : ModulePath) : List ModulePath → List ModulePath
  | [] => [path]
  | head :: rest =>
    if path = head then head :: rest
    else if path.before head then path :: head :: rest
    else head :: insertDistinct path rest

/-- The distinct paths of a list in ascending order. -/
def sortDistinct (paths : List ModulePath) : List ModulePath :=
  paths.foldr insertDistinct []

end ModulePath
end SlotArray
