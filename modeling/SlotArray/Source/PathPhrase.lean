import SlotArray.Source.TokenTree

/-! Paths as they are read: their segments, and the trees they are written with. -/
namespace SlotArray.Source

/-- What a segment of a path is applied to. -/
inductive SegmentArguments where
  | none
  | angled
  | parenthesized
deriving DecidableEq, Repr

/-- A segment of a path: its word, and the kind of arguments behind it. -/
structure Segment where
  name : String
  arguments : SegmentArguments
deriving DecidableEq, Repr

/-- A path and its trees. -/
structure PathPhrase where
  /-- Whether it begins with a type in angle brackets. -/
  qualified : Bool
  /-- Whether it begins with `::`. -/
  rooted : Bool
  segments : List Segment
  trees : List TokenTree
deriving Repr

namespace PathPhrase

/-- Whether no segment has arguments. -/
def isPlain (path : PathPhrase) : Bool :=
  path.segments.all fun segment => segment.arguments = .none

/-- The last segment of a path. -/
def last? (path : PathPhrase) : Option Segment := path.segments.getLast?

/-- Whether the last segment may still take arguments. -/
def endsBare (path : PathPhrase) : Bool :=
  path.last?.any fun segment => segment.arguments = .none

/-- A path whose last segment got arguments of some kind, with the trees they are written with. -/
def applied (path : PathPhrase) (kind : SegmentArguments) (arguments : List TokenTree) : PathPhrase :=
  { path with
    segments := path.segments.dropLast ++
      (path.last?.map fun segment => ⟨segment.name, kind⟩).toList
    trees := path.trees ++ arguments }

end PathPhrase
end SlotArray.Source
