/-! Places in a source text. -/
namespace SlotArray.Source

/-- A place between two characters: lines count from 1, columns from 0. -/
structure Position where
  line : Nat
  column : Nat
deriving DecidableEq, Repr

/-- The place after one more character. -/
def Position.after (position : Position) (c : Char) : Position :=
  if c = '\n' then ⟨position.line + 1, 0⟩ else ⟨position.line, position.column + 1⟩

/-- The place after a stretch of text. -/
def Position.advance (position : Position) (text : List Char) : Position :=
  text.foldl Position.after position

/-- The first place of every text. -/
def Position.start : Position := ⟨1, 0⟩

/-- A stretch of source text, its end excluded. -/
structure Span where
  first : Position
  last : Position
deriving DecidableEq, Repr

/-- The span of what stands in no text: the invocation as a whole. -/
def Span.callSite : Span := ⟨.start, .start⟩

/-- The stretch from the beginning of one span to the end of another. -/
def Span.through (opening closing : Span) : Span := ⟨opening.first, closing.last⟩

end SlotArray.Source
