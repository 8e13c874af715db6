/-! Sets of code points, as a standard lists them: ranges with both ends
included. -/
namespace SlotArray.Text

/-- A set of code points, given as ranges with both ends included. -/
abbrev CodePoints := List (Nat × Nat)

/-- Whether some range of the set holds the character. -/
def CodePoints.contains (points : CodePoints) (c : Char) : Bool :=
  points.any fun range => range.1 ≤ c.toNat && c.toNat ≤ range.2

end SlotArray.Text
