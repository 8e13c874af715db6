/-! Text cut at separators. -/
namespace SlotArray.Text

/-- Puts one character in front of text that is already cut into pieces. -/
def consPiece (c : Char) : List (List Char) → List (List Char)
  | [] => [[c]]
  | piece :: rest => (c :: piece) :: rest

/-- Cuts text at every character of a class; the character itself is dropped. -/
def splitWhere (isSeparator : Char → Bool) : List Char → List (List Char)
  | [] => [[]]
  | c :: rest =>
    if isSeparator c then [] :: splitWhere isSeparator rest
    else consPiece c (splitWhere isSeparator rest)

/-- Cuts text at every double colon, the leftmost first. -/
def splitColons : List Char → List (List Char)
  | [] => [[]]
  | ':' :: ':' :: rest => [] :: splitColons rest
  | c :: rest => consPiece c (splitColons rest)

/-- The text after its last double colon, all of it when there is none. -/
def afterColons (text : List Char) : List Char :=
  go text.reverse []
where
  /-- Walks from the end, with what was passed in its own order. -/
  go : List Char → List Char → List Char
    | ':' :: ':' :: _, passed => passed
    | c :: rest, passed => go rest (c :: passed)
    | [], passed => passed

/-- Cutting gives at least one piece. -/
theorem splitWhere_ne_nil (isSeparator : Char → Bool) (text : List Char) :
    splitWhere isSeparator text ≠ [] := by
  cases text with
  | nil => simp [splitWhere]
  | cons c rest =>
    unfold splitWhere
    split
    · simp
    · cases splitWhere isSeparator rest <;> simp [consPiece]

end SlotArray.Text
