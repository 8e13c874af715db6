import SlotArray.Text.Blank

/-! Text as lines that keep their line feed, and the indentation of such text. -/
namespace SlotArray.Text

/-- Puts one character in front of text that is already cut into lines. -/
def consLine (c : Char) (later : List (List Char)) : List (List Char) :=
  if c = '\n' then [c] :: later
  else
    match later with
    | [] => [[c]]
    | line :: rest => (c :: line) :: rest

/-- Cuts text after every line feed. The last line may lack one; no line is empty. -/
def lines (text : List Char) : List (List Char) :=
  text.foldr consLine []

/-- One line at a given depth, four spaces a level. A line of white space alone is
not indented and loses the spaces and tabs it begins with. -/
def indentLine (depth : Nat) (line : List Char) : List Char :=
  if isBlankText line then line.dropWhile fun c => c == ' ' || c == '\t'
  else List.replicate (4 * depth) ' ' ++ line

/-- Text with every line at a given depth. -/
def indent (depth : Nat) (text : List Char) : List Char :=
  (lines text).flatMap (indentLine depth)

theorem flatten_consLine (c : Char) (later : List (List Char)) :
    (consLine c later).flatten = c :: later.flatten := by
  unfold consLine
  split
  · simp
  · cases later <;> simp

/-- Cutting loses nothing. -/
theorem flatten_lines (text : List Char) : (lines text).flatten = text := by
  induction text with
  | nil => rfl
  | cons c rest ih =>
    have step : lines (c :: rest) = consLine c (lines rest) := rfl
    rw [step, flatten_consLine, ih]

end SlotArray.Text
