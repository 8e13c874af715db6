import SlotArray.Text.Split

/-! Snake case: a name cut into words, in lower case, with underscores between.

Only ASCII letters and digits belong to words; every other character separates
them. Inside a run of letters a word ends where a capital follows a small letter,
and before the last capital of a run that a small letter follows. -/
namespace SlotArray.Text

/-- The case of the letters read so far in the current word. -/
inductive LetterCase where
  | none
  | lower
  | upper
deriving DecidableEq, Repr

/-- The case after one more character; a digit changes nothing. -/
def LetterCase.next (case : LetterCase) (c : Char) : LetterCase :=
  if c.isLower then .lower else if c.isUpper then .upper else case

/-- Cuts a run of letters and digits into words. `word` holds the word in progress. -/
def runWords (case : LetterCase) (word : List Char) : List Char → List (List Char)
  | [] => if word.isEmpty then [] else [word]
  | [c] => [word ++ [c]]
  | c :: d :: rest =>
    if case.next c = .lower && d.isUpper then
      (word ++ [c]) :: runWords .none [] (d :: rest)
    else if case = .upper && c.isUpper && d.isLower then
      word :: runWords .none [c] (d :: rest)
    else
      runWords (case.next c) (word ++ [c]) (d :: rest)

/-- The words of a text. -/
def words (text : List Char) : List (List Char) :=
  (splitWhere (fun c => !c.isAlphanum) text).flatMap (runWords .none [])

/-- The words in lower case, joined by underscores. -/
def snakeCase (text : List Char) : List Char :=
  List.intercalate ['_'] ((words text).map fun word => word.map Char.toLower)

example : snakeCase "HTTPServer2Go".toList = "http_server2_go".toList := by decide

end SlotArray.Text
