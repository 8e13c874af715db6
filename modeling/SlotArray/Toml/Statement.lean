import SlotArray.Toml.Scalar
import SlotArray.Toml.Item

/-! Reading a TOML document: its statements, and the table they make. -/
namespace SlotArray.Toml
open Reading

/-- A line of a document that says something. -/
inductive Statement where
  /-- The header of a table. -/
  | table (key : Key)
  /-- The header of one more table of an array. -/
  | element (key : Key)
  | pair (key : Key) (value : Value)
deriving Repr

/-- The number of parts that no key reaches, and the depth that no nested value reaches. -/
def depthLimit : Nat := 128

def spaces : Reading Char Unit := do
  let _ ← takeWhile isSpace

/-- The characters of a key without quotes. -/
def isBareKeyChar (c : Char) : Bool := c.isAlphanum || c == '-' || c == '_'

/-- Reads one part of a key. -/
def keyPart : Reading Char String :=
  shortString <|> do
    let first ← next isBareKeyChar
    let rest ← takeWhile isBareKeyChar
    return String.ofList (first :: rest)

/-- Reads a key, with the blanks around its parts. -/
def key : Reading Char Key := do
  let parts ← separated (spaces *> keyPart <* spaces) (char '.')
  if parts.length < depthLimit then return parts else failure

/-- Reads the end of a line. -/
def lineEnd : Reading Char Unit :=
  char '\n' <|> word "\r\n"

/-- Reads a comment up to the end of its line. -/
def comment : Reading Char Unit := do
  char '#'
  let _ ← takeWhile fun c => c == '\t' || 0x20 ≤ c.toNat

/-- Reads blanks, comments and line ends between the items of an array. -/
def between : Reading Char Unit := do
  let _ ← many <|
    (do let _ ← next isSpace) <|> lineEnd <|> (comment *> lineEnd)

/-- Reads what may stand behind a statement: a comment, and the end of the line. -/
def trailing : Reading Char Unit := do
  spaces
  let _ ← maybe comment
  lineEnd <|> atEnd

/-- Reads a pair whose value has a given reader. -/
def pair (value : Reading Char Value) : Reading Char (Key × Value) := do
  let key ← key
  char '='
  spaces
  let value ← value
  return (key, value)

/-- Reads an array whose items have a given reader. -/
def array (item : Reading Char Value) : Reading Char Value := do
  char '['
  let items ← maybe (separated (between *> item <* between) (char ',') <* maybe (char ','))
  between
  char ']'
  return .array (items.getD [])

/-- Reads an inline table whose values have a given reader. -/
def inlineTable (item : Reading Char Value) : Reading Char Value := do
  char '\x7b'
  let pairs ← maybe (separated (pair item <* spaces) (char ','))
  spaces
  char '\x7d'
  let table ← (pairs.getD []).foldlM (fun table pair => Table.addPair pair.2 pair.1 table) []
  return .table table

/-- Reads a value that holds others up to a depth. -/
def value : Nat → Reading Char Value
  | 0 => scalar
  | depth + 1 => array (value depth) <|> inlineTable (value depth) <|> scalar

/-- Reads a line that says something. -/
def statement : Reading Char Statement := do
  match ← peek with
  | '[' :: '[' :: _ =>
    word "[["
    let key ← key
    word "]]"
    trailing
    return .element key
  | '[' :: _ =>
    char '['
    let key ← key
    char ']'
    trailing
    return .table key
  | _ =>
    let (key, value) ← pair (value (depthLimit - 1))
    trailing
    return .pair key value

/-- Reads a line, which may say nothing. -/
def line : Reading Char (Option Statement) := do
  spaces
  (comment *> (lineEnd <|> atEnd) *> pure none) <|> (lineEnd *> pure none) <|> (some <$> statement)

/-- Reads all lines of a document. -/
def statements : Reading Char (List Statement) := do
  let lines ← many line
  spaces
  return lines.filterMap id

/-- A header with the pairs below it. -/
structure Block where
  header : Statement
  pairs : List (Key × Value)

/-- The pairs before the first header, and the headers with theirs. -/
def blocks : List Statement → List (Key × Value) × List Block
  | [] => ([], [])
  | .pair key value :: rest =>
    let (pairs, later) := blocks rest
    ((key, value) :: pairs, later)
  | header :: rest =>
    let (pairs, later) := blocks rest
    ([], ⟨header, pairs⟩ :: later)

/-- Adds a header and its pairs to what the document has so far. -/
def Block.add (items : Items) (block : Block) : Option Items :=
  match block.header with
  | .table key => items.addTable key block.pairs
  | .element key => items.addElement key block.pairs
  | .pair key value => Items.addPairs ((key, value) :: block.pairs) items

/-- The table that statements make. -/
def Table.ofStatements? (statements : List Statement) : Option Table := do
  let (pairs, blocks) := blocks statements
  let items ← Items.addPairs pairs []
  let items ← blocks.foldlM Block.add items
  return Item.toTable items

/-- The table of a document. A byte order mark before it does not count. -/
def Table.ofText? (text : String) : Option Table :=
  let chars := text.toList
  let chars := if chars.head? = some '\ufeff' then chars.tail else chars
  (whole statements chars).bind Table.ofStatements?

end SlotArray.Toml
