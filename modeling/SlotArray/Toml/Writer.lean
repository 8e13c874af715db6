import SlotArray.Toml.Statement

/-! Values written on one line, the way they stand in an inline table. -/
namespace SlotArray.Toml

/-- One character of a string in double quotes; a text of several lines keeps its line
feeds. -/
def escapeChar (keepLines : Bool) (c : Char) : List Char :=
  match c with
  | '\x08' => ['\\', 'b']
  | '\t' => ['\\', 't']
  | '\n' => if keepLines then ['\n'] else ['\\', 'n']
  | '\x0c' => ['\\', 'f']
  | '\r' => ['\\', 'r']
  | '"' => ['\\', '"']
  | '\\' => ['\\', '\\']
  | c =>
    if c.toNat < 0x20 || c.toNat = 0x7F then
      ['\\', 'u'] ++ (padded 4 0).toList.drop (Nat.toDigits 16 c.toNat).length ++
        (Nat.toDigits 16 c.toNat).map Char.toUpper
    else [c]

/-- The longest run of single quotes in a text. -/
def longestQuoteRun (text : List Char) : Nat :=
  (text.foldl (fun (longest, run) c =>
    if c = '\'' then (max longest (run + 1), run + 1) else (longest, 0)) (0, 0)).1

/-- Whether a text is better written without escapes: it has something to escape, and nothing
that single quotes cannot hold. -/
def prefersPlain (text : List Char) : Bool :=
  (text.any fun c => c == '"' || c == '\\') &&
    text.all (fun c => c == '\n' || isStringChar c) &&
    longestQuoteRun text < 3 && text.getLast? != some '\''

/-- A string: in single quotes where that saves escapes, in three quotes where it has several
lines. -/
def writeString (text : List Char) : List Char :=
  let hasLines := text.contains '\n'
  let (quote, body) :=
    if prefersPlain text then
      (if hasLines then "'''\n" else if text.contains '\'' then "'''" else "'", text)
    else (if hasLines then "\"\"\"\n" else "\"", text.flatMap (escapeChar hasLines))
  quote.toList ++ body ++ quote.toList.filter (· != '\n')

/-- A key, without quotes where it can be. -/
def writeKey (key : List Char) : List Char :=
  if !key.isEmpty && key.all isBareKeyChar then key
  else ['"'] ++ key.flatMap (escapeChar false) ++ ['"']

mutual
/-- A value on one line. -/
def Value.write : Value → List Char
  | .string text => writeString text.toList
  | .integer value => (toString value).toList
  | .float value => value.write.toList
  | .boolean value => (toString value).toList
  | .datetime text =>
    "\x7b ".toList ++ writeKey datetimeKey.toList ++ " = ".toList ++ writeString text.toList ++
      " \x7d".toList
  | .array items => ['['] ++ Value.writeItems items ++ [']']
  | .table [] => "\x7b\x7d".toList
  | .table entries => "\x7b ".toList ++ Value.writeEntries entries ++ " \x7d".toList

/-- Values with commas between them. -/
def Value.writeItems : List Value → List Char
  | [] => []
  | [last] => last.write
  | item :: rest => item.write ++ [',', ' '] ++ Value.writeItems rest

/-- Entries with commas between them. -/
def Value.writeEntries : List (String × Value) → List Char
  | [] => []
  | [(key, value)] => writeKey key.toList ++ " = ".toList ++ value.write
  | (key, value) :: rest =>
    writeKey key.toList ++ " = ".toList ++ value.write ++ [',', ' '] ++ Value.writeEntries rest
end

/-- A value on one line, as a string. -/
def Value.display (value : Value) : String := String.ofList value.write

end SlotArray.Toml
