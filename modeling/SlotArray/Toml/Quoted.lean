import SlotArray.Source.LiteralLength
import SlotArray.Reading

/-! Strings of a TOML document, in their four forms. -/
namespace SlotArray.Toml
open Source (hexDigit? isScalar)

/-- Characters that a string may hold as they are: no control but the tab. -/
def isStringChar (c : Char) : Bool :=
  c == '\t' || (0x20 ≤ c.toNat && c.toNat != 0x7F)

def isSpace (c : Char) : Bool := c == ' ' || c == '\t'

/-- The character that a single letter stands for after a backslash. -/
def letterEscape? : Char → Option Char
  | 'b' => some '\x08'
  | 't' => some '\t'
  | 'n' => some '\n'
  | 'f' => some '\x0c'
  | 'r' => some '\r'
  | '"' => some '"'
  | '\\' => some '\\'
  | _ => none

/-- The character with a hexadecimal code. -/
def codeEscape? (digits : List Char) : Option Char :=
  match digits.mapM hexDigit? with
  | some digits =>
    let value := digits.foldl (fun value digit => value * 16 + digit) 0
    if isScalar value then some (Char.ofNat value) else none
  | none => none

/-- Puts a character in front of what was read. -/
def push (c : Char) : Option (List Char × List Char) → Option (List Char × List Char)
  | some (text, rest) => some (c :: text, rest)
  | none => none

/-- The rest of a string in double quotes on one line. -/
def basicBody : List Char → Option (List Char × List Char)
  | [] => none
  | '"' :: rest => some ([], rest)
  | '\\' :: 'u' :: a :: b :: c :: d :: rest =>
    (codeEscape? [a, b, c, d]).bind fun char => push char (basicBody rest)
  | '\\' :: 'U' :: a :: b :: c :: d :: e :: f :: g :: h :: rest =>
    (codeEscape? [a, b, c, d, e, f, g, h]).bind fun char => push char (basicBody rest)
  | '\\' :: c :: rest => (letterEscape? c).bind fun char => push char (basicBody rest)
  | c :: rest => if isStringChar c then push c (basicBody rest) else none

/-- The rest of a string in single quotes on one line. -/
def plainBody : List Char → Option (List Char × List Char)
  | [] => none
  | '\'' :: rest => some ([], rest)
  | c :: rest => if isStringChar c then push c (plainBody rest) else none

/-- The end of a string in three quotes: one or two more quotes still belong to it. -/
def tripleEnd (quote : Char) (rest : List Char) : Option (List Char × List Char) :=
  let more := rest.takeWhile (· == quote)
  if more.length ≤ 2 then some (more, rest.drop more.length) else none

/-- Whether only spaces stand before the end of the line. -/
def isLineEnd (text : List Char) : Bool :=
  match text.dropWhile isSpace with
  | '\n' :: _ => true
  | '\r' :: '\n' :: _ => true
  | _ => false

/-- The rest of a string in three double quotes. After a backslash at the end of a line, blanks
and line ends are skipped. -/
def tripleBasicBody (skipping : Bool) (text : List Char) : Option (List Char × List Char) :=
  match text with
  | [] => none
  | '"' :: '"' :: '"' :: rest => tripleEnd '"' rest
  | '\r' :: '\n' :: rest =>
    if skipping then tripleBasicBody true rest else push '\n' (tripleBasicBody false rest)
  | '\n' :: rest =>
    if skipping then tripleBasicBody true rest else push '\n' (tripleBasicBody false rest)
  | '\\' :: 'u' :: a :: b :: c :: d :: rest =>
    (codeEscape? [a, b, c, d]).bind fun char => push char (tripleBasicBody false rest)
  | '\\' :: 'U' :: a :: b :: c :: d :: e :: f :: g :: h :: rest =>
    (codeEscape? [a, b, c, d, e, f, g, h]).bind fun char => push char (tripleBasicBody false rest)
  | '\\' :: c :: rest =>
    if isLineEnd (c :: rest) then tripleBasicBody true (c :: rest)
    else (letterEscape? c).bind fun char => push char (tripleBasicBody false rest)
  | c :: rest =>
    if skipping && isSpace c then tripleBasicBody true rest
    else if isStringChar c then push c (tripleBasicBody false rest)
    else none
termination_by text.length

/-- The rest of a string in three single quotes. -/
def triplePlainBody : List Char → Option (List Char × List Char)
  | [] => none
  | '\'' :: '\'' :: '\'' :: rest => tripleEnd '\'' rest
  | '\r' :: '\n' :: rest => push '\n' (triplePlainBody rest)
  | '\n' :: rest => push '\n' (triplePlainBody rest)
  | c :: rest => if isStringChar c then push c (triplePlainBody rest) else none

/-- Drops the line end right behind three opening quotes. -/
def dropFirstLineEnd : List Char → List Char
  | '\n' :: rest => rest
  | '\r' :: '\n' :: rest => rest
  | text => text

/-- Reads a string on one line. -/
def shortString : Reading Char String
  | '"' :: rest => (basicBody rest).map fun read => (String.ofList read.1, read.2)
  | '\'' :: rest => (plainBody rest).map fun read => (String.ofList read.1, read.2)
  | _ => none

/-- Reads a string of any form. -/
def anyString : Reading Char String
  | '"' :: '"' :: '"' :: rest =>
    (tripleBasicBody false (dropFirstLineEnd rest)).map fun read => (String.ofList read.1, read.2)
  | '\'' :: '\'' :: '\'' :: rest =>
    (triplePlainBody (dropFirstLineEnd rest)).map fun read => (String.ofList read.1, read.2)
  | text => shortString text

end SlotArray.Toml
