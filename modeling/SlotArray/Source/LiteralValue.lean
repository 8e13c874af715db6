import SlotArray.Number.Binary64
import SlotArray.Source.LiteralLength

/-! What literals mean. -/
namespace SlotArray.Source

/-- The meaning of a literal, as far as arguments can have it. -/
inductive LiteralValue where
  | text (text : String)
  | boolean (value : Bool)
  | integer (value : Nat)
  | float (value : Binary64)
  /-- Characters, bytes, and texts of other kinds. -/
  | other
deriving DecidableEq, Repr

/-- The base of a whole number, and its digits with what follows them. -/
def splitBase : List Char → Nat × List Char
  | '0' :: 'x' :: rest => (16, rest)
  | '0' :: 'o' :: rest => (8, rest)
  | '0' :: 'b' :: rest => (2, rest)
  | text => (10, text)

/-- Whether the text after an `e` is the exponent of a number, not the rest of a suffix:
either a sign, or digits that at most a suffix follows. -/
def isExponent (text : List Char) : Bool :=
  let after := text.dropWhile isDigitOrUnderscore
  let digits := (text.takeWhile isDigitOrUnderscore).any Char.isDigit
  match after with
  | [] => digits
  | '+' :: _ => true
  | '-' :: _ => true
  | _ => digits && wordLength after = some after.length

/-- Reads the digits of a whole number in a base: the value, and the suffix. Underscores do
not count. A decimal number with a point or an exponent is none. -/
def readDigits (base value : Nat) : List Char → Option (Nat × List Char)
  | [] => some (value, [])
  | '_' :: rest => readDigits base value rest
  | c :: rest =>
    if base = 10 && (c = '.' || ((c = 'e' || c = 'E') && isExponent rest)) then none
    else
      match hexDigit? c with
      | some digit =>
        if digit < base then readDigits base (value * base + digit) rest
        else if c.isDigit then none
        else some (value, c :: rest)
      | none => some (value, c :: rest)

/-- The value of a whole number, whatever its suffix, and the suffix. -/
def wholeNumber? (text : List Char) : Option (Nat × List Char) :=
  let (base, digits) := splitBase text
  readDigits base 0 digits

/-- The value of decimal digits among underscores. -/
def digitsValue (text : List Char) : Nat :=
  text.foldl (fun value c => if c = '_' then value else value * 10 + (c.toNat - '0'.toNat)) 0

/-- The exponent at the beginning of what follows the digits of a number, 0 when there is
none. -/
def exponentOf : List Char → Int
  | e :: rest =>
    let signed := rest.dropWhile (· == '_')
    let (negative, digits) : Bool × List Char :=
      match signed with
      | '-' :: digits => (true, digits)
      | '+' :: digits => (false, digits)
      | digits => (false, digits)
    if (e = 'e' || e = 'E') && digits.any Char.isDigit then
      let value := digitsValue (digits.takeWhile isDigitOrUnderscore)
      if negative then -value else value
    else 0
  | [] => 0

/-- The value of a number with a point or an exponent, whatever its suffix. -/
def floatValue (text : List Char) : Binary64 :=
  let whole := text.takeWhile isDigitOrUnderscore
  let after := text.dropWhile isDigitOrUnderscore
  let (fraction, after) : List Char × List Char :=
    match after with
    | '.' :: rest => (rest.takeWhile isDigitOrUnderscore, rest.dropWhile isDigitOrUnderscore)
    | rest => ([], rest)
  let places := (fraction.filter Char.isDigit).length
  .ofDecimal (digitsValue (whole ++ fraction)) (exponentOf after - places)

/-- The value of two hexadecimal digits. -/
def hexPair (high low : Char) : Nat :=
  (hexDigit? high).getD 0 * 16 + (hexDigit? low).getD 0

/-- The character that an escape stands for, and its length without the backslash. -/
def escapedChar : List Char → Char × Nat
  | 'x' :: high :: low :: _ => (Char.ofNat (hexPair high low), 3)
  | 'u' :: rest =>
    match braceEscape? rest with
    | some (value, length) => (Char.ofNat value, 1 + length)
    | none => ('u', 1)
  | 'n' :: _ => ('\n', 1)
  | 'r' :: _ => ('\r', 1)
  | 't' :: _ => ('\t', 1)
  | '0' :: _ => ('\x00', 1)
  | c :: _ => (c, 1)
  | [] => ('\x00', 1)

/-- The white space that a backslash at the end of a line takes with it. -/
def isContinuationBlank (c : Char) : Bool :=
  c == ' ' || c == '\t' || c == '\n' || c == '\r'

/-- What a backslash and the text after it mean, and the text that is left. At the end of a
line it means nothing and takes the white space with it. -/
def afterBackslash (text : List Char) : List Char × List Char :=
  if text.head? = some '\n' ∨ text.head? = some '\r' then
    ([], text.dropWhile isContinuationBlank)
  else ([(escapedChar text).1], text.drop (escapedChar text).2)

theorem length_afterBackslash_le (text : List Char) :
    (afterBackslash text).2.length ≤ text.length := by
  unfold afterBackslash
  split
  · exact (List.dropWhile_suffix isContinuationBlank).length_le
  · simp [List.length_drop]

/-- What quoted text means, up to its closing quote. A line feed stands for itself, with or
without a carriage return before it. -/
def quotedText (text : List Char) : List Char :=
  match text with
  | [] => []
  | '"' :: _ => []
  | '\r' :: '\n' :: rest => '\n' :: quotedText rest
  | '\\' :: rest => (afterBackslash rest).1 ++ quotedText (afterBackslash rest).2
  | c :: rest => c :: quotedText rest
termination_by text.length
decreasing_by
  · simp only [List.length_cons]; omega
  · have := length_afterBackslash_le rest
    simp only [List.length_cons]; omega
  · simp only [List.length_cons]; omega

/-- What raw text means: all up to the last quote, after the first one. -/
def rawText (text : List Char) : List Char :=
  let body := (text.dropWhile (· == '#')).drop 1
  ((body.reverse.dropWhile (· != '"')).drop 1).reverse

/-- What a literal means. -/
def LiteralValue.ofText (text : String) : LiteralValue :=
  if text = "true" then .boolean true
  else if text = "false" then .boolean false
  else
    match text.toList with
    | '"' :: rest => .text (String.ofList (quotedText rest))
    | 'r' :: rest => .text (String.ofList (rawText rest))
    | chars =>
      if chars.head?.any Char.isDigit then
        match wholeNumber? chars with
        | some (value, _) => .integer value
        | none => .float (floatValue chars)
      else .other

/-- The number of a field: a whole number of 32 bits without a suffix. -/
def fieldNumber? (text : List Char) : Option Nat :=
  if text.head?.any Char.isDigit then
    match wholeNumber? text with
    | some (value, []) => if value < 0x100000000 then some value else none
    | _ => none
  else none

example : LiteralValue.ofText "0x_fF_u8" = .integer 255 := by decide

example : LiteralValue.ofText "1e" = .integer 1 := by decide

end SlotArray.Source
