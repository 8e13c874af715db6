import SlotArray.Text.IdentChar

/-! How far the literal at the beginning of a text reaches.

Every function here measures: it answers the number of characters of one kind of
literal, or `none` when the text does not begin with one. The lexeme itself is cut
off afterwards, so nothing can be lost or added while measuring. -/
namespace SlotArray.Source
open SlotArray.Text

/-- The length of the identifier at the beginning of a text. -/
def wordLength : List Char → Option Nat
  | [] => none
  | c :: rest =>
    if isIdentStart c then some (1 + (rest.takeWhile isIdentContinue).length) else none

/-- The length of a literal's suffix, nothing when there is none. -/
def suffixLength (text : List Char) : Nat :=
  (wordLength text).getD 0

/-- Adds the suffix to a literal body of the given length. -/
def withSuffix (text : List Char) (body : Nat) : Nat :=
  body + suffixLength (text.drop body)

/-- The value of a hexadecimal digit. -/
def hexDigit? (c : Char) : Option Nat :=
  if '0' ≤ c ∧ c ≤ '9' then some (c.toNat - '0'.toNat)
  else if 'a' ≤ c ∧ c ≤ 'f' then some (c.toNat - 'a'.toNat + 10)
  else if 'A' ≤ c ∧ c ≤ 'F' then some (c.toNat - 'A'.toNat + 10)
  else none

/-- Whether a number is the code point of a character. -/
def isScalar (value : Nat) : Bool :=
  value < 0xD800 || (0xDFFF < value && value < 0x110000)

/-- What follows `u` in an escape: one to six hexadecimal digits in braces, with
underscores anywhere after the first. Answers the value and the length. -/
def braceEscape? : List Char → Option (Nat × Nat)
  | '\x7b' :: rest => digits 0 0 1 rest
  | _ => none
where
  /-- Reads the digits: how many came, their value, how much was read. -/
  digits (count value length : Nat) : List Char → Option (Nat × Nat)
    | [] => none
    | c :: rest =>
      match hexDigit? c with
      | some digit =>
        if count = 6 then none else digits (count + 1) (value * 16 + digit) (length + 1) rest
      | none =>
        if count = 0 then none
        else if c = '_' then digits count value (length + 1) rest
        else if c = '\x7d' && isScalar value then some (value, length + 1)
        else none

/-- What the text between quotes may hold. -/
structure QuotedRules where
  /-- Characters that stand for themselves. -/
  plain : Char → Bool
  /-- Letters that a backslash may precede. -/
  letters : List Char
  /-- The two digits of a hexadecimal escape. -/
  hex : Nat → Nat → Bool
  /-- Whether an escape may name this code point in braces. -/
  code : Nat → Bool

/-- A string: every character, and the escapes of text. -/
def textRules : QuotedRules where
  plain _ := true
  letters := ['n', 'r', 't', '\\', '\'', '"', '0']
  hex high _ := high < 8
  code _ := true

/-- A byte string: ASCII, and any byte escaped. -/
def byteRules : QuotedRules where
  plain c := c.toNat < 0x80
  letters := ['n', 'r', 't', '\\', '\'', '"', '0']
  hex _ _ := true
  code _ := false

/-- A string that a zero ends: it may not hold one itself. -/
def zeroEndedRules : QuotedRules where
  plain c := c != '\x00'
  letters := ['n', 'r', 't', '\\', '\'', '"']
  hex high low := high != 0 || low != 0
  code value := value != 0

/-- The length of the escape after a backslash, line continuations apart. -/
def escapeLength (rules : QuotedRules) : List Char → Option Nat
  | 'x' :: high :: low :: _ =>
    match hexDigit? high, hexDigit? low with
    | some high, some low => if rules.hex high low then some 3 else none
    | _, _ => none
  | 'u' :: rest =>
    match braceEscape? rest with
    | some (value, length) => if rules.code value then some (1 + length) else none
    | none => none
  | c :: _ => if rules.letters.contains c then some 1 else none
  | [] => none

/-- The white space after a backslash at the end of a line. A carriage return has to
stand before a line feed, and the text has to go on afterwards. -/
def continuationLength : List Char → Option Nat
  | [] => none
  | '\r' :: '\n' :: rest => (continuationLength rest).map (· + 2)
  | '\r' :: _ => none
  | c :: rest =>
    if c = ' ' || c = '\t' || c = '\n' then (continuationLength rest).map (· + 1) else some 0

/-- The length of quoted text up to and including its closing quote. -/
def quotedLength (rules : QuotedRules) (text : List Char) : Option Nat :=
  match text with
  | [] => none
  | '"' :: _ => some 1
  | '\r' :: '\n' :: rest => (quotedLength rules rest).map (· + 2)
  | '\r' :: _ => none
  | '\\' :: rest =>
    let length? :=
      match rest with
      | '\n' :: _ | '\r' :: _ => continuationLength rest
      | _ => escapeLength rules rest
    match length? with
    | some length => (quotedLength rules (rest.drop length)).map (· + (1 + length))
    | none => none
  | c :: rest => if rules.plain c then (quotedLength rules rest).map (· + 1) else none
termination_by text.length
decreasing_by all_goals simp_wf; try omega

/-- The length of raw text up to and including its closing quote and hashes. -/
def rawLength (plain : Char → Bool) (hashes : Nat) : List Char → Option Nat
  | [] => none
  | '\r' :: '\n' :: rest => (rawLength plain hashes rest).map (· + 2)
  | '\r' :: _ => none
  | c :: rest =>
    if c = '"' && rest.take hashes == List.replicate hashes '#' then some (1 + hashes)
    else if plain c then (rawLength plain hashes rest).map (· + 1)
    else none

/-- Raw text with its opening: at most 255 hashes and a quote. -/
def rawOpenedLength (plain : Char → Bool) (text : List Char) : Option Nat :=
  let hashes := (text.takeWhile (· == '#')).length
  match text.drop hashes with
  | '"' :: rest =>
    if hashes ≤ 255 then (rawLength plain hashes rest).map (· + (hashes + 1)) else none
  | _ => none

/-- The length of one character or escape and the closing single quote. -/
def quotedCharLength (rules : QuotedRules) (text : List Char) : Option Nat :=
  let length? :=
    match text with
    | '\\' :: rest => (escapeLength rules rest).map (· + 1)
    | c :: _ => if rules.plain c then some 1 else none
    | [] => none
  match length? with
  | some length =>
    match text.drop length with
    | '\'' :: _ => some (length + 1)
    | _ => none
  | none => none

/-- The length of a quoted literal of any kind, its suffix left out. -/
def quotedLiteralLength : List Char → Option Nat
  | '"' :: rest => (quotedLength textRules rest).map (· + 1)
  | 'r' :: rest => (rawOpenedLength textRules.plain rest).map (· + 1)
  | 'b' :: '"' :: rest => (quotedLength byteRules rest).map (· + 2)
  | 'b' :: 'r' :: rest => (rawOpenedLength byteRules.plain rest).map (· + 2)
  | 'b' :: '\'' :: rest => (quotedCharLength byteRules rest).map (· + 2)
  | 'c' :: '"' :: rest => (quotedLength zeroEndedRules rest).map (· + 2)
  | 'c' :: 'r' :: rest => (rawOpenedLength zeroEndedRules.plain rest).map (· + 2)
  | '\'' :: rest => (quotedCharLength textRules rest).map (· + 1)
  | _ => none

/-- Decimal digits and the underscores between them. -/
def isDigitOrUnderscore (c : Char) : Bool :=
  c.isDigit || c == '_'

/-- The length of digits and underscores at the beginning of a text. -/
def digitsLength (text : List Char) : Nat :=
  (text.takeWhile isDigitOrUnderscore).length

/-- The length of an exponent after its `e`: at most one sign, and a digit. The sign may
follow underscores; after the first digit a sign ends the exponent. -/
def exponentLength (text : List Char) : Option Nat :=
  let blanks := (text.takeWhile (· == '_')).length
  let sign :=
    match text.drop blanks with
    | '+' :: _ | '-' :: _ => blanks + 1
    | _ => blanks
  let digits := (text.drop sign).takeWhile isDigitOrUnderscore
  if digits.any Char.isDigit then some (sign + digits.length) else none

/-- The length of a number with a point or an exponent, its suffix left out. A point
belongs to it unless another point or a name follows. An `e` that no exponent follows is
left to the suffix when there was a point. -/
def fractionalLength (text : List Char) : Option Nat :=
  match text with
  | [] => none
  | first :: _ =>
    if !first.isDigit then none
    else
      let whole := digitsLength text
      match text.drop whole with
      | '.' :: after =>
        let blocked :=
          match after with
          | next :: _ => next == '.' || isIdentStart next
          | [] => false
        if blocked then none
        else
          let mantissa := whole + 1 + digitsLength after
          match text.drop mantissa with
          | 'e' :: rest | 'E' :: rest =>
            some (mantissa + ((exponentLength rest).map (· + 1)).getD 0)
          | _ => some mantissa
      | 'e' :: rest | 'E' :: rest => (exponentLength rest).map (· + (whole + 1))
      | _ => none

/-- The length of digits in a base, its mark left out. A decimal digit too large for the
base spoils the number, a letter too large ends it; a decimal number does not begin with an
underscore, and one digit at least is needed. -/
def radixLength (base : Nat) (text : List Char) : Option Nat :=
  let digits := text.takeWhile fun c =>
    c == '_' || c.isDigit || ((hexDigit? c).any (· < base))
  if digits.any fun c => c.isDigit && base ≤ c.toNat - '0'.toNat then none
  else if base = 10 && digits.head? == some '_' then none
  else if digits.any (· != '_') then some digits.length
  else none

/-- The length of a whole number, its suffix left out. -/
def wholeLength : List Char → Option Nat
  | '0' :: 'x' :: rest => (radixLength 16 rest).map (· + 2)
  | '0' :: 'o' :: rest => (radixLength 8 rest).map (· + 2)
  | '0' :: 'b' :: rest => (radixLength 2 rest).map (· + 2)
  | text => radixLength 10 text

/-- A number with its suffix; no character of an identifier may follow. -/
def numberLength (text : List Char) (body : Nat) : Option Nat :=
  let length := withSuffix text body
  match text.drop length with
  | next :: _ => if isIdentContinue next then none else some length
  | [] => some length

/-- The length of the literal at the beginning of a text: quoted ones first, then numbers
with a point or an exponent, then whole ones. -/
def literalLength (text : List Char) : Option Nat :=
  match quotedLiteralLength text with
  | some body => some (withSuffix text body)
  | none =>
    match (fractionalLength text).bind (numberLength text) with
    | some length => some length
    | none => (wholeLength text).bind (numberLength text)

end SlotArray.Source
