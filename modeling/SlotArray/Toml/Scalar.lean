import SlotArray.Toml.Quoted
import SlotArray.Toml.Value

/-! Numbers, dates and times of a TOML document. -/
namespace SlotArray.Toml
open Reading
open Source (hexDigit?)

/-- Reads one given character. -/
def char (c : Char) : Reading Char Unit := do
  let _ ← next (· == c)

/-- Reads a given word. -/
def word (text : String) : Reading Char Unit :=
  text.toList.forM char

/-- Reads a digit, and then digits with single underscores between them; the underscores are
left out. -/
def digitRun (isDigit : Char → Bool) : Reading Char (List Char) := do
  let first ← next isDigit
  let rest ← many do
    let _ ← maybe (char '_')
    next isDigit
  return first :: rest

/-- Reads a decimal whole number: no zero before other digits. -/
def decimalDigits : Reading Char (List Char) := do
  match ← peek with
  | '0' :: _ => return [← next (· == '0')]
  | _ => digitRun Char.isDigit

/-- The value of digits in a base. -/
def digitsValue (base : Nat) (digits : List Char) : Nat :=
  digits.foldl (fun value c => value * base + (hexDigit? c).getD 0) 0

/-- Reads a sign; none counts as plus. -/
def sign : Reading Char Bool := do
  match ← peek with
  | '-' :: _ => char '-' *> pure true
  | '+' :: _ => char '+' *> pure false
  | _ => pure false

/-- An integer of 64 bits. -/
def integer64? (negative : Bool) (value : Nat) : Option Value :=
  let value : Int := if negative then -value else value
  if -0x8000000000000000 ≤ value ∧ value < 0x8000000000000000 then some (.integer value) else none

/-- Reads an integer, in base 16, 8 or 2 if it is marked so. -/
def integer : Reading Char Value := do
  match ← peek with
  | '0' :: 'x' :: _ =>
    word "0x"
    let digits ← digitRun fun c => (hexDigit? c).isSome
    integer64? false (digitsValue 16 digits)
  | '0' :: 'o' :: _ =>
    word "0o"
    let digits ← digitRun fun c => (hexDigit? c).any (· < 8)
    integer64? false (digitsValue 8 digits)
  | '0' :: 'b' :: _ =>
    word "0b"
    let digits ← digitRun fun c => (hexDigit? c).any (· < 2)
    integer64? false (digitsValue 2 digits)
  | _ =>
    let negative ← sign
    let digits ← decimalDigits
    integer64? negative (digitsValue 10 digits)

/-- Reads an exponent. -/
def exponent : Reading Char Int := do
  let _ ← next fun c => c == 'e' || c == 'E'
  let negative ← sign
  let digits ← digitRun Char.isDigit
  let value : Int := digitsValue 10 digits
  return if negative then -value else value

/-- Reads a number with a point, an exponent or both. One too large is refused, unless it is
negative. -/
def decimalFloat : Reading Char Value := do
  let negative ← sign
  let whole ← decimalDigits
  let fraction ← maybe (char '.' *> digitRun Char.isDigit)
  let power ← if fraction.isSome then (·.getD 0) <$> maybe exponent else exponent
  let fraction := fraction.getD []
  let value := Binary64.ofDecimal (digitsValue 10 (whole ++ fraction)) (power - fraction.length)
  if negative then return .float value.neg
  else if value.isInfinite then failure
  else return .float value

/-- Reads a number that no digits can write. -/
def specialFloat : Reading Char Value := do
  let negative ← sign
  let value ← (word "inf" *> pure Binary64.infinity) <|> (word "nan" *> pure Binary64.nan)
  return .float (if negative then value.neg else value)

/-- Reads a number of exactly two digits in a range. -/
def twoDigits (least most : Nat) : Reading Char Nat := do
  let tens ← next Char.isDigit
  let ones ← next Char.isDigit
  let value := digitsValue 10 [tens, ones]
  if least ≤ value ∧ value ≤ most then return value else failure

/-- A number with zeros before it up to a width. -/
def padded (width : Nat) (value : Nat) : String :=
  let digits := toString value
  String.ofList (List.replicate (width - digits.length) '0') ++ digits

/-- Reads a date and writes it in its standard form. -/
def date : Reading Char String := do
  let year ← [(), (), (), ()].mapM fun _ => next Char.isDigit
  char '-'
  let month ← twoDigits 1 12
  char '-'
  let day ← twoDigits 1 31
  return String.ofList year ++ "-" ++ padded 2 month ++ "-" ++ padded 2 day

/-- Reads a fraction of a second: nine digits count, and zeros at the end are left out. -/
def secondFraction : Reading Char String := do
  char '.'
  let first ← next Char.isDigit
  let rest ← takeWhile Char.isDigit
  let shown := (((first :: rest).take 9).reverse.dropWhile (· == '0')).reverse
  return if shown.isEmpty then "" else "." ++ String.ofList shown

/-- Reads a time of day. -/
def time : Reading Char String := do
  let hour ← twoDigits 0 23
  char ':'
  let minute ← twoDigits 0 59
  char ':'
  let second ← twoDigits 0 60
  let fraction ← maybe secondFraction
  return padded 2 hour ++ ":" ++ padded 2 minute ++ ":" ++ padded 2 second ++ fraction.getD ""

/-- Reads the distance from universal time. -/
def offset : Reading Char String := do
  let mark ← next fun c => c == 'Z' || c == 'z' || c == '+' || c == '-'
  if mark = 'Z' || mark = 'z' then return "Z"
  else
    let hour ← twoDigits 0 23
    char ':'
    let minute ← twoDigits 0 59
    let shown := if mark = '-' && (hour != 0 || minute != 0) then "-" else "+"
    return shown ++ padded 2 hour ++ ":" ++ padded 2 minute

/-- Reads what may stand behind a date: a time, and its distance from universal time. -/
def timeOfDate : Reading Char String := do
  let _ ← next fun c => c == 'T' || c == 't' || c == ' '
  let time ← time
  let offset ← maybe offset
  return "T" ++ time ++ offset.getD ""

/-- Reads a date with or without a time, or a time alone. -/
def datetime : Reading Char Value :=
  (do
    let date ← date
    let time ← maybe timeOfDate
    return .datetime (date ++ time.getD "")) <|>
  (.datetime <$> time)

/-- Reads a value that holds no other values. -/
def scalar : Reading Char Value :=
  (.string <$> anyString) <|> datetime <|> decimalFloat <|> specialFloat <|> integer <|>
    (word "true" *> pure (.boolean true)) <|> (word "false" *> pure (.boolean false))

end SlotArray.Toml
