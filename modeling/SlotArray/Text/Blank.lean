/-! White space, and text without the white space around it. -/
namespace SlotArray.Text

/-- The characters of the White_Space property. -/
def isBlank (c : Char) : Bool :=
  let code := c.toNat
  (0x09 ≤ code && code ≤ 0x0D) || code == 0x20 || code == 0x85 || code == 0xA0 ||
    code == 0x1680 || (0x2000 ≤ code && code ≤ 0x200A) || code == 0x2028 || code == 0x2029 ||
    code == 0x202F || code == 0x205F || code == 0x3000

/-- The text from its first character that is not white space. -/
def trimStart (text : List Char) : List Char :=
  text.dropWhile isBlank

/-- The text up to its last character that is not white space. -/
def trimEnd (text : List Char) : List Char :=
  (text.reverse.dropWhile isBlank).reverse

/-- The text without the white space at its two ends. -/
def trim (text : List Char) : List Char :=
  trimEnd (trimStart text)

/-- Whether nothing but white space is in the text. -/
def isBlankText (text : List Char) : Bool :=
  text.all isBlank

/-- A string without the white space at its two ends. -/
def trimmed (text : String) : String :=
  String.ofList (trim text.toList)

end SlotArray.Text
