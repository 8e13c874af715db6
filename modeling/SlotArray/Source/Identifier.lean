import SlotArray.Source.TokenTree

/-! Which texts are identifiers. -/
namespace SlotArray.Source

/-- The words with a meaning of their own, those kept back for later included. -/
def keywords : List String :=
  ["abstract", "as", "async", "await", "become", "box", "break", "const", "continue", "crate",
    "do", "dyn", "else", "enum", "extern", "false", "final", "fn", "for", "if", "impl", "in",
    "let", "loop", "macro", "match", "mod", "move", "mut", "override", "priv", "pub", "ref",
    "return", "Self", "self", "static", "struct", "super", "trait", "true", "try", "type",
    "typeof", "unsafe", "unsized", "use", "virtual", "where", "while", "yield"]

/-- Whether a word names something: no keyword and no lone underscore. -/
def isName (word : String) : Bool :=
  word != "_" && !keywords.contains word

/-- Whether a text is exactly one identifier. Blanks and comments around it do not count,
and a keyword is one only when it is marked with `r#`. -/
def isIdentifier (text : String) : Bool :=
  match TokenTree.ofText? text with
  | some [.leaf (.word word) _] => isName word
  | _ => false

example : isIdentifier "Pair" = true := by decide +kernel

example : isIdentifier "struct" = false := by decide +kernel

end SlotArray.Source
