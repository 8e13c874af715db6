import SlotArray.ModulePath
import SlotArray.Text.Lines

/-! The document a pass generates: definitions filed under their modules.

A module cannot be opened twice, so the definitions of one module stay together, in the
order they came in; the modules ascend. -/
namespace SlotArray

/-- The definitions of one module. -/
structure Section where
  home : ModulePath
  definitions : List String
deriving DecidableEq, Repr

/-- A document: sections in ascending order of their modules. -/
structure Document where
  sections : List Section
deriving DecidableEq, Repr

namespace Document

/-- The comment every document begins with. -/
def prologue : String := "// @generated by struct-array-gen. Do not edit by hand.\n"

def empty : Document := ⟨[]⟩

/-- Files a definition in ascending sections, in a new one if its module has none yet. -/
def insert (home : ModulePath) (text : String) : List Section → List Section
  | [] => [⟨home, [text]⟩]
  | head :: rest =>
    if home = head.home then ⟨head.home, head.definitions ++ [text]⟩ :: rest
    else if home.before head.home then ⟨home, [text]⟩ :: head :: rest
    else head :: insert home text rest

/-- Files a definition behind those its module already has. -/
def append (document : Document) (home : ModulePath) (text : String) : Document :=
  ⟨insert home text document.sections⟩

/-- The number of definitions. -/
def size (document : Document) : Nat :=
  document.sections.foldr (fun part count => part.definitions.length + count) 0

def isEmpty (document : Document) : Bool := document.size == 0

theorem size_empty : empty.size = 0 := rfl

private theorem size_insert (home : ModulePath) (text : String) (sections : List Section) :
    (Document.mk (insert home text sections)).size = (Document.mk sections).size + 1 := by
  induction sections with
  | nil => rfl
  | cons head rest ih =>
    simp only [insert]
    simp only [size] at ih ⊢
    split
    · simp; omega
    · split
      · simp; omega
      · simp [ih]; omega

/-- Every definition that is filed counts once. -/
theorem size_append (document : Document) (home : ModulePath) (text : String) :
    (document.append home text).size = document.size + 1 :=
  size_insert home text document.sections

/-- A definition at a depth: a blank line, the text, and a line feed if it ends without. -/
def definitionText (depth : Nat) (text : String) : List Char :=
  '\n' :: Text.indent depth text.toList ++
    (if text.toList.getLast? = some '\n' then [] else ['\n'])

/-- The line that opens a module. -/
def openingText (depth : Nat) (segment : String) : List Char :=
  '\n' :: Text.indent depth (("pub mod " ++ segment ++ " \x7b\n").toList)

/-- The line that closes a module. -/
def closingText (depth : Nat) : List Char :=
  Text.indent depth "\x7d\n".toList

/-- How many segments two module paths share at their beginning. -/
def sharedDepth : List String → List String → Nat
  | a :: as, b :: bs => if a = b then sharedDepth as bs + 1 else 0
  | _, _ => 0

/-- Closes modules, the innermost first, from one depth to another. -/
def closeTo (depth : Nat) : Nat → List Char
  | 0 => []
  | n + 1 => if n < depth then [] else closingText n ++ closeTo depth n

/-- Opens modules one in another. -/
def openFrom (depth : Nat) : List String → List Char
  | [] => []
  | segment :: rest => openingText depth segment ++ openFrom (depth + 1) rest

/-- The text of sections, with the modules open before them: modules that a section does not
share are closed, those it needs are opened, and at the end all are closed. -/
def sectionsText (opened : List String) : List Section → List Char
  | [] => closeTo 0 opened.length
  | part :: rest =>
    let segments := part.home.segments
    let shared := sharedDepth opened segments
    closeTo shared opened.length ++ openFrom shared (segments.drop shared) ++
      part.definitions.flatMap (definitionText segments.length) ++ sectionsText segments rest

/-- The whole document as text. -/
def render (document : Document) : String :=
  prologue ++ String.ofList (sectionsText [] document.sections)

end Document
end SlotArray
