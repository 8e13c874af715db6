import SlotArray.Number.Binary64
import SlotArray.Text.Blank
import SlotArray.Text.Split

/-! Declarations with the tags attached to them, as a scan reports them. -/
namespace SlotArray

/-- The kind of a tag's argument. -/
inductive ArgumentKind where
  | string
  | integer
  | boolean
  | float
  | other
deriving DecidableEq, Repr

/-- How a message names a kind. -/
def ArgumentKind.describe : ArgumentKind → String
  | .string => "a string"
  | .integer => "an integer"
  | .boolean => "a boolean"
  | .float => "a float"
  | .other => "a non-literal expression"

/-- The value of a tag's argument. -/
inductive Argument where
  | string (text : String)
  | integer (value : Int)
  | boolean (value : Bool)
  | float (value : Binary64)
  /-- Anything that is no plain literal, as source text. -/
  | other (source : String)
deriving DecidableEq, Repr

def Argument.kind : Argument → ArgumentKind
  | .string _ => .string
  | .integer _ => .integer
  | .boolean _ => .boolean
  | .float _ => .float
  | .other _ => .other

/-- A tag on a declaration: its path as written, and its arguments by position. -/
structure Tag where
  path : String
  arguments : List Argument
deriving DecidableEq, Repr

/-- The last segment of a tag's path, which is what tells tags apart. -/
def Tag.name (tag : Tag) : String :=
  String.ofList (Text.trim (Text.afterColons tag.path.toList))

/-- A declaration and every tag attached to it. -/
structure Occurrence where
  /-- What messages call the declaration. An inline container takes its name from it. -/
  declaration : String
  tags : List Tag
deriving DecidableEq, Repr

/-- The name of the tag that asks for a container. -/
def tagName : String := "struct_array"

/-- The tag's path with the crate that defines it. -/
def qualifiedTagName : String := "struct_array::struct_array"

/-- The tag that asks for a container: the first of that name. -/
def Occurrence.tag? (occurrence : Occurrence) : Option Tag :=
  occurrence.tags.find? fun tag => tag.name == tagName

end SlotArray
