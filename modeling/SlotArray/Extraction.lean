import SlotArray.Fault
import SlotArray.Request

/-! A declaration's tag read as a request for a container. -/
namespace SlotArray

/-- How a tag's arguments are laid out. -/
inductive Shape where
  /-- A name, a module path and a size: a type of its own. -/
  | named
  /-- A size alone: the tagged declaration becomes the container. -/
  | inline
deriving DecidableEq, Repr

/-- The number of arguments of a shape. -/
def Shape.arity : Shape → Nat
  | .named => 3
  | .inline => 1

/-- The element type of a container whose declaration names none. -/
def defaultElement : String := "T"

/-- Reads a string argument. -/
def Argument.readString (index : Nat) : Argument → Except SchemaFault String
  | .string text => .ok text
  | argument => .error (.typeMismatch index .string argument.kind)

/-- Reads a size: an integer that fits in a byte. -/
def Argument.readSize (index : Nat) : Argument → Except SchemaFault Nat
  | .integer value =>
    if 0 ≤ value ∧ value ≤ 255 then .ok value.toNat else .error (.sizeOutOfRange value)
  | argument => .error (.typeMismatch index .integer argument.kind)

/-- Reads a type name: an identifier once the white space around it is gone. -/
def readName (text : String) : Except SchemaFault String :=
  let name := Text.trimmed text
  if Source.isIdentifier name then .ok name else .error (.invalidName name)

/-- Reads a module path. -/
def readHome (text : String) : Except SchemaFault ModulePath :=
  match ModulePath.parse? text with
  | some home => .ok home
  | none => .error (.invalidNamespace (Text.trimmed text))

/-- The request of a named container. Its element type is always `T`, so it cannot have that
name itself. -/
def namedRequest (name home : Argument) (size : SlotCount) : Except SchemaFault Request := do
  let name ← name.readString 0
  let home ← home.readString 1
  let name ← readName name
  if name = defaultElement then throw (.invalidName name)
  let home ← readHome home
  return ⟨name, home, size⟩

/-- The request of an inline container. -/
def inlineRequest (declaration : String) (size : SlotCount) : Except SchemaFault Request := do
  let name ← readName declaration
  return ⟨name, .root, size⟩

/-- The request of a tag. The size is read first: with size 0 there is none, whatever the
other arguments are. -/
def Tag.request? (shape : Shape) (declaration : String) (tag : Tag) :
    Except SchemaFault (Option Request) :=
  match shape, tag.arguments with
  | .named, [name, home, size] => do
    let size ← size.readSize 2
    match SlotCount.ofNat? size with
    | some size => some <$> namedRequest name home size
    | none => return none
  | .inline, [size] => do
    let size ← size.readSize 0
    match SlotCount.ofNat? size with
    | some size => some <$> inlineRequest declaration size
    | none => return none
  | _, arguments => .error (.argumentCount shape.arity arguments.length)

/-- The request of a declaration, nothing when it is not tagged or its size is 0. -/
def Occurrence.request? (shape : Shape) (occurrence : Occurrence) :
    Except SchemaError (Option Request) :=
  match occurrence.tag? with
  | none => .ok none
  | some tag =>
    (tag.request? shape occurrence.declaration).mapError
      fun fault => ⟨occurrence.declaration, tag.path, fault⟩

end SlotArray
