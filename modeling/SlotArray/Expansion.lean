import SlotArray.Generator
import SlotArray.Invocation

/-! What becomes of invocations: the tokens of the containers they ask for. -/
namespace SlotArray
open Source (TokenTree StructItem Span)

/-- Reads made text as tokens again. -/
def reread (text : String) (span : Span) : Except InvocationError (List TokenTree) :=
  (TokenTree.ofText? text).elim (.error (.refused .unreadable span)) .ok

/-! Tagged structs -/

/-- The element type of a tagged struct: its type parameter, or the default when it has none.
A struct with fields, with bounds, or with other parameters is refused, and so is one that is
named like its element. -/
def elementOf (item : StructItem) : Except InvocationError String := do
  if item.hasFields then throw (.refused .hasFields (TokenTree.spanOf item.fieldGroup))
  if let some clause := item.whereClause? then
    throw (.refused .hasWhereClause (TokenTree.spanOf clause))
  let element ←
    match item.parameters with
    | [] => pure defaultElement
    | [parameter] =>
      if parameter.kind = .type && parameter.isBare then pure parameter.name
      else throw (.refused .noPlainParameter (TokenTree.spanOf parameter.trees))
    | _ :: extra :: _ => throw (.refused .tooManyParameters (TokenTree.spanOf extra.trees))
  if item.name = element then throw (.refused (.nameOfElement element) item.nameSpan)
  return element

/-- Whether an attribute lists derives. -/
def isDerive (tag : Source.Attribute) : Bool :=
  match tag.path with
  | [.leaf (.word "derive") _] => true
  | _ => false

/-- The derives of an attribute that a container does not have by itself. -/
def addedDerives (tag : Source.Attribute) : Except InvocationError (List String) := do
  match tag.list? >>= Source.readPaths with
  | none => throw .malformed
  | some paths =>
    let provided (path : Source.PathPhrase) : Bool :=
      path.last?.any fun segment => ("Debug" :: defaultDerives).contains segment.name
    return (paths.filter fun path => !provided path).map fun path => TokenTree.write path.trees

/-- Names with those of another list that are new. -/
def addNew (names more : List String) : List String :=
  more.foldl (fun names name => if names.contains name then names else names ++ [name]) names

/-- The attributes that a container takes over from its declaration, and the derives it gets
in addition to its own. -/
def splitDerives (attributes : List Source.Attribute) :
    Except InvocationError (List String × List String) := do
  let kept := attributes.filter fun tag => !isDerive tag
  let derives ← (attributes.filter isDerive).mapM addedDerives
  return (kept.map fun tag => TokenTree.write tag.trees, addNew [] derives.flatten)

/-- The element and the occurrence of a tagged struct. -/
def readTaggedStruct (item : StructItem) (arguments : List TokenTree) :
    Except InvocationError (String × Occurrence) := do
  let element ← elementOf item
  return (element, ← readTagged item.name arguments)

/-- The tokens of the container that a tagged struct becomes. With size 0 the struct stays as it
is. -/
def expandTagged (item : StructItem) (arguments : List TokenTree) :
    Except InvocationError (List TokenTree) := do
  let (element, occurrence) ← readTaggedStruct item arguments
  match occurrence.request? .inline with
  | .error error =>
    throw (.refused (.pass (.schema error)) (TokenTree.spanOf arguments))
  | .ok none => return item.trees
  | .ok (some request) =>
    let (attributes, derives) ← splitDerives item.attributes
    let declaration : Declaration :=
      ⟨request.name, request.size.val, TokenTree.write item.visibility, element, attributes,
        derives⟩
    reread declaration.render item.nameSpan

/-- What is reported while a tagged struct is expanded. -/
def expandTaggedEvents (item : StructItem) (arguments : List TokenTree) : List Event :=
  match readTaggedStruct item arguments with
  | .ok (_, occurrence) => occurrence.events .inline
  | .error _ => []

/-! Lists of entries -/

/-- Where an error of a pass over entries is reported: at the entry that a schema error is
about, else at the list as a whole. -/
def errorSpan (entries : List Entry) : PassError → Span
  | .schema error =>
    ((entries.find? fun entry => entry.occurrence.declaration == error.declaration).map
      Entry.span).getD .callSite
  | _ => .callSite

/-- The tokens of the containers that a list of entries asks for. -/
def expandEntries (trees : List TokenTree) : Except InvocationError (List TokenTree) := do
  let entries ← readEntries trees
  match Generator.initial.generate (entries.map Entry.occurrence) with
  | .error error => throw (.refused (.pass error) (errorSpan entries error))
  | .ok none => return []
  | .ok (some text) => reread text .callSite

/-- What is reported while a list of entries is expanded. -/
def expandEntriesEvents (trees : List TokenTree) : List Event :=
  match readEntries trees with
  | .ok entries => Generator.initial.generateEvents (entries.map Entry.occurrence)
  | .error _ => []

end SlotArray
