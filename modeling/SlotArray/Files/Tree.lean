import SlotArray.Fault
import SlotArray.Files.Path

/-! A tree of files, and what reading, writing and making directories does to it. -/
namespace SlotArray.Files

/-- A place in a tree: the names on the way from the root. -/
abbrev Place := List String

/-- What stands at a place. -/
inductive Entry where
  | file (bytes : ByteArray)
  | directory

instance : DecidableEq Entry
  | .file a, .file b =>
    match ByteArray.instDecidableEq a b with
    | isTrue same => isTrue (congrArg _ same)
    | isFalse differ => isFalse fun same => differ (Entry.file.inj same)
  | .file _, .directory => isFalse nofun
  | .directory, .file _ => isFalse nofun
  | .directory, .directory => isTrue rfl

/-- Files and directories by their places. The root is always a directory. -/
structure Tree where
  entries : List (Place × Entry)

namespace Tree

/-- The tree with nothing but its root. -/
def empty : Tree := ⟨[]⟩

/-- What stands at a place. -/
def get? (tree : Tree) (place : Place) : Option Entry :=
  if place = [] then some .directory
  else (tree.entries.find? fun entry => entry.1 == place).map Prod.snd

/-- The tree with an entry put at a place. -/
def put (tree : Tree) (place : Place) (entry : Entry) : Tree :=
  ⟨(place, entry) :: tree.entries.filter fun other => other.1 != place⟩

/-- What is put at a place stands there. -/
theorem get?_put_self (tree : Tree) {place : Place} (below : place ≠ []) (entry : Entry) :
    (tree.put place entry).get? place = some entry := by
  simp [get?, put, below]

/-- Nothing else changes. -/
theorem get?_put_of_ne (tree : Tree) {place other : Place} (differ : other ≠ place)
    (entry : Entry) : (tree.put place entry).get? other = tree.get? other := by
  have head : (place == other) = false := by simpa using Ne.symm differ
  have kept (entry : Place × Entry) (found : (entry.1 == other) = true) :
      (entry.1 != place) = true := by
    simp only [beq_iff_eq] at found
    simp [found, differ]
  simp only [get?, put, List.find?_cons, head, List.find?_filter]
  congr 4
  funext entry
  cases same : entry.1 == other <;> simp_all

/-- The most bytes a name and a path may have. -/
def nameLimit : Nat := 255

def pathLimit : Nat := 4096

/-- Follows one part of a path from a directory to another. -/
def enter (tree : Tree) (place : Place) (part : List Char) : Except FileFault Place :=
  if part = [] || part = ['.'] then .ok place
  else if part = ['.', '.'] then .ok place.dropLast
  else
    let name := String.ofList part
    if nameLimit < name.utf8ByteSize then .error .nameTooLong
    else
      match tree.get? (place ++ [name]) with
      | some .directory => .ok (place ++ [name])
      | some (.file _) => .error .notDirectory
      | none => .error .notFound

/-- Where a path leads: to a directory that is there, or to a name in one. -/
inductive Target where
  | directory (place : Place)
  /-- A name in a directory, and whether a slash stands behind it. -/
  | name (place : Place) (slash : Bool)
deriving DecidableEq, Repr

/-- Follows a path from the directory it starts in, up to its last name. -/
def locate (tree : Tree) (start : Place) (path : String) : Except FileFault Target := do
  if path.toList.contains '\x00' then throw .nulInName
  if path.isEmpty then throw .notFound
  if pathLimit ≤ path.utf8ByteSize then throw .nameTooLong
  let parts := pathParts path.toList
  let start := if isAbsolute path then [] else start
  let named := (parts.reverse.dropWhile List.isEmpty).reverse
  match named.getLast? with
  | none => return .directory start
  | some last =>
    let place ← named.dropLast.foldlM tree.enter start
    if last = ['.'] || last = ['.', '.'] then
      return .directory (← tree.enter place last)
    let name := String.ofList last
    if nameLimit < name.utf8ByteSize then throw .nameTooLong
    return .name (place ++ [name]) (named.length < parts.length)

/-- What a path leads to. -/
def find? (tree : Tree) (start : Place) (path : String) : Option Entry :=
  match tree.locate start path with
  | .ok (.directory _) => some .directory
  | .ok (.name place slash) =>
    match tree.get? place with
    | some (.file bytes) => if slash then none else some (.file bytes)
    | found => found
  | .error _ => none

def isDirectory (tree : Tree) (start : Place) (path : String) : Bool :=
  tree.find? start path = some .directory

/-- Reads a file. -/
def read (tree : Tree) (start : Place) (path : String) : Except FileFault ByteArray := do
  match ← tree.locate start path with
  | .directory _ => throw .isDirectory
  | .name place slash =>
    match tree.get? place with
    | some (.file bytes) => if slash then throw .notDirectory else return bytes
    | some .directory => throw .isDirectory
    | none => throw .notFound

/-- Writes a file, a new one or in place of what it held. -/
def write (tree : Tree) (start : Place) (path : String) (bytes : ByteArray) :
    Except FileFault Tree := do
  match ← tree.locate start path with
  | .directory _ => throw .isDirectory
  | .name place slash =>
    if slash then throw .isDirectory
    match tree.get? place with
    | some .directory => throw .isDirectory
    | _ => return tree.put place (.file bytes)

/-- Makes a directory in one that is there. -/
def makeDirectory (tree : Tree) (start : Place) (path : String) : Except FileFault Tree := do
  match ← tree.locate start path with
  | .directory _ => throw .exists
  | .name place _ =>
    match tree.get? place with
    | some _ => throw .exists
    | none => return tree.put place .directory

/-- Makes the first of some directories after those behind it, each in the next, as far as they
are missing. What was made stays even if a later one fails. -/
def makeChain (start : Place) (tree : Tree) : List String → Except FileFault Unit × Tree
  | [] => (.error (.other "failed to create whole tree"), tree)
  | path :: above =>
    if path.isEmpty then (.ok (), tree)
    else
      match tree.makeDirectory start path with
      | .ok tree => (.ok (), tree)
      | .error .notFound =>
        match makeChain start tree above with
        | (.error fault, tree) => (.error fault, tree)
        | (.ok (), tree) =>
          match tree.makeDirectory start path with
          | .ok tree => (.ok (), tree)
          | .error fault =>
            (if tree.isDirectory start path then .ok () else .error fault, tree)
      | .error fault => (if tree.isDirectory start path then .ok () else .error fault, tree)

/-- A path and the paths of the directories above it, up to `n` of them. -/
def ancestors : Nat → String → List String
  | 0, path => [path]
  | n + 1, path =>
    match parent? path with
    | some above => path :: ancestors n above
    | none => [path]

/-- Makes a directory and those above it, as far as they are missing. -/
def makeDirectories (tree : Tree) (start : Place) (path : String) :
    Except FileFault Unit × Tree :=
  tree.makeChain start (ancestors (pathParts path.toList).length path)

end Tree
end SlotArray.Files
