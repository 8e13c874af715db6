import SlotArray.Files.Tree
import SlotArray.Generator

/-! Documents written into a directory. -/
namespace SlotArray.Files

/-- Writes a document into a directory, which is made if it is missing. An empty directory
path stands for the one at hand. -/
def sink (start : Place) (dir : String) : Sink Tree := fun name text tree =>
  let (made, tree) :=
    if dir.isEmpty then (.ok (), tree) else tree.makeDirectories start dir
  match made with
  | .error fault => (.error (.write dir fault), tree)
  | .ok () =>
    let path := join dir name
    match tree.write start path text.toUTF8 with
    | .ok tree => (.ok (), tree)
    | .error fault => (.error (.write path fault), tree)

/-- What is reported about a document that was written. -/
def sinkEvents (dir name text : String) : List Event :=
  [⟨.info, "wrote generated source",
    [("path", join dir name), ("bytes", toString text.utf8ByteSize)]⟩]

end SlotArray.Files
