import SlotArray.Event
import SlotArray.Fault
import SlotArray.Files.Tree
import SlotArray.Generator
import SlotArray.Toml.Writer

/-! Manifests: the settings of a pass and the containers to generate, as a TOML document. -/
namespace SlotArray

/-- The settings of a manifest, all of which may be missing. -/
structure Config where
  outDir : Option String
  fileName : Option String
  workers : Option Nat
  extraDerives : List String
deriving DecidableEq, Repr

/-- A manifest. The entries stay as they are: what is wrong with them is found when they are
read as requests. -/
structure Manifest where
  config : Config
  entries : List Toml.Table
  /-- Where the manifest was read from, if from a file. -/
  path : Option String

namespace Config

def initial : Config := ⟨none, none, none, []⟩

def readString : Toml.Value → Option String
  | .string text => some text
  | _ => none

def readStrings : Toml.Value → Option (List String)
  | .array items => items.mapM readString
  | _ => none

def readCount : Toml.Value → Option Nat
  | .integer value => if 0 ≤ value then some value.toNat else none
  | _ => none

/-- The names of the settings, in the order in which an array gives them. -/
def keys : List String := ["out_dir", "file_name", "workers", "extra_derives"]

/-- Makes one setting; there are no others than those named. -/
def set (config : Config) (key : String) (value : Toml.Value) : Option Config :=
  match key with
  | "out_dir" => (readString value).map fun dir => { config with outDir := some dir }
  | "file_name" => (readString value).map fun name => { config with fileName := some name }
  | "workers" => (readCount value).map fun count => { config with workers := some count }
  | "extra_derives" => (readStrings value).map fun paths => { config with extraDerives := paths }
  | _ => none

/-- Makes settings one after another. -/
def setAll (entries : List (String × Toml.Value)) : Option Config :=
  entries.foldlM (fun config entry => config.set entry.1 entry.2) initial

/-- Reads settings: a table, or an array that gives them in order. -/
def ofValue? : Toml.Value → Option Config
  | .array items => setAll (keys.zip items)
  | value => value.table?.bind setAll

end Config

/-- The settings of a pass that a manifest makes. -/
def Generator.ofConfig (config : Config) : Generator where
  extraDerives := config.extraDerives
  workers := config.workers.getD Generator.initial.workers
  fileName := config.fileName.getD outputFileName

/-- A value as the argument of a tag. -/
def Argument.ofValue : Toml.Value → Argument
  | .string text => .string text
  | .integer value => .integer value
  | .boolean value => .boolean value
  | .float value => .float value
  | value => .other value.display

namespace Manifest

/-- Reads a manifest from a table. Keys it does not know are passed over. -/
def ofTable? (table : Toml.Table) : Option Manifest := do
  let config ←
    match table.get? "generator" with
    | some value => Config.ofValue? value
    | none => some .initial
  let entries ←
    match table.get? "struct_array" with
    | some (.array items) => items.mapM Toml.Value.table?
    | some _ => none
    | none => some []
  return ⟨config, entries, none⟩

/-- Reads a manifest from its text. `origin` is what messages call it. -/
def parse (text origin : String) : Except PassError Manifest :=
  match (Toml.Table.ofText? text).bind ofTable? with
  | none => .error (.manifest origin)
  | some manifest =>
    match manifest.config.workers with
    | some workers =>
      if 1 ≤ workers ∧ workers ≤ maxWorkers then .ok manifest
      else .error (.workerCount origin workers)
    | none => .ok manifest

/-- Reads a manifest from the bytes of a file, or fails as reading the file did. -/
def ofFile (path : String) (contents : Except FileFault ByteArray) :
    Except PassError Manifest :=
  match contents with
  | .error fault => .error (.read path fault)
  | .ok bytes =>
    match String.fromUTF8? bytes with
    | none => .error (.read path .notUnicode)
    | some text => (parse text path).map fun manifest => { manifest with path := some path }

/-- Reads a manifest from a file of a tree. -/
def load (tree : Files.Tree) (start : Files.Place) (path : String) : Except PassError Manifest :=
  ofFile path (tree.read start path)

/-- The directory of the generated document: the one the manifest names, seen from where the
manifest is, or else that itself. -/
def outDir (manifest : Manifest) : String :=
  let base := (manifest.path.bind Files.parent?).getD ""
  match manifest.config.outDir with
  | some dir => Files.join base dir
  | none => base

/-- The keys of an entry whose values become arguments, in their order. -/
def argumentKeys : List String := ["name", "namespace", "size"]

/-- What messages call an entry. -/
def entryLabel (manifest : Manifest) (index : Nat) : String :=
  manifest.path.getD "manifest" ++ ": [[struct_array]] #" ++ toString (index + 1)

/-- The arguments an entry gives, up to the first that is missing. -/
def entryArguments (table : Toml.Table) : List String → List Argument
  | [] => []
  | key :: rest =>
    match table.get? key with
    | some value => .ofValue value :: entryArguments table rest
    | none => []

/-- The declarations of a manifest, one per entry. -/
def occurrences (manifest : Manifest) : List Occurrence :=
  manifest.entries.mapIdx fun index table =>
    ⟨manifest.entryLabel index, [⟨qualifiedTagName, entryArguments table argumentKeys⟩]⟩

/-- What is reported about the entries of a manifest: the keys that mean nothing. -/
def events (manifest : Manifest) : List Event :=
  (manifest.entries.mapIdx fun index table =>
    (table.filter fun entry => !argumentKeys.contains entry.1).map fun entry =>
      (⟨.warn, "ignoring unknown key",
        [("declaration", manifest.entryLabel index), ("key", entry.1)]⟩ : Event)).flatten

end Manifest
end SlotArray
